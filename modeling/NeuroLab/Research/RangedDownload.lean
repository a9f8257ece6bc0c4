import NeuroLab.Common.Loop
import NeuroLab.Python.Conversions
import NeuroLab.Python.Dates
import NeuroLab.Research.Items

/-!
# The download of a PDF in ranges

The loop that fetches a publisher's file range by range. The server chooses how much of a range it
sends and, in its first answer, how long the file is; the loop checks that each part begins where the
last one ended and that the length stays the same. Against any server the loop ends, and a server
that sends prefixes of the ranges of one file is read as that file.
-/

namespace NeuroLab.Research.RangedDownload

open Python Common

/-! ## Requests and answers -/

/-- `_MAX_PDF_BYTES`. -/
def maxPdfBytes : ℕ := 25 * 1024 * 1024

/-- `_RANGE_CHUNK_BYTES`. -/
def rangeChunkBytes : ℕ := 256 * 1024

abbrev Bytes := List UInt8

/-- A `PublisherFullTextError`, or an exception of the network or of `int`. -/
inductive Failure
  | publisher (message : Str)
  | uncaught (exc : PyExc)

/-- A request: its URL and its `Range` header. -/
structure Request where
  url : Str
  range : Str

/-- The request of a range. -/
def rangeRequest (url : Str) (first last : ℕ) : Request where
  url
  range := lit "bytes=" ++ decimal first ++ lit "-" ++ decimal last

/-- What the function reads of a response; reading the body may raise. -/
structure Response where
  url : Str
  status : ℕ
  contentRange : Option Str
  contentType : Str
  body : Except PyExc Bytes

/-- `response.read(amount)`. -/
def Response.read (response : Response) (amount : ℕ) : Except PyExc Bytes := response.body.map (List.take amount)

/-- A server: what opening a request leads to, which may depend on how many went before. -/
abbrev Server := ℕ → Request → Except PyExc Response

/-! ## One part -/

/-- A part of a file: its first and last position, the length of the whole and its bytes. -/
structure Part where
  first : ℕ
  last : ℕ
  total : ℕ
  body : Bytes
  first_le_last : first ≤ last
  last_lt_total : last < total
  total_le : total ≤ maxPdfBytes
  length_body : body.length = last - first + 1

/-- `_CONTENT_RANGE.fullmatch(header)`: the three runs of digits. -/
def contentRangeDigits (header : Str) : Option (Str × Str × Str) := do
  let s ← after? (lit "bytes ") header
  let first := s.takeWhile isDecimal
  let s ← after? (lit "-") (s.dropWhile isDecimal)
  let last := s.takeWhile isDecimal
  let total ← after? (lit "/") (s.dropWhile isDecimal)
  if first.isEmpty || last.isEmpty || total.isEmpty || !total.all isDecimal then none else some (first, last, total)

/-- `int` of a run of digits, which has no sign, or its `ValueError`. -/
def intOfDigits (digits : Str) : Except Failure ℕ :=
  match intOfText digits with
  | some n => .ok n.toNat
  | none => .error (.uncaught (.value (lit "ValueError")))

/-- The range and the length that a response declares. -/
def declaredRange (header : Option Str) : Except Failure (ℕ × ℕ × ℕ) :=
  match contentRangeDigits (header.getD []) with
  | none => .error (.publisher (lit "publisher static PDF has no valid content range"))
  | some (first, last, total) => do
    return (← intOfDigits first, ← intOfDigits last, ← intOfDigits total)

/-- The part that a response carries, if it passes the checks. -/
def readPart (url : Str) (expectedStart : ℕ) (totalSize : Option ℕ) (response : Response) : Except Failure Part := do
  if response.url ≠ url ∨ response.status ≠ 206 then
    throw (.publisher (lit "publisher static PDF did not honour the fixed range request"))
  let (rangeStart, rangeEnd, declaredTotal) ← declaredRange response.contentRange
  if hrange : rangeStart ≠ expectedStart ∨ rangeEnd < rangeStart then
    throw (.publisher (lit "publisher static PDF content range is discontinuous"))
  else if htotal : declaredTotal = 0 ∨ maxPdfBytes < declaredTotal ∨ declaredTotal ≤ rangeEnd then
    throw (.publisher (lit "publisher static PDF size is outside the limit"))
  else if totalSize.any (declaredTotal ≠ ·) then
    throw (.publisher (lit "publisher static PDF size changed during retrieval"))
  else
    let expectedLength := rangeEnd - rangeStart + 1
    match response.read (expectedLength + 1) with
    | .error exc => throw (.uncaught exc)
    | .ok part =>
      if hlength : part.length ≠ expectedLength then
        throw (.publisher (lit "publisher static PDF range is incomplete"))
      else
        return {
          first := rangeStart
          last := rangeEnd
          total := declaredTotal
          body := part
          first_le_last := by omega
          last_lt_total := by omega
          total_le := by omega
          length_body := of_not_not hlength }

/-- A response carries a part: all of its body, under the range it declares. -/
structure Delivers (url : Str) (response : Response) (part : Part) : Prop where
  url : response.url = url
  status : response.status = 206
  range : declaredRange response.contentRange = .ok (part.first, part.last, part.total)
  body : response.body = .ok part.body

/-- Bytes of which one more was asked for are all there are. -/
theorem take_eq_of_length {bytes : Bytes} {n : ℕ} (h : (bytes.take (n + 1)).length = n) : bytes.take (n + 1) = bytes := by
  rw [List.length_take] at h
  exact List.take_of_length_le (by omega)

variable {url : Str} {expectedStart : ℕ} {totalSize : Option ℕ} {response : Response} {part : Part}

theorem delivers_of_readPart (h : readPart url expectedStart totalSize response = .ok part) :
    Delivers url response part ∧ part.first = expectedStart ∧ ∀ size, totalSize = some size → part.total = size := by
  unfold readPart at h
  split at h
  · cases h
  next hresponse =>
  obtain ⟨hurl, hstatus⟩ := not_or.mp hresponse
  obtain ⟨⟨rangeStart, rangeEnd, declaredTotal⟩, hdeclared, h⟩ := bind_eq_ok_iff.mp h
  simp only at h
  split at h
  · cases h
  split at h
  · cases h
  split at h
  · cases h
  next hrange htotal hsize =>
  cases hread : response.read (rangeEnd - rangeStart + 1 + 1) with
  | error exc =>
    rw [hread] at h
    cases h
  | ok bytes =>
    simp only [hread] at h
    split at h
    · cases h
    next hlength =>
    cases h
    have hbody : response.body = .ok bytes := by
      cases hall : response.body with
      | error exc =>
        rw [Response.read, hall] at hread
        cases hread
      | ok all =>
        rw [Response.read, hall] at hread
        obtain rfl : all.take (rangeEnd - rangeStart + 1 + 1) = bytes := Except.ok.inj hread
        exact congrArg Except.ok (take_eq_of_length (of_not_not hlength)).symm
    refine ⟨⟨of_not_not hurl, of_not_not hstatus, hdeclared, hbody⟩, of_not_not (not_or.mp hrange).1, ?_⟩
    rintro size rfl
    simpa using hsize

/-- A part that is carried, where it is expected, is read. -/
theorem readPart_of_delivers (h : Delivers url response part) (hfirst : part.first = expectedStart)
    (htotal : ∀ size, totalSize = some size → part.total = size) :
    readPart url expectedStart totalSize response = .ok part := by
  obtain ⟨first, last, total, body, first_le_last, last_lt_total, total_le, length_body⟩ := part
  obtain ⟨hurl, hstatus, hdeclared, hbody⟩ := h
  subst hfirst
  have hsize : ¬totalSize.any (total ≠ ·) = true := by
    rw [Option.any_eq_true]
    rintro ⟨size, hmem, hne⟩
    exact of_decide_eq_true hne (htotal size hmem)
  have hread : response.read (last - first + 1 + 1) = .ok body := by
    rw [Response.read, hbody]
    exact congrArg Except.ok (List.take_of_length_le (length_body.le.trans (Nat.le_succ _)))
  have hrange : ¬(first ≠ first ∨ last < first) := by omega
  have htotal' : ¬(total = 0 ∨ maxPdfBytes < total ∨ total ≤ last) := by omega
  unfold readPart
  rw [if_neg (not_or.mpr ⟨not_not.mpr hurl, not_not.mpr hstatus⟩)]
  apply bind_eq_ok_iff.mpr
  refine ⟨_, hdeclared, ?_⟩
  simp only
  rw [dif_neg hrange, dif_neg htotal', if_neg hsize]
  simp only [hread]
  rw [dif_neg (not_not.mpr length_body)]
  rfl

/-! ## The loop -/

/-- The variables of the function, and the requests made. -/
structure State where
  payload : Bytes := []
  expectedStart : ℕ := 0
  totalSize : Option ℕ := none
  contentType : Str := []
  requests : List Request := []

/-- `total_size is None or expected_start < total_size`. -/
def State.goesOn (s : State) : Bool := s.totalSize.all (s.expectedStart < ·)

/-- `expected_end`. -/
def State.expectedEnd (s : State) : ℕ := min (s.expectedStart + rangeChunkBytes - 1) (maxPdfBytes - 1)

/-- A round of the loop. -/
def fetchRange (server : Server) (url : Str) : Program State Failure Unit := do
  let s ← get
  let request := rangeRequest url s.expectedStart s.expectedEnd
  modify fun s => { s with requests := s.requests ++ [request] }
  match server s.requests.length request with
  | .error exc => throw (.uncaught exc)
  | .ok response =>
    match readPart url s.expectedStart s.totalSize response with
    | .error failure => throw failure
    | .ok part =>
      modify fun s => { s with
        payload := s.payload ++ part.body
        expectedStart := part.last + 1
        totalSize := some part.total
        contentType := response.contentType }

/-- `_read_static_pdf_ranges`, cut off behind so many rounds, with the state that is left. -/
def readStaticPdfRanges (server : Server) (url : Str) (rounds : ℕ) : Option (Except Failure (Bytes × Str) × State) :=
  (loop State.goesOn (fetchRange server url) rounds {}).map fun outcome =>
    (outcome.1.map fun _ => (outcome.2.payload, outcome.2.contentType), outcome.2)

/-! ## A round -/

namespace State

/-- The state in which a round's request has been made. -/
def asked (s : State) (url : Str) : State :=
  { s with requests := s.requests ++ [rangeRequest url s.expectedStart s.expectedEnd] }

/-- The state behind a part. -/
def extended (s : State) (part : Part) (contentType : Str) : State :=
  { s with
    payload := s.payload ++ part.body
    expectedStart := part.last + 1
    totalSize := some part.total
    contentType }

end State

variable {server : Server} {s : State}

/-- A round makes its request and adds the part that it is answered with. -/
theorem outcome_fetchRange :
    (fetchRange server url).outcome s =
      match server s.requests.length (rangeRequest url s.expectedStart s.expectedEnd) with
      | .error exc => (.error (.uncaught exc), s.asked url)
      | .ok response =>
        match readPart url s.expectedStart s.totalSize response with
        | .error failure => (.error failure, s.asked url)
        | .ok part => (.ok (), (s.asked url).extended part response.contentType) := by
  unfold fetchRange
  rw [Program.outcome_bind_of_ok (Program.outcome_get s)]
  simp only
  rw [Program.outcome_bind_of_ok (Program.outcome_modify s _)]
  cases server s.requests.length (rangeRequest url s.expectedStart s.expectedEnd) with
  | error exc => rfl
  | ok response =>
    simp only
    cases readPart url s.expectedStart s.totalSize response with
    | error failure => rfl
    | ok part => rfl

/-- A round whose response carries the part that is expected adds it. -/
theorem outcome_fetchRange_of_part
    (hserver : server s.requests.length (rangeRequest url s.expectedStart s.expectedEnd) = .ok response)
    (hread : readPart url s.expectedStart s.totalSize response = .ok part) :
    (fetchRange server url).outcome s = (.ok (), (s.asked url).extended part response.contentType) := by
  rw [outcome_fetchRange, hserver]
  simp only [hread]

/-- A round adds a part that its response carries, or raises behind its request. -/
theorem meets_fetchRange {Q : State → Prop} {E : Failure → State → Prop} (hraised : ∀ failure, E failure (s.asked url))
    (hpart : ∀ response part, server s.requests.length (rangeRequest url s.expectedStart s.expectedEnd) = .ok response →
      readPart url s.expectedStart s.totalSize response = .ok part →
        Q ((s.asked url).extended part response.contentType)) :
    Meets (fun _ => Q) E ((fetchRange server url).outcome s) := by
  rw [outcome_fetchRange]
  cases hserver : server s.requests.length (rangeRequest url s.expectedStart s.expectedEnd) with
  | error exc => exact hraised (.uncaught exc)
  | ok response =>
    cases hread : readPart url s.expectedStart s.totalSize response with
    | error failure =>
      simp only [hread]
      exact hraised failure
    | ok part =>
      simp only [hread]
      exact hpart response part hserver hread

/-! ## Any server -/

/-- Parts that follow one another, from one position up to another. -/
def Contiguous : ℕ → List Part → ℕ → Prop
  | start, [], stop => start = stop
  | start, part :: parts, stop => part.first = start ∧ Contiguous (part.last + 1) parts stop

namespace Contiguous

variable {start stop : ℕ} {parts : List Part}

theorem concat (h : Contiguous start parts part.first) : Contiguous start (parts ++ [part]) (part.last + 1) := by
  induction parts generalizing start with
  | nil => exact ⟨h.symm, rfl⟩
  | cons p parts ih => exact ⟨h.1, ih h.2⟩

/-- The bytes of the parts fill what is between the positions. -/
theorem length_flatMap (h : Contiguous start parts stop) : start + (parts.flatMap Part.body).length = stop := by
  induction parts generalizing start with
  | nil => exact h
  | cons p parts ih =>
    have hrest := ih h.2
    have hfirst := h.1
    have hle := p.first_le_last
    rw [List.flatMap_cons, List.length_append, p.length_body]
    omega

/-- No part is empty. -/
theorem length_le (h : Contiguous start parts stop) : start + parts.length ≤ stop := by
  induction parts generalizing start with
  | nil => exact Nat.le_of_eq h
  | cons p parts ih =>
    have hrest := ih h.2
    have hfirst := h.1
    have hle := p.first_le_last
    rw [List.length_cons]
    omega

theorem le_first (h : Contiguous start parts stop) : ∀ p ∈ parts, start ≤ p.first := by
  induction parts generalizing start with
  | nil => exact nofun
  | cons q parts ih =>
    have hrest := ih h.2
    have hfirst := h.1
    have hle := q.first_le_last
    intro p hp
    obtain rfl | hp := List.mem_cons.mp hp
    · exact hfirst.ge
    · have hnext := hrest p hp
      omega

/-- No two parts overlap. -/
theorem pairwise (h : Contiguous start parts stop) : parts.Pairwise fun p q => p.last < q.first := by
  induction parts generalizing start with
  | nil => exact List.Pairwise.nil
  | cons p parts ih => exact List.Pairwise.cons (le_first h.2) (ih h.2)

end Contiguous

/-- A request asks for a range that is not empty and ends before the limit. -/
def WithinLimit (url : Str) (request : Request) : Prop :=
  ∃ first last, first ≤ last ∧ last < maxPdfBytes ∧ request = rangeRequest url first last

/-- The answers to the requests carry the parts, one each. -/
def Answered (server : Server) (url : Str) (requests : List Request) (parts : List Part) : Prop :=
  List.Forall₂ (fun answer part => ∃ response, answer = .ok response ∧ Delivers url response part)
    (requests.mapIdx server) parts

/-- What the rounds keep: the payload is made of the parts, which follow one another, and the length of the file is
not known before the first of them. -/
structure Assembled (server : Server) (url : Str) (parts : List Part) (s : State) : Prop where
  requested : ∀ request ∈ s.requests, WithinLimit url request
  answered : Answered server url s.requests parts
  contiguous : Contiguous 0 parts s.expectedStart
  payload : s.payload = parts.flatMap Part.body
  unknown : s.totalSize = none → s.expectedStart = 0
  known : ∀ size, s.totalSize = some size →
    s.expectedStart ≤ size ∧ 0 < size ∧ size ≤ maxPdfBytes ∧ ∀ part ∈ parts, part.total = size

namespace Assembled

variable {parts : List Part}

theorem start : Assembled server url [] {} where
  requested := nofun
  answered := .nil
  contiguous := rfl
  payload := rfl
  unknown _ := rfl
  known := nofun

/-- A round begins before the limit. -/
theorem expectedStart_lt (h : Assembled server url parts s) (hgoesOn : s.goesOn = true) : s.expectedStart < maxPdfBytes := by
  cases htotal : s.totalSize with
  | none =>
    rw [h.unknown htotal]
    decide
  | some size =>
    obtain ⟨-, -, hle, -⟩ := h.known size htotal
    rw [State.goesOn, htotal, Option.all_some, decide_eq_true_eq] at hgoesOn
    exact hgoesOn.trans_le hle

/-- There are no more requests than bytes. -/
theorem length_requests_le (h : Assembled server url parts s) : s.requests.length ≤ s.expectedStart := by
  have hlength := List.Forall₂.length_eq h.answered
  have hle := h.contiguous.length_le
  rw [List.length_mapIdx] at hlength
  omega

/-- The request of a round is within the limit. -/
theorem requested_asked (h : Assembled server url parts s) (hgoesOn : s.goesOn = true) :
    ∀ request ∈ (s.asked url).requests, WithinLimit url request := by
  have hstart := h.expectedStart_lt hgoesOn
  intro request hrequest
  obtain hrequest | hrequest := List.mem_append.mp hrequest
  · exact h.requested request hrequest
  · refine ⟨s.expectedStart, s.expectedEnd, ?_, ?_, List.mem_singleton.mp hrequest⟩
    · have hchunk : 0 < rangeChunkBytes := by decide
      unfold State.expectedEnd
      omega
    · unfold State.expectedEnd
      omega

/-- A round keeps what the payload is made of. -/
theorem extended (h : Assembled server url parts s) (hgoesOn : s.goesOn = true)
    (hserver : server s.requests.length (rangeRequest url s.expectedStart s.expectedEnd) = .ok response)
    (hread : readPart url s.expectedStart s.totalSize response = .ok part) :
    Assembled server url (parts ++ [part]) ((s.asked url).extended part response.contentType) := by
  obtain ⟨hdelivers, hfirst, htotal⟩ := delivers_of_readPart hread
  constructor
  case requested => exact h.requested_asked hgoesOn
  case answered =>
    have hlast : Answered server url (s.asked url).requests (parts ++ [part]) := by
      unfold Answered State.asked
      rw [List.mapIdx_concat]
      exact List.rel_append h.answered (.cons ⟨response, hserver, hdelivers⟩ .nil)
    exact hlast
  case contiguous =>
    apply Contiguous.concat
    rw [hfirst]
    exact h.contiguous
  case payload =>
    have hpayload := h.payload
    simp only [State.extended, State.asked, hpayload, List.flatMap_append, List.flatMap_singleton]
  case unknown => exact nofun
  case known =>
    rintro size ⟨⟩
    refine ⟨part.last_lt_total, part.last_lt_total.pos, part.total_le, fun p hp => ?_⟩
    obtain hp | hp := List.mem_append.mp hp
    · cases hsize : s.totalSize with
      | none =>
        have hlength := h.contiguous.length_le
        rw [h.unknown hsize] at hlength
        exact absurd (List.length_pos_of_mem hp) (by omega)
      | some size =>
        obtain ⟨-, -, -, hall⟩ := h.known size hsize
        rw [hall p hp, htotal size hsize]
    · rw [List.mem_singleton.mp hp]

end Assembled

/-- How far the loop is from the limit. -/
def State.remaining (s : State) : ℕ := maxPdfBytes - s.expectedStart

/-- The requests made: no more than bytes, and each within the limit. -/
structure Bounded (url : Str) (s : State) : Prop where
  count : s.requests.length ≤ maxPdfBytes
  within : ∀ request ∈ s.requests, WithinLimit url request

theorem Assembled.bounded_asked {parts : List Part} (h : Assembled server url parts s) (hgoesOn : s.goesOn = true) :
    Bounded url (s.asked url) where
  count := by
    have hlength := h.length_requests_le
    have hstart := h.expectedStart_lt hgoesOn
    rw [State.asked, List.length_append, List.length_singleton]
    omega
  within := h.requested_asked hgoesOn

/-- Against any server the loop ends, however many rounds beyond the limit it is given. -/
theorem exists_download (server : Server) (url : Str) :
    ∃ outcome, (∀ rounds, maxPdfBytes ≤ rounds → loop State.goesOn (fetchRange server url) rounds {} = some outcome) ∧
      Meets (fun _ s => (∃ parts, Assembled server url parts s) ∧ s.goesOn = false) (fun _ => Bounded url) outcome := by
  have hpositive : ∀ s, (∃ parts, Assembled server url parts s) → s.goesOn = true → 0 < s.remaining := by
    rintro s ⟨parts, h⟩ hgoesOn
    have hstart := h.expectedStart_lt hgoesOn
    exact Nat.sub_pos_of_lt hstart
  have hround : ∀ s, (∃ parts, Assembled server url parts s) → s.goesOn = true →
      Meets (fun _ s' => (∃ parts, Assembled server url parts s') ∧ s'.remaining < s.remaining) (fun _ => Bounded url)
        ((fetchRange server url).outcome s) := by
    rintro s ⟨parts, h⟩ hgoesOn
    apply meets_fetchRange
    · exact fun _ => h.bounded_asked hgoesOn
    · intro response part hserver hread
      refine ⟨⟨parts ++ [part], h.extended hgoesOn hserver hread⟩, ?_⟩
      obtain ⟨-, hfirst, -⟩ := delivers_of_readPart hread
      have hstart := h.expectedStart_lt hgoesOn
      have hle := part.first_le_last
      simp only [State.remaining, State.extended]
      omega
  exact exists_loop hpositive hround ⟨[], .start⟩

/-- A payload is put together from the parts in the answers to the requests: they follow one another from the first
byte to the last, none overlaps another, and all declare the one length that the payload has. -/
structure PutTogether (server : Server) (url : Str) (requests : List Request) (parts : List Part) (total : ℕ)
    (payload : Bytes) : Prop where
  answered : Answered server url requests parts
  contiguous : Contiguous 0 parts total
  disjoint : parts.Pairwise fun p q => p.last < q.first
  declared : ∀ part ∈ parts, part.total = total
  positive : 0 < total
  total_le : total ≤ maxPdfBytes
  payload_eq : payload = parts.flatMap Part.body
  length_payload : payload.length = total

/-- A loop that stops has the whole file. -/
theorem Assembled.putTogether {parts : List Part} (h : Assembled server url parts s) (hstopped : s.goesOn = false) :
    ∃ total, PutTogether server url s.requests parts total s.payload := by
  cases htotal : s.totalSize with
  | none =>
    rw [State.goesOn, htotal] at hstopped
    cases hstopped
  | some size =>
    obtain ⟨hle, hpositive, hlimit, hdeclared⟩ := h.known size htotal
    rw [State.goesOn, htotal, Option.all_some, decide_eq_false_iff_not] at hstopped
    have hsize : s.expectedStart = size := by omega
    have hcontiguous := h.contiguous
    rw [hsize] at hcontiguous
    have hlength : s.payload.length = size := by
      rw [h.payload, ← hcontiguous.length_flatMap, Nat.zero_add]
    exact ⟨size, h.answered, hcontiguous, hcontiguous.pairwise, hdeclared, hpositive, hlimit, h.payload, hlength⟩

theorem Assembled.bounded {parts : List Part} (h : Assembled server url parts s) (hstopped : s.goesOn = false) :
    Bounded url s where
  count := by
    obtain ⟨total, htogether⟩ := h.putTogether hstopped
    have hlength := List.Forall₂.length_eq htogether.answered
    have hle := htogether.contiguous.length_le
    have hlimit := htogether.total_le
    rw [List.length_mapIdx] at hlength
    omega
  within := h.requested

/-! ## A server with a file -/

/-- The `Content-Range` of a part. -/
def contentRangeHeader (first last total : ℕ) : Str :=
  lit "bytes " ++ decimal first ++ lit "-" ++ decimal last ++ lit "/" ++ decimal total

/-- A server answers each request for a range of a file with 206 and some bytes from its front. -/
def Serves (server : Server) (url : Str) (file : Bytes) : Prop :=
  ∀ n first last, first < file.length → first ≤ last → last < maxPdfBytes →
    ∃ response sent, server n (rangeRequest url first last) = .ok response ∧ sent ≠ [] ∧
      sent <+: (file.take (last + 1)).drop first ∧ response.url = url ∧ response.status = 206 ∧
      response.contentRange = some (contentRangeHeader first (first + sent.length - 1) file.length) ∧
      response.body = .ok sent

theorem isDecimal_of_mem_decimal {n c : ℕ} (h : c ∈ decimal n) : isDecimal c = true := by
  rw [isDecimal, isDigit_of_mem_decimal h, Bool.true_or]

theorem takeWhile_decimal (n : ℕ) {c : ℕ} (hc : isDecimal c = false) (s : Str) :
    (decimal n ++ c :: s).takeWhile isDecimal = decimal n := by
  rw [List.takeWhile_append_of_pos fun _ => isDecimal_of_mem_decimal, List.takeWhile_cons, hc]
  exact List.append_nil _

theorem dropWhile_isDecimal_decimal (n : ℕ) {c : ℕ} (hc : isDecimal c = false) (s : Str) :
    (decimal n ++ c :: s).dropWhile isDecimal = c :: s := by
  rw [List.dropWhile_append_of_pos fun _ => isDecimal_of_mem_decimal, List.dropWhile_cons, hc]
  rfl

theorem contentRangeDigits_header (first last total : ℕ) :
    contentRangeDigits (contentRangeHeader first last total) = some (decimal first, decimal last, decimal total) := by
  have hheader : contentRangeHeader first last total =
      lit "bytes " ++ (decimal first ++ 0x2D :: (decimal last ++ 0x2F :: decimal total)) := by
    simp [contentRangeHeader, lit]
  have hdash : isDecimal 0x2D = false := by decide
  have hslash : isDecimal 0x2F = false := by decide
  have hempty : ∀ n, (decimal n).isEmpty = false := fun n => List.isEmpty_eq_false_iff.mpr (decimal_ne_nil n)
  have hall : (decimal total).all isDecimal = true := List.all_eq_true.mpr fun _ => isDecimal_of_mem_decimal
  have hword : ∀ (word s : Str), after? word (word ++ s) = some s := fun word s => after?_eq_some_iff.mpr rfl
  have hminus : ∀ s : Str, after? (lit "-") (0x2D :: s) = some s := hword (lit "-")
  have hover : ∀ s : Str, after? (lit "/") (0x2F :: s) = some s := hword (lit "/")
  rw [contentRangeDigits, hheader, hword]
  simp only [Option.bind_eq_bind, Option.bind_some, takeWhile_decimal first hdash, dropWhile_isDecimal_decimal first hdash,
    hminus, takeWhile_decimal last hslash, dropWhile_isDecimal_decimal last hslash, hover, hempty, hall, Bool.not_true,
    Bool.or_self, Bool.false_eq_true, if_false]

theorem length_decimal_le {n : ℕ} (h : n ≤ maxPdfBytes) : (decimal n).length ≤ maxStrDigits := by
  unfold decimal
  split
  · decide
  · rw [List.length_reverse, List.length_map]
    have hbound : n < 10 ^ 8 := by
      unfold maxPdfBytes at h
      omega
    have hdigits := (Nat.digits_length_le_iff (by decide : 1 < 10) n).mpr hbound
    exact hdigits.trans (by decide)

theorem intOfDigits_decimal {n : ℕ} (h : n ≤ maxPdfBytes) : intOfDigits (decimal n) = .ok n := by
  rw [intOfDigits, intOfText_decimal (length_decimal_le h)]
  rfl

theorem declaredRange_header {first last total : ℕ} (hfirst : first ≤ last) (hlast : last < total)
    (htotal : total ≤ maxPdfBytes) :
    declaredRange (some (contentRangeHeader first last total)) = .ok (first, last, total) := by
  have hlast' : last ≤ maxPdfBytes := hlast.le.trans htotal
  rw [declaredRange, Option.getD_some, contentRangeDigits_header]
  simp only
  rw [intOfDigits_decimal (hfirst.trans hlast'), intOfDigits_decimal hlast', intOfDigits_decimal htotal]
  rfl

/-- What the rounds keep against a server with a file: what was read is the front of the file. -/
structure Reads (file : Bytes) (s : State) : Prop where
  payload : s.payload = file.take s.expectedStart
  start_le : s.expectedStart ≤ file.length
  unknown : s.totalSize = none → s.expectedStart = 0
  known : ∀ size, s.totalSize = some size → size = file.length

namespace Reads

variable {file : Bytes}

theorem start (file : Bytes) : Reads file {} where
  payload := List.take_zero.symm
  start_le := Nat.zero_le _
  unknown _ := rfl
  known := nofun

theorem expectedStart_lt (h : Reads file s) (hpositive : 0 < file.length) (hgoesOn : s.goesOn = true) :
    s.expectedStart < file.length := by
  cases htotal : s.totalSize with
  | none => exact (h.unknown htotal).trans_lt hpositive
  | some size =>
    rw [State.goesOn, htotal, Option.all_some, decide_eq_true_eq] at hgoesOn
    exact hgoesOn.trans_eq (h.known size htotal)

/-- Each round reads on in the file. -/
theorem round (hserves : Serves server url file) (hpositive : 0 < file.length) (hlimit : file.length ≤ maxPdfBytes)
    (h : Reads file s) (hgoesOn : s.goesOn = true) :
    Meets (fun _ s' => Reads file s' ∧ s'.remaining < s.remaining) (fun _ _ => False)
      ((fetchRange server url).outcome s) := by
  have hstart := h.expectedStart_lt hpositive hgoesOn
  have hchunk : 0 < rangeChunkBytes := by decide
  have hend : s.expectedStart ≤ s.expectedEnd := by
    unfold State.expectedEnd
    omega
  have hlast : s.expectedEnd < maxPdfBytes := by
    unfold State.expectedEnd
    omega
  obtain ⟨response, sent, hserver, hne, hfront, hurl, hstatus, hheader, hbody⟩ :=
    hserves s.requests.length s.expectedStart s.expectedEnd hstart hend hlast
  have hsent : sent <+: file.drop s.expectedStart := by
    rw [List.drop_take] at hfront
    exact hfront.trans (List.take_prefix _ _)
  have hnonempty : 0 < sent.length := List.length_pos_of_ne_nil hne
  have hlength : sent.length ≤ file.length - s.expectedStart := by
    rw [← List.length_drop]
    exact hsent.length_le
  have hfirst : s.expectedStart ≤ s.expectedStart + sent.length - 1 := by omega
  have hinside : s.expectedStart + sent.length - 1 < file.length := by omega
  let part : Part :=
    { first := s.expectedStart
      last := s.expectedStart + sent.length - 1
      total := file.length
      body := sent
      first_le_last := hfirst
      last_lt_total := hinside
      total_le := hlimit
      length_body := by omega }
  have hdelivers : Delivers url response part :=
    ⟨hurl, hstatus, hheader ▸ declaredRange_header hfirst hinside hlimit, hbody⟩
  have hread : readPart url s.expectedStart s.totalSize response = .ok part :=
    readPart_of_delivers hdelivers rfl fun size hsize => (h.known size hsize).symm
  have hnext : part.last + 1 = s.expectedStart + sent.length := by
    change s.expectedStart + sent.length - 1 + 1 = _
    omega
  rw [outcome_fetchRange_of_part hserver hread]
  constructor
  · constructor
    case payload =>
      have hbytes : sent = (file.drop s.expectedStart).take sent.length := List.prefix_iff_eq_take.mp hsent
      change s.payload ++ sent = file.take (part.last + 1)
      rw [hnext, List.take_add, ← hbytes, h.payload]
    case start_le =>
      change part.last + 1 ≤ file.length
      omega
    case unknown => exact nofun
    case known =>
      rintro size ⟨⟩
      rfl
  · change maxPdfBytes - (part.last + 1) < maxPdfBytes - s.expectedStart
    omega

/-- A loop that stops has read the file. -/
theorem payload_eq (h : Reads file s) (hstopped : s.goesOn = false) : s.payload = file := by
  cases htotal : s.totalSize with
  | none =>
    rw [State.goesOn, htotal] at hstopped
    cases hstopped
  | some size =>
    rw [State.goesOn, htotal, Option.all_some, decide_eq_false_iff_not, h.known size htotal, not_lt] at hstopped
    rw [h.payload]
    exact List.take_of_length_le hstopped

end Reads

/-! ## The download -/

/-- Against any server the download ends with at most as many requests as the limit has bytes, each for a range within
it that is not empty, and raises or returns a payload that is put together from the answers. Against a server with a
file it returns the file. -/
theorem ranged_download (server : Server) (url : Str) :
    (∃ result s, (∀ rounds, maxPdfBytes ≤ rounds → readStaticPdfRanges server url rounds = some (result, s)) ∧
      s.requests.length ≤ maxPdfBytes ∧ (∀ request ∈ s.requests, WithinLimit url request) ∧
      ∀ payload contentType, result = .ok (payload, contentType) →
        ∃ parts total, PutTogether server url s.requests parts total payload) ∧
    ∀ file : Bytes, 0 < file.length → file.length ≤ maxPdfBytes → Serves server url file →
      ∃ contentType s, ∀ rounds, maxPdfBytes ≤ rounds →
        readStaticPdfRanges server url rounds = some (.ok (file, contentType), s) := by
  constructor
  · obtain ⟨⟨e | _, s⟩, hloop, hmeets⟩ := exists_download server url
    · refine ⟨.error e, s, fun rounds hrounds => ?_, hmeets.count, hmeets.within, nofun⟩
      rw [readStaticPdfRanges, hloop rounds hrounds]
      rfl
    · obtain ⟨⟨parts, hassembled⟩, hstopped⟩ := hmeets
      have hbounded := hassembled.bounded hstopped
      refine ⟨.ok (s.payload, s.contentType), s, fun rounds hrounds => ?_, hbounded.count, hbounded.within, ?_⟩
      · rw [readStaticPdfRanges, hloop rounds hrounds]
        rfl
      · rintro payload contentType ⟨⟩
        exact ⟨parts, hassembled.putTogether hstopped⟩
  · intro file hpositive hlimit hserves
    have hremaining : ∀ s, Reads file s → s.goesOn = true → 0 < s.remaining := fun s h hgoesOn =>
      Nat.sub_pos_of_lt ((h.expectedStart_lt hpositive hgoesOn).trans_le hlimit)
    have hround := fun s (h : Reads file s) hgoesOn => h.round hserves hpositive hlimit hgoesOn
    obtain ⟨⟨e | _, s⟩, hloop, hmeets⟩ := exists_loop hremaining hround (Reads.start file)
    · exact hmeets.elim
    · obtain ⟨hreads, hstopped⟩ := hmeets
      refine ⟨s.contentType, s, fun rounds hrounds => ?_⟩
      rw [readStaticPdfRanges, hloop rounds hrounds, Option.map_some, ← hreads.payload_eq hstopped]
      rfl

/-- A server that sends one byte of a file of two at a time. -/
def bytewise (url : Str) : Server := fun _ request =>
  let second := !startsWith (lit "bytes=0-") request.range
  .ok {
    url
    status := 206
    contentRange := some (if second then lit "bytes 1-1/2" else lit "bytes 0-0/2")
    contentType := lit "application/pdf"
    body := .ok [if second then 0x50 else 0x25] }

theorem bytewise_serves (url : Str) : Serves (bytewise url) url [0x25, 0x50] := by
  intro n first last hfirst hle _
  have hcases : first = 0 ∨ first = 1 := by
    change first < 2 at hfirst
    omega
  obtain rfl | rfl := hcases
  · refine ⟨_, [0x25], rfl, List.cons_ne_nil _ _, ?_, rfl, rfl, ?_, ?_⟩
    · exact ⟨_, rfl⟩
    · rfl
    · rfl
  · refine ⟨_, [0x50], rfl, List.cons_ne_nil _ _, ?_, rfl, rfl, ?_, ?_⟩
    · obtain ⟨k, rfl⟩ : ∃ k, last = k + 1 := Nat.exists_eq_add_one.mpr hle
      exact ⟨_, rfl⟩
    · rfl
    · rfl

/-- A file of two bytes is read from the server that sends it byte by byte. -/
theorem ranged_download_bytewise :
    ∃ contentType s, ∀ rounds, maxPdfBytes ≤ rounds →
      readStaticPdfRanges (bytewise (lit "https://f1000research-files.f1000.com/a.pdf"))
        (lit "https://f1000research-files.f1000.com/a.pdf") rounds = some (.ok ([0x25, 0x50], contentType), s) :=
  (ranged_download _ _).2 [0x25, 0x50] (by decide) (by decide) (bytewise_serves _)

end NeuroLab.Research.RangedDownload
