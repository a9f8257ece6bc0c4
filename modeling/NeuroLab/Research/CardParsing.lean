import NeuroLab.Research.Records

/-!
# Document cards as a model writes them

`parse_document_card` reads the answer of the model: one JSON object with exactly the
expected members, perhaps in a Markdown fence, whose findings lie on pages of the document.
What it refuses is a `DocumentCardError`; some answers make the interpreter raise something
else.
-/

namespace NeuroLab.Research

open Python

/-- What reading a card raises: a `DocumentCardError`, or another exception. -/
inductive CardRaised
  | card (message : Str)
  | uncaught (exc : PyExc)
deriving DecidableEq

variable {py : Interpreter}

/-! ## Members of an object -/

/-- Whether the members of an object are exactly the expected ones. -/
def hasExactly (expected : List Str) (fields : Fields) : Bool :=
  fields.all (fun field => field.1 ∈ expected) && expected.all (· ∈ fields.map Prod.fst)

/-- `str.strip`. -/
def stripSpace (s : Str) : Str := strip isSpace s

/-- `_strict_json`. -/
def strictJson (py : Interpreter) (raw : Str) (expected : List Str) : Except CardRaised Fields :=
  let candidate := stripSpace raw
  let candidate :=
    if startsWith (lit "```json\n") candidate && (lit "\n```").isSuffixOf candidate then
      stripSpace ((candidate.take (candidate.length - 4)).drop 8)
    else candidate
  match Python.loads py.recursionLimit candidate with
  | .error .valueError => .error (.card (lit "model did not return JSON"))
  | .error .digitLimit => .error (.uncaught (.value (lit "ValueError")))
  | .error .recursionError => .error (.uncaught .recursion)
  | .ok (.obj fields) =>
    if hasExactly expected fields then .ok fields
    else .error (.card (lit "model JSON keys do not match the contract"))
  | .ok _ => .error (.card (lit "model JSON keys do not match the contract"))

/-- `_string`. -/
def stringMember (value : Fields) (key : Str) : Except CardRaised Str :=
  match get? value key with
  | some (.str s) => .ok s
  | _ => .error (.card (key ++ lit " is malformed"))

/-- The texts of a list of texts. -/
def textsOf : List Json → Option (List Str)
  | [] => some []
  | .str s :: items => (textsOf items).map (s :: ·)
  | _ :: _ => none

/-- `_short_strings`. -/
def shortStrings (value : Fields) (key : Str) (maximum : ℕ) : Except CardRaised (List Str) :=
  match get? value key with
  | some (.arr items) =>
    match textsOf items with
    | some texts => if texts.length ≤ maximum then .ok texts else .error (.card (key ++ lit " are malformed"))
    | none => .error (.card (key ++ lit " are malformed"))
  | _ => .error (.card (key ++ lit " are malformed"))

/-- `_enum_strings`. -/
def enumStrings (value : Fields) (key : Str) (allowed : List Str) (maximum : ℕ) (nonempty : Bool) :
    Except CardRaised (List Str) := do
  let items ← shortStrings value key maximum
  if (nonempty && items.isEmpty) || !items.all (· ∈ allowed) || !decide items.Nodup then
    .error (.card (key ++ lit " are malformed"))
  else .ok items

/-- The least magnitude that no double can hold. -/
def floatOverflow : ℕ := 2 ^ 1024 - 2 ^ 970

/-- `_score`. -/
def scoreMember (value : Fields) (key : Str) : Except CardRaised (Option PyFloat) :=
  match get? value key with
  | none => .ok none
  | some .null => .ok none
  | some (.int n) =>
    if floatOverflow ≤ n.natAbs then .error (.uncaught (.other (lit "OverflowError")))
    else .ok (some (.finite (n < 0) n.natAbs 0))
  | some (.float x) => .ok (some x)
  | some _ => .error (.card (key ++ lit " is malformed"))

/-- `_page_number`. -/
def pageNumber (value : Option Json) : Except CardRaised ℤ :=
  match value with
  | some (.int n) => if 1 ≤ n ∧ n ≤ 100 then .ok n else .error (.card (lit "finding page is malformed"))
  | _ => .error (.card (lit "finding page is malformed"))

/-! ## Findings and cards -/

/-- One finding of the answer, as its constructor accepts it. -/
def parseFinding (pageCount : ℤ) (finding : Json) :
    Except CardRaised { finding : CardFinding // require finding.checks = .ok () } :=
  match finding with
  | .obj fields =>
    if hasExactly [lit "page_start", lit "page_end", lit "kind", lit "summary"] fields then do
      let pageStart ← pageNumber (get? fields (lit "page_start"))
      let pageEnd ← pageNumber (get? fields (lit "page_end"))
      if pageCount < pageEnd then .error (.card (lit "card finding exceeds document pages"))
      else
        let kind ← stringMember fields (lit "kind")
        let summary ← stringMember fields (lit "summary")
        let finding : CardFinding := { pageStart, pageEnd, kind, summary }
        match h : require finding.checks with
        | .ok () => .ok ⟨finding, h⟩
        | .error message => .error (.card message)
    else .error (.card (lit "card finding shape is malformed"))
  | _ => .error (.card (lit "card finding shape is malformed"))

/-- The constructor of a card over accepted findings. -/
def DocumentCard.make (py : Interpreter) (fields : DocumentCardFields)
    (accepted : ∀ finding ∈ fields.findings, require finding.checks = .ok ()) : Except CardRaised (DocumentCard py) :=
  match h : require (fields.checks py) with
  | .error message => .error (.card message)
  | .ok () =>
    if hencodable : (utf8 (fields.asJson py)).isSome then .ok ⟨fields, accepted, h, hencodable⟩
    else .error (.uncaught (.value (lit "UnicodeEncodeError")))

/-- The members of the answer. -/
def cardMembers : List Str :=
  [lit "document_summary", lit "research_problem", lit "method", lit "architecture_layers",
    lit "implementation_signals", lit "evaluation_signals", lit "limitations", lit "findings",
    lit "conceptual_support", lit "empirical_support", lit "reproducibility", lit "feasibility_now",
    lit "source_independence", lit "uncertainty"]

/-- `parse_document_card`. -/
def parseDocumentCard (py : Interpreter) (raw sourceKey documentId documentSha256 : Str) (pageCount : ℤ) :
    Except CardRaised (DocumentCard py) := do
  let value ← strictJson py raw cardMembers
  match get? value (lit "findings") with
  | some (.arr items) =>
    if 1 ≤ items.length ∧ items.length ≤ 20 then
      let findings ← items.mapM (parseFinding pageCount)
      let documentSummary ← stringMember value (lit "document_summary")
      let researchProblem ← stringMember value (lit "research_problem")
      let method ← stringMember value (lit "method")
      let architectureLayers ← enumStrings value (lit "architecture_layers") (layers.map (·.name)) 4 true
      let implementationSignals ← shortStrings value (lit "implementation_signals") 8
      let evaluationSignals ← shortStrings value (lit "evaluation_signals") 8
      let limitations ← shortStrings value (lit "limitations") 8
      let conceptualSupport ← scoreMember value (lit "conceptual_support")
      let empiricalSupport ← scoreMember value (lit "empirical_support")
      let reproducibility ← scoreMember value (lit "reproducibility")
      let feasibilityNow ← scoreMember value (lit "feasibility_now")
      let sourceIndependence ← scoreMember value (lit "source_independence")
      let uncertainty ← stringMember value (lit "uncertainty")
      DocumentCard.make py
        { sourceKey, documentId, documentSha256, documentSummary, researchProblem, method, architectureLayers,
          implementationSignals, evaluationSignals, limitations, findings := findings.map Subtype.val,
          conceptualSupport, empiricalSupport, reproducibility, feasibilityNow, sourceIndependence, uncertainty,
          reviewerStatus := lit "needs_review", cardVersion := lit "document-card-v1" }
        fun finding hfinding => by
          obtain ⟨accepted, -, rfl⟩ := List.mem_map.mp hfinding
          exact accepted.property
    else .error (.card (lit "card findings are malformed"))
  | _ => .error (.card (lit "card findings are malformed"))

/-! ## What an accepted card says -/

/-- An accepted finding lies on pages of the document. -/
theorem parseFinding_eq_ok {pageCount : ℤ} {v : Json}
    {finding : { finding : CardFinding // require finding.checks = .ok () }} (h : parseFinding pageCount v = .ok finding) :
    1 ≤ finding.val.pageStart ∧ finding.val.pageStart ≤ finding.val.pageEnd ∧ finding.val.pageEnd ≤ pageCount := by
  have hordered : 1 ≤ finding.val.pageStart ∧ finding.val.pageStart ≤ finding.val.pageEnd := by
    have hchecks := (require_eq_ok_iff _).mp finding.property
    simp only [CardFinding.checks, List.forall_mem_cons, pagesOrdered, Bool.and_eq_true, decide_eq_true_eq] at hchecks
    exact hchecks.1.1
  refine ⟨hordered.1, hordered.2, ?_⟩
  unfold parseFinding at h
  split at h
  · next fields =>
    split at h
    · obtain ⟨pageStart, -, h⟩ := bind_eq_ok_iff.mp h
      obtain ⟨pageEnd, -, h⟩ := bind_eq_ok_iff.mp h
      split at h
      · cases h
      · next hpages =>
        obtain ⟨kind, -, h⟩ := bind_eq_ok_iff.mp h
        obtain ⟨summary, -, h⟩ := bind_eq_ok_iff.mp h
        dsimp only at h
        split at h
        · cases h
          exact not_lt.mp hpages
        · cases h
    · cases h
  · cases h

/-- The constructor keeps its fields. -/
theorem DocumentCard.make_eq_ok {fields : DocumentCardFields}
    {accepted : ∀ finding ∈ fields.findings, require finding.checks = .ok ()} {card : DocumentCard py}
    (h : DocumentCard.make py fields accepted = .ok card) : card.toDocumentCardFields = fields := by
  unfold DocumentCard.make at h
  split at h
  · cases h
  · split at h
    · cases h
      rfl
    · cases h

/-- The findings of a card that was read lie on pages of the document. -/
theorem findings_of_parseDocumentCard {raw sourceKey documentId documentSha256 : Str} {pageCount : ℤ}
    {card : DocumentCard py} (h : parseDocumentCard py raw sourceKey documentId documentSha256 pageCount = .ok card) :
    ∀ finding ∈ card.findings,
      1 ≤ finding.pageStart ∧ finding.pageStart ≤ finding.pageEnd ∧ finding.pageEnd ≤ pageCount := by
  obtain ⟨value, -, h⟩ := bind_eq_ok_iff.mp h
  split at h
  · split at h
    · obtain ⟨findings, hfindings, h⟩ := bind_eq_ok_iff.mp h
      iterate 13 obtain ⟨_, -, h⟩ := bind_eq_ok_iff.mp h
      intro finding hfinding
      rw [DocumentCard.make_eq_ok h] at hfinding
      obtain ⟨accepted, haccepted, rfl⟩ := List.mem_map.mp hfinding
      obtain ⟨_, -, hparsed⟩ := exists_of_mapM_ok hfindings accepted haccepted
      exact parseFinding_eq_ok hparsed
    · cases h
  · cases h

end NeuroLab.Research
