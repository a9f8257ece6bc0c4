import NeuroLab.Postgres.Jsonb
import NeuroLab.Research.Cards
import NeuroLab.Research.FullText
import NeuroLab.Research.ModelOutput

/-!
# What fits the schema

Limits and patterns are written twice, in the constructors and in the CHECK constraints of the
tables. For receipts and cards: exactly which of those that the program accepts the tables take, and
that one they take is stored where what it refers to is.
-/

namespace NeuroLab.Research

open Python Common Postgres
open RangedDownload (Bytes maxPdfBytes)

variable {py : Interpreter} {server : Server}

/-! ## Receipts of full texts -/

/-- A receipt passes the constraints of `documents`, and is stored for every known source. -/
structure DocumentFits (receipt : FullTextReceipt) : Prop where
  row : ∀ id now, ∃ row, newDocument id now receipt = some row
  stored : ∀ id now db, (db.sources.find? receipt.sourceKey).isSome = true → db.documents.find? id = none →
    ∃ text, (persistFulltextReceipt id now receipt db).2 = .ok text

/-- A receipt is within the limits that both sides share. -/
structure WithinLimits (receipt : FullTextReceipt) : Prop where
  sourceKey : isDigest receipt.sourceKey = true
  provider : (DocumentProvider.ofName receipt.provider).isSome = true
  license : (License.ofName receipt.licenseId).isSome = true
  pdfSha256 : isDigest receipt.sha256 = true
  textSha256 : isDigest receipt.extractedTextSha256 = true
  bytes : 0 < receipt.byteCount ∧ receipt.byteCount ≤ 26214400
  pages : 0 ≤ receipt.pageCount ∧ receipt.pageCount ≤ 100
  characters : 0 ≤ receipt.extractedCharacterCount ∧ receipt.extractedCharacterCount ≤ 1000000
  status : receipt.extractionStatus = lit "extracted_untrusted"

namespace WithinLimits

variable {receipt : FullTextReceipt}

/-- The address decides. -/
theorem newDocument_eq (h : WithinLimits receipt) (id : Uuid) (now : ℕ) :
    ∃ row : DocumentRow, row.id = id ∧ row.sourceKey = receipt.sourceKey ∧
      newDocument id now receipt =
        if storable receipt.documentUrl && isDocumentUrl receipt.documentUrl then some row else none := by
  obtain ⟨provider, hprovider⟩ := Option.isSome_iff_exists.mp h.provider
  obtain ⟨license, hlicense⟩ := Option.isSome_iff_exists.mp h.license
  have hstatus : text receipt.extractionStatus = some (lit "extracted_untrusted") := by
    rw [h.status]
    decide
  refine ⟨⟨id, receipt.sourceKey, provider, receipt.documentUrl, license, receipt.sha256, receipt.byteCount,
    receipt.pageCount, receipt.extractedTextSha256, receipt.extractedCharacterCount, lit "extracted_untrusted", now⟩,
    rfl, rfl, ?_⟩
  simp only [newDocument, char64_of_isDigest h.sourceKey, hprovider, hlicense, char64_of_isDigest h.pdfSha256,
    char64_of_isDigest h.textSha256, hstatus, Option.bind_eq_bind, Option.bind_some]
  cases hstorable : storable receipt.documentUrl with
  | false =>
    have htext : text receipt.documentUrl = none := if_neg (by simp [hstorable])
    rw [htext]
    rfl
  | true =>
    have htext : text receipt.documentUrl = some receipt.documentUrl := if_pos hstorable
    rw [htext]
    simp [DocumentRow.check, h.bytes, h.pages, h.characters]

/-- A receipt within the limits fits exactly if its address passes its CHECK. -/
theorem documentFits_iff (h : WithinLimits receipt) :
    DocumentFits receipt ↔ storable receipt.documentUrl = true ∧ isDocumentUrl receipt.documentUrl = true := by
  rw [← Bool.and_eq_true]
  constructor
  · intro hfits
    obtain ⟨row, hrow⟩ := hfits.row 0 0
    obtain ⟨row', -, -, heq⟩ := h.newDocument_eq 0 0
    by_contra hurl
    rw [heq, if_neg hurl] at hrow
    cases hrow
  · intro hurl
    constructor
    · intro id now
      obtain ⟨row, -, -, heq⟩ := h.newDocument_eq id now
      exact ⟨row, heq.trans (if_pos hurl)⟩
    · intro id now db hsource hfree
      obtain ⟨row, hid, hkey, heq⟩ := h.newDocument_eq id now
      obtain ⟨source, hsource⟩ := Option.isSome_iff_exists.mp hsource
      rw [← hkey] at hsource
      rw [← hid] at hfree
      obtain ⟨documents, r, hupsert⟩ := db.documents.exists_upsert (fun _ => true)
        (fun r => { r with acquiredAt := now, extractionStatus := row.extractionStatus }) (fun _ => rfl) (fun _ => rfl)
        hfree fun _ _ => rfl
      refine ⟨uuidText r.id, transaction_returns_iff.mpr ⟨{ db with documents }, ?_⟩⟩
      refine bind_eq_ok_iff.mpr ⟨row, statement_eq_ok_iff.mpr (heq.trans (if_pos hurl)), ?_⟩
      refine bind_eq_ok_iff.mpr ⟨source, statement_eq_ok_iff.mpr hsource, ?_⟩
      exact bind_eq_ok_iff.mpr ⟨(documents, some r), statement_eq_ok_iff.mpr hupsert, rfl⟩

end WithinLimits

/-! ## Receipts that the verifiers return -/

theorem refuseWhen_eq_ok_iff {refused : Bool} {message : Str} {u : Unit} :
    refuseWhen refused message = .ok u ↔ refused = false := by
  cases refused <;> simp [refuseWhen]

/-- What passes the checks of a verifier is within its limits. -/
theorem examine_eq_ok {errors : VerifierErrors} {contentTypes : List Str} {reader : PdfReader} {contentType text : Str}
    {payload : Bytes} {pageCount : ℕ}
    (h : examine errors contentTypes reader contentType payload = .ok (pageCount, text)) :
    (0 < payload.length ∧ payload.length ≤ 26214400) ∧ pageCount ≤ 100 ∧ text.length ≤ 1000000 := by
  unfold examine at h
  obtain ⟨_, -, h⟩ := bind_eq_ok_iff.mp h
  obtain ⟨_, hsignature, h⟩ := bind_eq_ok_iff.mp h
  obtain ⟨_, hsize, h⟩ := bind_eq_ok_iff.mp h
  obtain ⟨pages, -, h⟩ := bind_eq_ok_iff.mp h
  obtain ⟨_, hpages, h⟩ := bind_eq_ok_iff.mp h
  obtain ⟨text', -, h⟩ := bind_eq_ok_iff.mp h
  obtain ⟨_, htext, h⟩ := bind_eq_ok_iff.mp h
  cases h
  rw [refuseWhen_eq_ok_iff] at hsignature hsize hpages htext
  simp only [Bool.not_eq_false', List.isPrefixOf_iff_prefix] at hsignature
  simp only [decide_eq_false_iff_not, not_lt] at hsize hpages htext
  have hprefix : pdfSignature.length ≤ payload.length := hsignature.length_le
  have hfive : pdfSignature.length = 5 := rfl
  have hlimit : maxPdfBytes = 26214400 := rfl
  exact ⟨⟨by omega, by omega⟩, hpages, htext⟩

/-- The receipt of what was examined is within the limits. -/
theorem withinLimits_of_receiptOf {errors : VerifierErrors} {contentTypes : List Str} {reader : PdfReader}
    {contentType text sourceKey provider documentUrl licenseId : Str} {payload : Bytes} {pageCount : ℕ}
    {receipt : FullTextReceipt}
    (hexamined : examine errors contentTypes reader contentType payload = .ok (pageCount, text))
    (h : receiptOf sourceKey provider documentUrl licenseId payload pageCount text = .ok receipt)
    (hkey : isDigest sourceKey = true) (hprovider : (DocumentProvider.ofName provider).isSome = true)
    (hlicense : (License.ofName licenseId).isSome = true) :
    WithinLimits receipt ∧ receipt.documentUrl = documentUrl := by
  obtain ⟨hbytes, hpages, hcharacters⟩ := examine_eq_ok hexamined
  unfold receiptOf at h
  split at h
  · cases h
  · cases h
    refine ⟨?_, rfl⟩
    constructor
    case sourceKey => exact hkey
    case provider => exact hprovider
    case license => exact hlicense
    case pdfSha256 => exact isDigest_sha256 _
    case textSha256 => exact isDigest_sha256 _
    case bytes =>
      have hbounds : 0 < (payload.length : ℤ) ∧ (payload.length : ℤ) ≤ 26214400 := by omega
      exact hbounds
    case pages =>
      have hbounds : 0 ≤ (pageCount : ℤ) ∧ (pageCount : ℤ) ≤ 100 := by omega
      exact hbounds
    case characters =>
      have hbounds : 0 ≤ (text.length : ℤ) ∧ (text.length : ℤ) ≤ 1000000 := by omega
      exact hbounds
    case status => rfl

/-- A decimal digit of any script can be stored. -/
theorem storable_of_isDecimal {c : ℕ} (h : isDecimal c = true) : storable [c] = true := by
  have hzeros : ∀ z ∈ decimalZeros, 0 < z ∧ (z + 10 ≤ 0xD800 ∨ 0xE000 ≤ z) ∧ z + 10 ≤ 0x110000 := by decide
  simp only [storable, List.all_cons, List.all_nil, Bool.and_true, Bool.and_eq_true, Bool.not_eq_true',
    Bool.and_eq_false_iff, decide_eq_true_eq, decide_eq_false_iff_not, ne_eq]
  rw [isDecimal, Bool.or_eq_true] at h
  rcases h with h | h
  · simp only [isDigit, Bool.and_eq_true, decide_eq_true_eq] at h
    omega
  · obtain ⟨z, hz, hc⟩ := List.any_eq_true.mp h
    rw [Bool.and_eq_true, decide_eq_true_eq, decide_eq_true_eq] at hc
    have hrange := hzeros z hz
    omega

@[simp] theorem storable_append (s t : Str) : storable (s ++ t) = (storable s && storable t) := List.all_append

/-- An identifier on arXiv can be stored. -/
theorem storable_of_isArxivId {s : Str} (h : isArxivId s = true) : storable s = true := by
  have hrun : ∀ {run : Str}, (∀ c ∈ run, isDecimal c = true) → storable run = true := fun hrun =>
    List.all_eq_true.mpr fun c hc => by simpa [storable] using storable_of_isDecimal (hrun c hc)
  unfold isArxivId at h
  simp only [Option.bind_eq_bind] at h
  split at h
  · next hrest =>
    simp only [Option.bind_eq_some_iff, after?_eq_some_iff] at hrest
    obtain ⟨_, h₁, _, rfl, h₂⟩ := hrest
    obtain ⟨year, rfl, -, hyear⟩ := exists_of_dropRun h₁
    obtain ⟨number, rfl, -, hnumber⟩ := exists_of_dropRun h₂
    rw [storable_append, storable_append, storable_append, hrun hyear, hrun hnumber]
    rfl
  · next version hrest =>
    simp only [Option.bind_eq_some_iff, after?_eq_some_iff] at hrest
    obtain ⟨_, h₁, _, rfl, h₂⟩ := hrest
    obtain ⟨year, rfl, -, hyear⟩ := exists_of_dropRun h₁
    obtain ⟨number, rfl, -, hnumber⟩ := exists_of_dropRun h₂
    obtain ⟨digits, rfl, hdigits⟩ := exists_of_dropPlus (of_decide_eq_true h)
    rw [storable_append, storable_append, storable_append, hrun hyear, hrun hnumber, List.append_nil]
    change (storable [0x76] && storable digits) = true
    rw [hrun hdigits]
    rfl
  · cases h

variable {upper : Str → Str} {receipt : FullTextReceipt} {reader : PdfReader}

/-- Every receipt for arXiv fits, whatever the transport. -/
theorem documentFits_of_verifyOpenAccessPdf {transport : Str → Except VerifierError PdfResponse}
    {request : OpenAccessPdfRequest upper} (h : verifyOpenAccessPdf reader transport request = .ok receipt) :
    DocumentFits receipt := by
  have haccepted := (require_eq_ok_iff _).mp request.accepted
  simp only [OpenAccessPdfFields.checks, List.forall_mem_cons, decide_eq_true_eq] at haccepted
  obtain ⟨hkey, hid, hlicense, -⟩ := haccepted
  obtain ⟨response, -, h⟩ := bind_eq_ok_iff.mp h
  obtain ⟨⟨pageCount, text⟩, hexamined, h⟩ := bind_eq_ok_iff.mp h
  have hlicense : (License.ofName (upper request.licenseId)).isSome = true := by
    simp only [List.mem_cons, List.not_mem_nil, or_false] at hlicense
    rcases hlicense with hlicense | hlicense | hlicense <;> (rw [hlicense]; decide)
  obtain ⟨hlimits, hurl⟩ := withinLimits_of_receiptOf hexamined h hkey (by decide) hlicense
  have hfront : storable (lit "https://export.arxiv.org/pdf/") = true := by decide
  rw [hlimits.documentFits_iff, hurl, OpenAccessPdfFields.url, storable_append, hfront, storable_of_isArxivId hid]
  refine ⟨rfl, ?_⟩
  have hstart : startsWith (lit "https://export.arxiv.org/pdf/")
      (lit "https://export.arxiv.org/pdf/" ++ request.arxivId) = true :=
    Option.isSome_of_mem (after?_eq_some_iff.mpr rfl)
  rw [isDocumentUrl, hstart, Bool.or_true, Bool.true_or]

/-- The address of a receipt for the publisher is the path of the redirect on the publisher's file host. -/
theorem exists_location_of_transport {checks : UrlChecks} {route : Str → RouteAnswer} {download : RangedDownload.Server}
    {rounds : ℕ} {url : Str} {response : PublisherPdfResponse}
    (h : defaultF1000PdfTransport checks route download rounds url = some (.ok response)) :
    ∃ code location, route url = .httpError code (some location) ∧ isStaticPath (urlPath location).path = true ∧
      response.documentUrl = lit "https://f1000research-files.f1000.com" ++ (urlPath location).path := by
  unfold defaultF1000PdfTransport at h
  simp only at h
  split at h
  · cases h
  next documentUrl htarget =>
  obtain ⟨_, -, htarget⟩ := bind_eq_ok_iff.mp htarget
  obtain ⟨location, hredirect, hstable⟩ := bind_eq_ok_iff.mp htarget
  obtain ⟨code, hroute⟩ : ∃ code, route url = .httpError code (some location) := by
    unfold redirectOf at hredirect
    split at hredirect
    · cases hredirect
    · cases hredirect
    · cases hredirect
    · next code found hroute =>
      split at hredirect
      · cases hredirect
      · split at hredirect
        · cases hredirect
        · cases hredirect
          exact ⟨code, hroute⟩
  obtain ⟨_, hallowed, hurl⟩ := bind_eq_ok_iff.mp hstable
  cases hurl
  have hpath : isStaticPath (urlPath location).path = true := by
    unfold requireAllowlisted at hallowed
    split at hallowed
    · cases hallowed
    · next allowed hallow =>
      rw [refuseWhen_eq_ok_iff, Bool.not_eq_false'] at hallowed
      subst hallowed
      unfold allowlisted at hallow
      split at hallow
      · cases hallow
      · split at hallow
        · cases hallow
        · split at hallow
          · cases hallow
          · simp only [Except.ok.injEq, Bool.and_eq_true] at hallow
            exact hallow.2.1
  obtain ⟨⟨result, s⟩, -, hresponse⟩ := Option.map_eq_some_iff.mp h
  refine ⟨code, location, hroute, hpath, ?_⟩
  cases result with
  | error e => cases hresponse
  | ok read =>
    cases hresponse
    rfl

/-- A receipt for the publisher fits exactly if the path of the redirect is of ASCII characters without capitals. -/
theorem exists_location_documentFits_iff {checks : UrlChecks} {route : Str → RouteAnswer}
    {download : RangedDownload.Server} {rounds : ℕ} {request : F1000OpenAccessPdfRequest upper}
    (h : verifyF1000OpenAccessPdf reader (defaultF1000PdfTransport checks route download rounds) request =
      some (.ok receipt)) :
    ∃ code location, route request.publisherUrl = .httpError code (some location) ∧
      (DocumentFits receipt ↔ LowerAscii (urlPath location).path) := by
  have haccepted := (require_eq_ok_iff _).mp request.accepted
  simp only [F1000OpenAccessPdfFields.checks, List.forall_mem_cons] at haccepted
  obtain ⟨fetched, hfetched, h⟩ := Option.map_eq_some_iff.mp h
  obtain ⟨response, hresponse, h⟩ := bind_eq_ok_iff.mp h
  obtain ⟨⟨pageCount, text⟩, hexamined, h⟩ := bind_eq_ok_iff.mp h
  obtain ⟨hlimits, hurl⟩ := withinLimits_of_receiptOf hexamined h haccepted.1 (by decide) (by decide)
  rw [hresponse] at hfetched
  obtain ⟨code, location, hroute, hpath, hdocumentUrl⟩ := exists_location_of_transport hfetched
  refine ⟨code, location, hroute, ?_⟩
  have hnotArxiv : isDocumentUrl receipt.documentUrl = isF1000Pdf receipt.documentUrl := by
    have hfirst : startsWith (lit "https://arxiv.org/pdf/") receipt.documentUrl = false := by
      rw [hurl, hdocumentUrl]
      rfl
    have hsecond : startsWith (lit "https://export.arxiv.org/pdf/") receipt.documentUrl = false := by
      rw [hurl, hdocumentUrl]
      rfl
    rw [isDocumentUrl, hfirst, hsecond, Bool.false_or, Bool.false_or]
  have hstorable : isF1000Pdf receipt.documentUrl = true → storable receipt.documentUrl = true := by
    refine fun hpdf => List.all_eq_true.mpr fun c hc => ?_
    have hprinted := forall_mem_of_isF1000Pdf hpdf c hc
    simp only [ne_eq, Bool.and_eq_true, Bool.not_eq_true', Bool.and_eq_false_iff, decide_eq_true_eq,
      decide_eq_false_iff_not]
    omega
  rw [hlimits.documentFits_iff, hnotArxiv, and_iff_right_of_imp hstorable, hurl, hdocumentUrl,
    isF1000Pdf_static_iff hpath]

/-! ## The shape of a card -/

@[simp] theorem jsonbShaped_strings (values : List Str) : jsonbShaped (strings values) = true := by
  change jsonbShapedItems (values.map .str) = true
  induction values with
  | nil => rfl
  | cons s values ih => simpa [jsonbShapedItems, jsonbShaped] using ih

@[simp] theorem depth_strings_le (values : List Str) : (strings values).depth ≤ 1 := by
  change Json.depthItems (values.map .str) + 1 ≤ 1
  induction values with
  | nil => rfl
  | cons s values ih => simpa [Json.depthItems, Json.depth] using ih

@[simp] theorem floats_strings (values : List Str) : (strings values).floats = [] := by
  change Json.floatsItems (values.map .str) = []
  induction values with
  | nil => rfl
  | cons s values ih => simpa [Json.floatsItems, Json.floats] using ih

@[simp] theorem depth_scoreJson (score : Option PyFloat) : (scoreJson score).depth = 0 := by cases score <;> rfl

/-- A score within the unit interval is finite. -/
theorem jsonbShaped_scoreJson {score : Option PyFloat} (h : score.all scoreInUnit = true) :
    jsonbShaped (scoreJson score) = true := by
  cases score with
  | none => rfl
  | some x =>
    cases x with
    | finite => rfl
    | infinite => cases h
    | nan => cases h

theorem shaped_findings (findings : List CardFinding) :
    jsonbShapedItems (findings.map CardFinding.asdict) = true ∧ Json.depthItems (findings.map CardFinding.asdict) ≤ 1 := by
  induction findings with
  | nil => exact ⟨rfl, Nat.zero_le _⟩
  | cons finding findings ih =>
    constructor
    · rw [List.map_cons, jsonbShapedItems, ih.1, Bool.and_true]
      simp only [CardFinding.asdict, jsonbShaped, jsonbShapedFields, List.map_cons, List.map_nil]
      decide +kernel
    · exact max_le (by simp [CardFinding.asdict, Json.depth, Json.depthFields]) ih.2

/-- A document card is of the shape that `jsonb` keeps. -/
theorem DocumentCard.shaped (card : DocumentCard py) :
    jsonbShaped (.obj card.asdict) = true ∧ (Json.obj card.asdict).depth ≤ 64 := by
  have haccepted := (require_eq_ok_iff _).mp card.accepted
  simp only [DocumentCardFields.checks, List.forall_mem_cons, List.all_cons, List.all_nil, Bool.and_true,
    Bool.and_eq_true] at haccepted
  obtain ⟨-, -, -, -, -, -, -, -, -, -, -, -, ⟨h₁, h₂, h₃, h₄, h₅⟩, -⟩ := haccepted
  obtain ⟨hfindings, hdepth⟩ := shaped_findings card.findings
  constructor
  · rw [jsonbShaped, decide_eq_true card.asdict_names.1, Bool.true_and]
    simp [DocumentCardFields.asdict, jsonbShapedFields, jsonbShaped, hfindings, jsonbShaped_scoreJson h₁,
      jsonbShaped_scoreJson h₂, jsonbShaped_scoreJson h₃, jsonbShaped_scoreJson h₄, jsonbShaped_scoreJson h₅]
  · have hlines := depth_strings_le
    simp only [Json.depth, DocumentCardFields.asdict, Json.depthFields, depth_scoreJson]
    have h₆ := hlines card.architectureLayers
    have h₇ := hlines card.implementationSignals
    have h₈ := hlines card.evaluationSignals
    have h₉ := hlines card.limitations
    omega

/-- A diagram card is of the shape that `jsonb` keeps, and has no floats. -/
theorem DiagramCardFields.shaped (card : DiagramCardFields) :
    jsonbShaped (.obj card.asdict) = true ∧ (Json.obj card.asdict).depth ≤ 64 ∧ (Json.obj card.asdict).floats = [] := by
  refine ⟨?_, ?_, ?_⟩
  · rw [jsonbShaped, decide_eq_true card.asdict_names.1, Bool.true_and]
    simp [asdict, jsonbShapedFields, jsonbShaped]
  · have hlines := depth_strings_le
    simp only [Json.depth, asdict, Json.depthFields]
    have h₁ := hlines card.components
    have h₂ := hlines card.connections
    have h₃ := hlines card.feedbackOrControl
    have h₄ := hlines card.limitations
    omega
  · simp [Json.floats, asdict, Json.floatsFields]

/-! ## Cards -/

/-- `jsonb_typeof(card) = 'object'`, within a number of octets. -/
theorem isCardObject_iff {most : ℕ} {v : Json} :
    isCardObject server most v = true ↔ ∃ fields, v = .obj fields ∧ server.octets (.obj fields) ≤ most := by
  cases v <;> simp [isCardObject]

/-- What `jsonb` stores passes the CHECK of a card. -/
theorem exists_isCardObject_iff {most : ℕ} {v : Json} :
    (∃ w, server.jsonb v = some w ∧ isCardObject server most w = true) ↔
      ∃ fields, server.jsonb v = some (.obj fields) ∧ server.octets (.obj fields) ≤ most := by
  simp only [isCardObject_iff]
  constructor
  · rintro ⟨w, hw, fields, rfl, hlength⟩
    exact ⟨fields, hw, hlength⟩
  · rintro ⟨fields, hw, hlength⟩
    exact ⟨.obj fields, hw, fields, rfl, hlength⟩

/-- A block that returns a row's id returns its text. -/
theorem returned_of_ok {refusal failed : String} {block : Block (Database × Option Uuid)} {db d : Database} {id : Uuid}
    (h : block = .ok (d, some id)) : (returned refusal (transaction db failed block)).2 = .ok (uuidText id) := by
  rw [transaction_of_ok h]
  rfl

/-- A document card passes the constraints of `document_cards`, and is stored for its exact document unless a card of
that version is decided. -/
structure DocumentCardFits (server : Server) (card : DocumentCard py) : Prop where
  row : ∀ id documentId now, ∃ row, newDocumentCard py server id documentId now card = some row
  stored : ∀ id now db documentId document, uuid card.documentId = some documentId →
    selectDocument db documentId card.sourceKey = some document → document.pdfSha256 = card.documentSha256 →
    (∀ r, db.documentCards.taken? (documentId, card.cardVersion) = some r → r.reviewerStatus = .needsReview) →
    db.documentCards.find? id = none → ∃ text, (persistDocumentCard py server id now card db).2 = .ok text

/-- What becomes of the card decides. -/
theorem newDocumentCard_eq (server : Server) (card : DocumentCard py) (id documentId : Uuid) (now : ℕ) :
    ∃ row : Json → DocumentCardRow, (∀ stored, (row stored).id = id ∧ (row stored).versionKey = (documentId, card.cardVersion)) ∧
      newDocumentCard py server id documentId now card = (server.jsonb (.obj card.asdict)).bind fun stored =>
        if isCardObject server 48000 stored then some (row stored) else none := by
  have haccepted := (require_eq_ok_iff _).mp card.accepted
  simp only [DocumentCardFields.checks, List.forall_mem_cons, decide_eq_true_eq] at haccepted
  obtain ⟨hkey, -, -, hversion, -⟩ := haccepted
  obtain ⟨bytes, hbytes⟩ := Option.isSome_iff_exists.mp card.encodable
  have hsha : cardSha256 (card.asJson py) = some (sha256 bytes) := by rw [cardSha256, hbytes, Option.map_some]
  refine ⟨fun stored => ⟨id, card.sourceKey, documentId, card.cardVersion, lit "gigachat", stored, sha256 bytes,
    .needsReview, now, none⟩, fun _ => ⟨rfl, rfl⟩, ?_⟩
  simp only [newDocumentCard, char64_of_isDigest hkey, hsha, Option.bind_eq_bind, Option.bind_some,
    DocumentCardRow.check, hversion, decide_true, isDigest_sha256, reviewConsistent, Option.isNone_none, Bool.true_and,
    Bool.and_true, if_true]

/-- A document card fits exactly if `jsonb` stores it within the limit. -/
theorem documentCardFits_iff_stores (card : DocumentCard py) :
    DocumentCardFits server card ↔
      ∃ fields, server.jsonb (.obj card.asdict) = some (.obj fields) ∧ server.octets (.obj fields) ≤ 48000 := by
  rw [← exists_isCardObject_iff]
  constructor
  · intro hfits
    obtain ⟨row, hrow⟩ := hfits.row 0 0 0
    obtain ⟨rowOf, -, heq⟩ := newDocumentCard_eq server card 0 0 0
    rw [heq, Option.bind_eq_some_iff] at hrow
    obtain ⟨w, hw, hrow⟩ := hrow
    split at hrow
    · next hcard => exact ⟨w, hw, hcard⟩
    · cases hrow
  · rintro ⟨w, hw, hcard⟩
    constructor
    · intro id documentId now
      obtain ⟨rowOf, -, heq⟩ := newDocumentCard_eq server card id documentId now
      exact ⟨rowOf w, by rw [heq, hw, Option.bind_some, if_pos hcard]⟩
    · intro id now db documentId document hid hdocument hdigest hundecided hfree
      obtain ⟨rowOf, hkeys, heq⟩ := newDocumentCard_eq server card id documentId now
      obtain ⟨hrowId, hrowKey⟩ := hkeys w
      rw [hw, Option.bind_some, if_pos hcard] at heq
      rw [← hrowId] at hfree
      rw [← hrowKey] at hundecided
      obtain ⟨cards, r, hupsert⟩ := db.documentCards.exists_upsert
        (fun r => decide (r.reviewerStatus = .needsReview)) (rowOf w).regenerate (fun _ => rfl) (fun _ => rfl) hfree
        fun r hr => decide_eq_true (hundecided r hr)
      have hselected : (selectDocument db documentId card.sourceKey).filter
          (fun d => d.pdfSha256 = card.documentSha256) = some document := by
        rw [hdocument, Option.filter_some, if_pos (decide_eq_true hdigest)]
      refine ⟨uuidText r.id, returned_of_ok (d := { db with documentCards := cards }) ?_⟩
      refine bind_eq_ok_iff.mpr ⟨documentId, statement_eq_ok_iff.mpr hid, ?_⟩
      rw [hselected]
      refine bind_eq_ok_iff.mpr ⟨rowOf w, statement_eq_ok_iff.mpr heq, ?_⟩
      exact bind_eq_ok_iff.mpr ⟨(cards, some r), statement_eq_ok_iff.mpr hupsert, rfl⟩

/-- A diagram card passes the constraints of `diagram_cards`, and is stored for its exact document unless a card of
that page and version is decided. -/
structure DiagramCardFits (py : Interpreter) (server : Server) (card : DiagramCard) : Prop where
  row : ∀ id documentId now, ∃ row, newDiagramCard py server id documentId now card = some row
  stored : ∀ id now db documentId document, uuid card.documentId = some documentId →
    selectDocument db documentId card.sourceKey = some document → document.pdfSha256 = card.documentSha256 →
    card.pageNumber ≤ document.pageCount →
    (∀ r, db.diagramCards.taken? (documentId, card.pageNumber, card.cardVersion) = some r →
      r.reviewerStatus = .needsReview) →
    db.diagramCards.find? id = none → ∃ text, (persistDiagramCard py server id now card db).2 = .ok text

/-- What becomes of the card and of its digest decides. -/
theorem newDiagramCard_eq (py : Interpreter) (server : Server) (card : DiagramCard) (id documentId : Uuid) (now : ℕ) :
    ∃ row : Json → Str → DiagramCardRow,
      (∀ stored digest, (row stored digest).id = id ∧
        (row stored digest).versionKey = (documentId, card.pageNumber, card.cardVersion)) ∧
      newDiagramCard py server id documentId now card = (server.jsonb (.obj card.asdict)).bind fun stored =>
        (cardSha256 (card.asJson py)).bind fun digest =>
          if isCardObject server 24000 stored && isDigest digest then some (row stored digest) else none := by
  have haccepted := (require_eq_ok_iff _).mp card.accepted
  simp only [DiagramCardFields.checks, List.forall_mem_cons, Bool.and_eq_true, decide_eq_true_eq] at haccepted
  obtain ⟨⟨⟨hkey, -⟩, himage⟩, ⟨⟨⟨⟨hfirst, hlast⟩, -⟩, -⟩, hversion⟩, -⟩ := haccepted
  refine ⟨fun stored digest => ⟨id, card.sourceKey, documentId, card.pageNumber, card.cardVersion,
    lit "gigachat-vision", card.imageSha256, stored, digest, .needsReview, now, none⟩, fun _ _ => ⟨rfl, rfl⟩, ?_⟩
  simp only [newDiagramCard, char64_of_isDigest hkey, Option.bind_eq_bind, Option.bind_some, DiagramCardRow.check,
    hfirst, hlast, hversion, himage, decide_true, reviewConsistent, Option.isNone_none, Bool.true_and, Bool.and_true,
    if_true]

/-- A diagram card fits exactly if it can be encoded and `jsonb` stores it within the limit. -/
theorem diagramCardFits_iff_stores (card : DiagramCard) :
    DiagramCardFits py server card ↔ (utf8 (card.asJson py)).isSome = true ∧
      ∃ fields, server.jsonb (.obj card.asdict) = some (.obj fields) ∧ server.octets (.obj fields) ≤ 24000 := by
  rw [← exists_isCardObject_iff]
  constructor
  · intro hfits
    obtain ⟨row, hrow⟩ := hfits.row 0 0 0
    obtain ⟨rowOf, -, heq⟩ := newDiagramCard_eq py server card 0 0 0
    rw [heq] at hrow
    simp only [Option.bind_eq_some_iff] at hrow
    obtain ⟨w, hw, digest, hdigest, hrow⟩ := hrow
    obtain ⟨bytes, hbytes, -⟩ := Option.map_eq_some_iff.mp hdigest
    split at hrow
    · next hcard => exact ⟨by rw [hbytes]; rfl, w, hw, (Bool.and_eq_true_iff.mp hcard).1⟩
    · cases hrow
  · rintro ⟨hencodable, w, hw, hcard⟩
    obtain ⟨bytes, hbytes⟩ := Option.isSome_iff_exists.mp hencodable
    have hdigest : cardSha256 (card.asJson py) = some (sha256 bytes) := by rw [cardSha256, hbytes, Option.map_some]
    have hpassed : (isCardObject server 24000 w && isDigest (sha256 bytes)) = true := by
      rw [hcard, isDigest_sha256, Bool.true_and]
    constructor
    · intro id documentId now
      obtain ⟨rowOf, -, heq⟩ := newDiagramCard_eq py server card id documentId now
      exact ⟨rowOf w (sha256 bytes), by rw [heq, hw, Option.bind_some, hdigest, Option.bind_some, if_pos hpassed]⟩
    · intro id now db documentId document hid hdocument hsha hpage hundecided hfree
      obtain ⟨rowOf, hkeys, heq⟩ := newDiagramCard_eq py server card id documentId now
      obtain ⟨hrowId, hrowKey⟩ := hkeys w (sha256 bytes)
      rw [hw, Option.bind_some, hdigest, Option.bind_some, if_pos hpassed] at heq
      rw [← hrowId] at hfree
      rw [← hrowKey] at hundecided
      obtain ⟨cards, r, hupsert⟩ := db.diagramCards.exists_upsert
        (fun r => decide (r.reviewerStatus = .needsReview)) (rowOf w (sha256 bytes)).regenerate (fun _ => rfl)
        (fun _ => rfl) hfree fun r hr => decide_eq_true (hundecided r hr)
      have hselected : (selectDocument db documentId card.sourceKey).filter
          (fun d => d.pdfSha256 = card.documentSha256 && card.pageNumber ≤ d.pageCount) = some document := by
        rw [hdocument, Option.filter_some, if_pos]
        rw [decide_eq_true hsha, decide_eq_true hpage, Bool.true_and]
      refine ⟨uuidText r.id, returned_of_ok (d := { db with diagramCards := cards }) ?_⟩
      refine bind_eq_ok_iff.mpr ⟨documentId, statement_eq_ok_iff.mpr hid, ?_⟩
      rw [hselected]
      refine bind_eq_ok_iff.mpr ⟨rowOf w (sha256 bytes), statement_eq_ok_iff.mpr heq, ?_⟩
      exact bind_eq_ok_iff.mpr ⟨(cards, some r), statement_eq_ok_iff.mpr hupsert, rfl⟩

/-- The texts of a diagram card. -/
def DiagramCardFields.texts (card : DiagramCardFields) : List Str :=
  [card.sourceKey, card.documentId, card.documentSha256, card.imageSha256, card.diagramKind, card.summary] ++
    card.components ++ card.connections ++ card.feedbackOrControl ++ card.limitations ++
    [card.reviewerStatus, card.cardVersion]

/-- The texts of a diagram card in JSON, besides its keys. -/
theorem DiagramCardFields.forall_mem_texts_asdict {P : Str → Prop} {card : DiagramCardFields}
    (hkeys : ∀ key ∈ card.asdict.map Prod.fst, P key) :
    (∀ s ∈ (Json.obj card.asdict).texts, P s) ↔ ∀ s ∈ card.texts, P s := by
  rw [Json.texts, Json.forall_mem_textsFields, and_iff_right hkeys]
  simp only [asdict, texts, List.forall_mem_cons, List.forall_mem_append, texts_strings, Json.texts, List.not_mem_nil,
    IsEmpty.forall_iff, implies_true, true_and, and_true, and_assoc]

/-- A document card fits exactly if no text of it has a NUL and the text that `jsonb` prints is short enough: that of
`as_json` with a space behind each separator and the numbers printed anew. -/
theorem documentCardFits_iff (hserver : KeepsJson server) (hrepr : ∀ x, Encodable (py.floatRepr x))
    (card : DocumentCard py) :
    DocumentCardFits server card ↔ (∀ s ∈ card.texts, 0 ∉ s) ∧
      octets (card.asJson py) + (Json.obj card.asdict).separators +
          ((Json.obj card.asdict).floats.map fun x => octets (server.numericText x)).sum ≤
        48000 + ((Json.obj card.asdict).floats.map fun x => octets (py.floatRepr x)).sum := by
  have htexts : ∀ s ∈ (Json.obj card.asdict).texts, Encodable s :=
    (encodable_dumpsSorted_iff hrepr _).mp (isSome_utf8_iff.mp card.encodable)
  have hnul : (∀ s ∈ (Json.obj card.asdict).texts, 0 ∉ s) ↔ ∀ s ∈ card.texts, 0 ∉ s := by
    refine forall_mem_texts_asdict (by decide +kernel) ?_
    simp only [DocumentCardFields.asdict, List.map_cons, List.map_nil]
    decide +kernel
  have hlength := hserver.octets_add_eq htexts py.floatRepr
  obtain ⟨hshaped, hdepth⟩ := card.shaped
  rw [documentCardFits_iff_stores, hserver.stores_iff hshaped hdepth (by decide) htexts, hnul]
  refine and_congr_right fun _ => ?_
  change _ ↔ octets (dumpsSorted py.floatRepr (.obj card.asdict)) + _ + _ ≤ _
  omega

/-- A diagram card fits exactly if all texts of it can be stored and the text that `jsonb` prints is short enough: that
of `as_json` with a space behind each separator. -/
theorem diagramCardFits_iff (hserver : KeepsJson server) (hrepr : ∀ x, Encodable (py.floatRepr x)) (card : DiagramCard) :
    DiagramCardFits py server card ↔ (∀ s ∈ card.texts, Encodable s ∧ 0 ∉ s) ∧
      octets (card.asJson py) + (Json.obj card.asdict).separators ≤ 24000 := by
  have hencodable : (∀ s ∈ (Json.obj card.asdict).texts, Encodable s) ↔ ∀ s ∈ card.texts, Encodable s := by
    refine DiagramCardFields.forall_mem_texts_asdict ?_
    simp only [DiagramCardFields.asdict, List.map_cons, List.map_nil]
    decide +kernel
  have hnul : (∀ s ∈ (Json.obj card.asdict).texts, 0 ∉ s) ↔ ∀ s ∈ card.texts, 0 ∉ s := by
    refine DiagramCardFields.forall_mem_texts_asdict ?_
    simp only [DiagramCardFields.asdict, List.map_cons, List.map_nil]
    decide +kernel
  obtain ⟨hshaped, hdepth, hfloats⟩ := card.shaped
  rw [diagramCardFits_iff_stores, DiagramCardFields.asJson, isSome_utf8_iff, encodable_dumpsSorted_iff hrepr,
    forall₂_and, and_assoc, ← hencodable, ← hnul]
  refine and_congr_right fun htexts => ?_
  have hlength := hserver.octets_add_eq htexts py.floatRepr
  rw [hfloats] at hlength
  simp only [List.map_nil, List.sum_nil, Nat.add_zero] at hlength
  rw [hserver.stores_iff hshaped hdepth (by decide) htexts, hlength]

/-! ## What the program accepts -/

/-- Which of the receipts and cards that the program accepts the schema takes. Every receipt for arXiv; a receipt for the
publisher exactly if the path of the redirect is of ASCII characters without capitals; a document card exactly if no
text of it has a NUL and the text that `jsonb` prints is short enough; and a diagram card exactly if, besides, its texts
can be encoded. What the schema takes is refused only for a source, a document or a decided card. -/
theorem fits_schema_iff (hserver : KeepsJson server) (hrepr : ∀ x, Encodable (py.floatRepr x)) (checks : UrlChecks)
    (upper : Str → Str) (reader : PdfReader) :
    (∀ transport (request : OpenAccessPdfRequest upper) receipt,
      verifyOpenAccessPdf reader transport request = .ok receipt → DocumentFits receipt) ∧
    (∀ route download rounds (request : F1000OpenAccessPdfRequest upper) receipt,
      verifyF1000OpenAccessPdf reader (defaultF1000PdfTransport checks route download rounds) request =
        some (.ok receipt) →
      ∃ code location, route request.publisherUrl = .httpError code (some location) ∧
        (DocumentFits receipt ↔ LowerAscii (urlPath location).path)) ∧
    (∀ card : DocumentCard py, DocumentCardFits server card ↔ (∀ s ∈ card.texts, 0 ∉ s) ∧
      octets (card.asJson py) + (Json.obj card.asdict).separators +
          ((Json.obj card.asdict).floats.map fun x => octets (server.numericText x)).sum ≤
        48000 + ((Json.obj card.asdict).floats.map fun x => octets (py.floatRepr x)).sum) ∧
    ∀ card : DiagramCard, DiagramCardFits py server card ↔ (∀ s ∈ card.texts, Encodable s ∧ 0 ∉ s) ∧
      octets (card.asJson py) + (Json.obj card.asdict).separators ≤ 24000 :=
  ⟨fun _ _ _ h => documentFits_of_verifyOpenAccessPdf h, fun _ _ _ _ _ h => exists_location_documentFits_iff h,
    documentCardFits_iff hserver hrepr, diagramCardFits_iff hserver hrepr⟩

/-- A text that can be encoded is storable unless it has a NUL. -/
theorem storable_iff_of_encodable {s : Str} (h : Encodable s) : ControlPlane.Sample.storable s = true ↔ 0 ∉ s := by
  rw [ControlPlane.Sample.storable, List.all_eq_true]
  constructor
  · exact fun hall hnul => absurd (hall 0 hnul) (by decide)
  · intro hnul c hc
    have hne : c ≠ 0 := fun hzero => hnul (hzero ▸ hc)
    have hsome := h c hc
    by_cases hsurrogate : 0xD800 ≤ c ∧ c ≤ 0xDFFF
    · rw [utf8Char, if_neg (by omega), if_neg (by omega), if_pos hsurrogate] at hsome
      cases hsome
    · simp only [bne_iff_ne, Bool.and_eq_true, Bool.not_eq_true', Bool.and_eq_false_iff, decide_eq_false_iff_not]
      omega

mutual

/-- The sample server takes what has no NUL. -/
theorem jsonbAccepts_iff : ∀ v : Json, jsonbShaped v = true → (∀ s ∈ v.texts, Encodable s) →
    (ControlPlane.Sample.jsonbAccepts v = true ↔ ∀ s ∈ v.texts, 0 ∉ s)
  | .null, _, _ => iff_of_true rfl nofun
  | .bool _, _, _ => iff_of_true rfl nofun
  | .int _, _, _ => iff_of_true rfl nofun
  | .float (.finite ..), _, _ => iff_of_true rfl nofun
  | .str s, _, h => by
    rw [ControlPlane.Sample.jsonbAccepts, storable_iff_of_encodable (h s List.mem_cons_self), Json.texts,
      List.forall_mem_singleton]
  | .arr vs, hshaped, h => jsonbAcceptsItems_iff vs hshaped h
  | .obj fs, hshaped, h => jsonbAcceptsFields_iff fs (Bool.and_eq_true_iff.mp hshaped).2 h

/-- Item by item. -/
theorem jsonbAcceptsItems_iff : ∀ vs : List Json, jsonbShapedItems vs = true →
    (∀ s ∈ Json.textsItems vs, Encodable s) →
    (ControlPlane.Sample.jsonbAcceptsItems vs = true ↔ ∀ s ∈ Json.textsItems vs, 0 ∉ s)
  | [], _, _ => iff_of_true rfl nofun
  | v :: vs, hshaped, h => by
    obtain ⟨hv, hvs⟩ := Bool.and_eq_true_iff.mp hshaped
    obtain ⟨hhead, htail⟩ := List.forall_mem_append.mp h
    rw [ControlPlane.Sample.jsonbAcceptsItems, Bool.and_eq_true, jsonbAccepts_iff v hv hhead,
      jsonbAcceptsItems_iff vs hvs htail, Json.textsItems, List.forall_mem_append]

/-- Member by member. -/
theorem jsonbAcceptsFields_iff : ∀ fs : List (Str × Json), jsonbShapedFields fs = true →
    (∀ s ∈ Json.textsFields fs, Encodable s) →
    (ControlPlane.Sample.jsonbAcceptsFields fs = true ↔ ∀ s ∈ Json.textsFields fs, 0 ∉ s)
  | [], _, _ => iff_of_true rfl nofun
  | (k, v) :: fs, hshaped, h => by
    obtain ⟨hv, hfs⟩ := Bool.and_eq_true_iff.mp hshaped
    obtain ⟨hkey, hrest⟩ := List.forall_mem_cons.mp h
    obtain ⟨hvalue, htail⟩ := List.forall_mem_append.mp hrest
    rw [ControlPlane.Sample.jsonbAcceptsFields, Bool.and_eq_true, Bool.and_eq_true, storable_iff_of_encodable hkey,
      jsonbAccepts_iff v hv hvalue, jsonbAcceptsFields_iff fs hfs htail, Json.textsFields, List.forall_mem_cons,
      List.forall_mem_append, and_assoc]

end

/-- The sample server keeps documents as `jsonb` does. -/
theorem keepsJson_sample : KeepsJson Sample.server where
  reordered v w _ h := by
    change (if ControlPlane.Sample.jsonbAccepts v then some (ControlPlane.Sample.jsonbOrder v) else none) = some w at h
    split at h
    · cases h
      exact ControlPlane.Sample.jsonbOrder_reordered v
    · cases h
  accepts_iff v hshaped _ _ htexts := by
    rw [← jsonbAccepts_iff v hshaped htexts]
    change (if ControlPlane.Sample.jsonbAccepts v then some (ControlPlane.Sample.jsonbOrder v) else none).isSome = true ↔ _
    split <;> simp [*]
  encodable_numericText := encodable_floatRepr

/-- The card of the sample fits. -/
theorem fits_schema_iff_sample : DocumentCardFits Sample.server Sample.documentCard :=
  ((fits_schema_iff keepsJson_sample encodable_floatRepr Sample.urls (List.map asciiLower) fun _ => .ok []).2.2.1
    Sample.documentCard).mpr ⟨by decide +kernel, by decide +kernel⟩

/-- A diagram with nine long labels in a script of four bytes a character. -/
def wideDiagram : DiagramCard where
  sourceKey := List.replicate 64 0x61
  documentId := uuidText 2
  documentSha256 := List.replicate 64 0x62
  pageNumber := 1
  imageSha256 := List.replicate 64 0x63
  diagramKind := lit "workflow"
  summary := lit "A loop."
  components := List.replicate 9 (List.replicate 700 0x1F600)
  connections := []
  feedbackOrControl := []
  limitations := []
  reviewerStatus := lit "needs_review"
  cardVersion := lit "diagram-card-v1"
  accepted := by decide +kernel

/-- A request for an article. -/
def articleRequest : F1000OpenAccessPdfRequest id where
  sourceKey := List.replicate 64 0x61
  articleId := lit "14-905"
  accepted := by decide +kernel

/-- A redirect to a file whose name ends in capitals. -/
def shoutedRoute (_ : Str) : RouteAnswer :=
  .httpError 302 (some (lit
    "https://f1000research-files.f1000.com/manuscripts/1/de69d868-c126-4d6c-854a-8d7be1e8adef_f1000res1.PDF"))

/-- A server that sends the signature of a PDF. -/
def signatureServer : RangedDownload.Server := fun _ request =>
  .ok {
    url := request.url
    status := 206
    contentRange := some (lit "bytes 0-4/5")
    contentType := lit "application/pdf"
    body := .ok pdfSignature }

/-- A diagram card that the program accepts is longer than its column takes, and a receipt that it returns for a
redirect in capitals has an address that its column does not take. -/
theorem accepted_refused :
    ¬DiagramCardFits ControlPlane.Sample.py Sample.server wideDiagram ∧
      ∃ receipt, verifyF1000OpenAccessPdf (fun _ => .ok [])
          (defaultF1000PdfTransport Sample.urls shoutedRoute signatureServer 2) articleRequest = some (.ok receipt) ∧
        ¬DocumentFits receipt := by
  constructor
  · exact fun hfits => absurd ((diagramCardFits_iff keepsJson_sample encodable_floatRepr wideDiagram).mp hfits).2
      (by decide +kernel)
  · obtain ⟨receipt, hreceipt⟩ : ∃ receipt, verifyF1000OpenAccessPdf (fun _ => .ok [])
        (defaultF1000PdfTransport Sample.urls shoutedRoute signatureServer 2) articleRequest = some (.ok receipt) :=
      ⟨_, rfl⟩
    obtain ⟨code, location, hroute, hfits⟩ := exists_location_documentFits_iff hreceipt
    cases hroute
    exact ⟨receipt, hreceipt, fun h => absurd (hfits.mp h) (by decide +kernel)⟩

end NeuroLab.Research
