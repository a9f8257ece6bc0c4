import NeuroLab.Python.JsonTexts
import NeuroLab.Research.Sample
import NeuroLab.Research.Windows

/-!
# What the parsers of model output raise

`parse_window_note`, `parse_document_card` and `parse_diagram_card` catch the `JSONDecodeError`
of `json.loads` only. An integer with too many digits, a value nested too deeply, a score beyond
the doubles and a lone surrogate in a document card raise something else than the parser's error.
-/

namespace NeuroLab.Research

open Python

variable {py : Interpreter} {α β : Type}

/-! ## Notes and diagrams as a model writes them -/

/-- The fields of `WindowNote`. -/
structure WindowNoteFields where
  pageStart : ℤ
  pageEnd : ℤ
  summary : Str
  architectureLayers : List Str
  implementationSignals : List Str
  evaluationSignals : List Str
  limitations : List Str
deriving DecidableEq

namespace WindowNoteFields

variable (note : WindowNoteFields)

/-- `asdict` of a note. -/
def asdict : Fields :=
  [(lit "page_start", .int note.pageStart), (lit "page_end", .int note.pageEnd), (lit "summary", .str note.summary),
    (lit "architecture_layers", strings note.architectureLayers),
    (lit "implementation_signals", strings note.implementationSignals),
    (lit "evaluation_signals", strings note.evaluationSignals), (lit "limitations", strings note.limitations)]

/-- The checks of `WindowNote`, in order. -/
def checks : List (Bool × Str) :=
  [(pagesOrdered note.pageStart note.pageEnd, lit "window note location is malformed"),
    (spans 20 1400 isInline note.summary, lit "window summary is malformed"),
    (boundedLines 3 360 6 note.implementationSignals, lit "implementation signals are malformed"),
    (boundedLines 3 360 6 note.evaluationSignals, lit "evaluation signals are malformed"),
    (boundedLines 3 360 6 note.limitations, lit "limitations are malformed"),
    (!note.architectureLayers.isEmpty && note.architectureLayers.all (· ∈ layers.map (·.name)),
      lit "window architecture layers are malformed")]

end WindowNoteFields

/-- `WindowNote`, with the checks of its constructor. -/
structure WindowNote extends WindowNoteFields where
  accepted : require toWindowNoteFields.checks = .ok ()

/-- The constructor of a note. -/
def WindowNote.make (fields : WindowNoteFields) : Except CardRaised WindowNote :=
  match h : require fields.checks with
  | .ok () => .ok ⟨fields, h⟩
  | .error message => .error (.card message)

/-- `parse_window_note`. -/
def parseWindowNote (py : Interpreter) (raw : Str) (window : PageWindow) : Except CardRaised WindowNote := do
  let value ← strictJson py raw
    [lit "summary", lit "architecture_layers", lit "implementation_signals", lit "evaluation_signals", lit "limitations"]
  let summary ← stringMember value (lit "summary")
  let architectureLayers ← enumStrings value (lit "architecture_layers") (layers.map (·.name)) 4 true
  let implementationSignals ← shortStrings value (lit "implementation_signals") 6
  let evaluationSignals ← shortStrings value (lit "evaluation_signals") 6
  let limitations ← shortStrings value (lit "limitations") 6
  WindowNote.make
    { pageStart := window.pageStart, pageEnd := window.pageEnd, summary, architectureLayers, implementationSignals,
      evaluationSignals, limitations }

/-- The constructor of a diagram card, whose error is a `DiagramCardError`. -/
def DiagramCard.make (fields : DiagramCardFields) : Except CardRaised DiagramCard :=
  match h : require fields.checks with
  | .ok () => .ok ⟨fields, h⟩
  | .error message => .error (.card message)

/-- The text of an answer, without the Markdown fence around it. -/
def unfenced (raw : Str) : Str :=
  let candidate := stripSpace raw
  if startsWith (lit "```json\n") candidate && (lit "\n```").isSuffixOf candidate then
    stripSpace ((candidate.take (candidate.length - 4)).drop 8)
  else candidate

/-- The object that `parse_diagram_card` reads. -/
def diagramJson (py : Interpreter) (raw : Str) (expected : List Str) : Except CardRaised Fields :=
  match Python.loads py.recursionLimit (unfenced raw) with
  | .error .valueError => .error (.card (lit "vision model did not return JSON"))
  | .error .digitLimit => .error (.uncaught (.value (lit "ValueError")))
  | .error .recursionError => .error (.uncaught .recursion)
  | .ok (.obj fields) =>
    if hasExactly expected fields then .ok fields
    else .error (.card (lit "vision model JSON keys do not match the contract"))
  | .ok _ => .error (.card (lit "vision model JSON keys do not match the contract"))

/-- `parse_diagram_card`; an error is a `DiagramCardError`. -/
def parseDiagramCard (py : Interpreter) (raw sourceKey documentId documentSha256 : Str) (pageNumber : ℤ)
    (imageBytes : List ℕ) : Except CardRaised DiagramCard := do
  let value ← diagramJson py raw
    [lit "diagram_kind", lit "summary", lit "components", lit "connections", lit "feedback_or_control", lit "limitations"]
  let diagramKind ← stringMember value (lit "diagram_kind")
  let summary ← stringMember value (lit "summary")
  let components ← shortStrings value (lit "components") 16
  let connections ← shortStrings value (lit "connections") 24
  let feedbackOrControl ← shortStrings value (lit "feedback_or_control") 12
  let limitations ← shortStrings value (lit "limitations") 12
  DiagramCard.make
    { sourceKey, documentId, documentSha256, pageNumber, imageSha256 := sha256 imageBytes, diagramKind, summary,
      components, connections, feedbackOrControl, limitations, reviewerStatus := lit "needs_review",
      cardVersion := lit "diagram-card-v1" }

/-! ## Declared errors -/

/-- What a parser does is to return or to raise its own error. -/
def Declared (x : Except CardRaised α) : Prop := ∀ exc, x ≠ .error (.uncaught exc)

namespace Declared

@[simp] theorem ok (a : α) : Declared (.ok a) := nofun

@[simp] theorem card (message : Str) : Declared (.error (.card message) : Except CardRaised α) := nofun

/-- What a parser raises. -/
def raised : Except CardRaised α → Option CardRaised
  | .ok _ => none
  | .error e => some e

theorem raised_ne {x : Except CardRaised α} (h : Declared x) (exc : PyExc) : raised x ≠ some (.uncaught exc) := by
  cases x with
  | ok a => exact nofun
  | error e => exact fun heq => h exc (congrArg Except.error (Option.some.inj heq))

/-- A sequence raises nothing else if no statement that is reached does. -/
theorem bind_iff {x : Except CardRaised α} {f : α → Except CardRaised β} :
    Declared (x >>= f) ↔ Declared x ∧ ∀ a, x = .ok a → Declared (f a) := by
  cases x with
  | error e =>
    constructor
    · exact fun h => ⟨fun exc heq => h exc (by cases heq; rfl), fun a ha => nomatch ha⟩
    · exact fun h exc heq => h.1 exc (by cases heq; rfl)
  | ok a =>
    constructor
    · intro h
      refine ⟨.ok a, fun b hb => ?_⟩
      cases hb
      exact h
    · exact fun h => h.2 a rfl

theorem mapM {f : α → Except CardRaised β} {xs : List α} (h : ∀ x, Declared (f x)) : Declared (xs.mapM f) := by
  induction xs with
  | nil => exact .ok _
  | cons x xs ih =>
    rw [List.mapM_cons]
    exact bind_iff.mpr ⟨h x, fun _ _ => bind_iff.mpr ⟨ih, fun _ _ => .ok _⟩⟩

end Declared

/-- A property of every step of a traversal that is reached, the ones before it having returned. -/
def AtReached {ε : Type} (f : α → Except ε β) (P : α → Prop) (xs : List α) : Prop :=
  ∀ before x after, xs = before ++ x :: after → (∀ y ∈ before, ∃ b, f y = .ok b) → P x

theorem atReached_nil {ε : Type} {f : α → Except ε β} {P : α → Prop} : AtReached f P [] :=
  fun before x after h => by simp at h

theorem atReached_cons {ε : Type} {f : α → Except ε β} {P : α → Prop} {x : α} {xs : List α} :
    AtReached f P (x :: xs) ↔ P x ∧ ∀ b, f x = .ok b → AtReached f P xs := by
  constructor
  · refine fun h => ⟨h [] x xs rfl nofun, fun b hb before y after heq hbefore => ?_⟩
    rw [heq] at h
    exact h (x :: before) y after rfl (List.forall_mem_cons.mpr ⟨⟨b, hb⟩, hbefore⟩)
  · rintro ⟨hx, hrest⟩ before y after heq hbefore
    cases before with
    | nil =>
      cases heq
      exact hx
    | cons z before =>
      cases heq
      obtain ⟨⟨b, hb⟩, hbefore⟩ := List.forall_mem_cons.mp hbefore
      exact hrest b hb before y after rfl hbefore

/-! ## The readers -/

/-- The decoder returns, or raises the one error the parsers catch. -/
def ReadableText (py : Interpreter) (raw : Str) : Prop :=
  ∀ e, Python.loads py.recursionLimit (unfenced raw) = .error e → e = .valueError

theorem declared_strictJson_iff {raw : Str} {expected : List Str} :
    Declared (strictJson py raw expected) ↔ ReadableText py raw := by
  unfold strictJson ReadableText
  extract_lets stripped candidate
  change _ ↔ ∀ e, Python.loads py.recursionLimit candidate = .error e → e = .valueError
  generalize Python.loads py.recursionLimit candidate = loaded
  cases loaded with
  | error e =>
    cases e with
    | valueError => exact iff_of_true (.card _) fun e h => by cases h; rfl
    | digitLimit => exact iff_of_false (fun h => h _ rfl) fun h => nomatch h _ rfl
    | recursionError => exact iff_of_false (fun h => h _ rfl) fun h => nomatch h _ rfl
  | ok v =>
    refine iff_of_true ?_ nofun
    cases v with
    | obj fields =>
      dsimp only
      split
      · exact .ok _
      · exact .card _
    | _ => exact .card _

theorem declared_diagramJson_iff {raw : Str} {expected : List Str} :
    Declared (diagramJson py raw expected) ↔ ReadableText py raw := by
  unfold diagramJson ReadableText
  generalize Python.loads py.recursionLimit (unfenced raw) = loaded
  cases loaded with
  | error e =>
    cases e with
    | valueError => exact iff_of_true (.card _) fun e h => by cases h; rfl
    | digitLimit => exact iff_of_false (fun h => h _ rfl) fun h => nomatch h _ rfl
    | recursionError => exact iff_of_false (fun h => h _ rfl) fun h => nomatch h _ rfl
  | ok v =>
    refine iff_of_true ?_ nofun
    cases v with
    | obj fields =>
      dsimp only
      split
      · exact .ok _
      · exact .card _
    | _ => exact .card _

@[simp] theorem declared_stringMember (value : Fields) (key : Str) : Declared (stringMember value key) := by
  unfold stringMember
  split
  · exact .ok _
  · exact .card _

@[simp] theorem declared_shortStrings (value : Fields) (key : Str) (maximum : ℕ) :
    Declared (shortStrings value key maximum) := by
  unfold shortStrings
  split
  · split
    · split
      · exact .ok _
      · exact .card _
    · exact .card _
  · exact .card _

@[simp] theorem declared_enumStrings (value : Fields) (key : Str) (allowed : List Str) (maximum : ℕ) (nonempty : Bool) :
    Declared (enumStrings value key allowed maximum nonempty) := by
  refine Declared.bind_iff.mpr ⟨declared_shortStrings _ _ _, fun items _ => ?_⟩
  split
  · exact .card _
  · exact .ok _

@[simp] theorem declared_pageNumber (value : Option Json) : Declared (pageNumber value) := by
  unfold pageNumber
  split
  · split
    · exact .ok _
    · exact .card _
  · exact .card _

@[simp] theorem declared_parseFinding (pageCount : ℤ) (finding : Json) : Declared (parseFinding pageCount finding) := by
  unfold parseFinding
  split
  · split
    · refine Declared.bind_iff.mpr ⟨declared_pageNumber _, fun pageStart _ => ?_⟩
      refine Declared.bind_iff.mpr ⟨declared_pageNumber _, fun pageEnd _ => ?_⟩
      split
      · exact .card _
      · refine Declared.bind_iff.mpr ⟨declared_stringMember _ _, fun kind _ => ?_⟩
        refine Declared.bind_iff.mpr ⟨declared_stringMember _ _, fun summary _ => ?_⟩
        dsimp only
        split
        · exact .ok _
        · exact .card _
    · exact .card _
  · exact .card _

/-- An integer that no double comes near. -/
def beyondDoubles (value : Fields) (key : Str) : Bool :=
  match get? value key with
  | some (.int n) => decide (floatOverflow ≤ n.natAbs)
  | _ => false

theorem declared_scoreMember_iff {value : Fields} {key : Str} :
    Declared (scoreMember value key) ↔ beyondDoubles value key = false := by
  unfold scoreMember beyondDoubles
  rcases get? value key with _ | v
  · exact iff_of_true (.ok _) rfl
  · cases v with
    | int n =>
      dsimp only
      split
      · next h => exact iff_of_false (fun hdeclared => hdeclared _ rfl) (by simp [h])
      · next h => exact iff_of_true (.ok _) (by simp [h])
    | null => exact iff_of_true (.ok _) rfl
    | float x => exact iff_of_true (.ok _) rfl
    | _ => exact iff_of_true (.card _) rfl

/-! ## The constructors -/

theorem declared_windowNote (fields : WindowNoteFields) : Declared (WindowNote.make fields) := by
  unfold WindowNote.make
  split
  · exact .ok _
  · exact .card _

theorem declared_diagramCard (fields : DiagramCardFields) : Declared (DiagramCard.make fields) := by
  unfold DiagramCard.make
  split
  · exact .ok _
  · exact .card _

/-- The texts of a card. -/
def DocumentCardFields.texts (card : DocumentCardFields) : List Str :=
  [card.sourceKey, card.documentId, card.documentSha256, card.documentSummary, card.researchProblem, card.method] ++
    card.architectureLayers ++ card.implementationSignals ++ card.evaluationSignals ++ card.limitations ++
    card.findings.flatMap (fun finding => [finding.kind, finding.summary]) ++
    [card.uncertainty, card.reviewerStatus, card.cardVersion]

@[simp] theorem texts_strings (values : List Str) : (strings values).texts = values := by
  change Json.textsItems (values.map .str) = values
  induction values with
  | nil => rfl
  | cons s values ih =>
    rw [List.map_cons, Json.textsItems, ih]
    rfl

@[simp] theorem texts_scoreJson (score : Option PyFloat) : (scoreJson score).texts = [] := by
  cases score <;> rfl

/-- The texts of the findings, besides their keys. -/
theorem forall_mem_texts_findings {P : Str → Prop}
    (hkeys : ∀ key ∈ [lit "page_start", lit "page_end", lit "kind", lit "summary"], P key) (findings : List CardFinding) :
    (∀ s ∈ Json.textsItems (findings.map CardFinding.asdict), P s) ↔
      ∀ s ∈ findings.flatMap (fun finding => [finding.kind, finding.summary]), P s := by
  induction findings with
  | nil => rfl
  | cons finding findings ih =>
    simp only [List.forall_mem_cons] at hkeys
    simp only [List.map_cons, Json.textsItems, List.flatMap_cons, List.forall_mem_append, ih]
    simp [CardFinding.asdict, Json.texts, Json.textsFields, hkeys]

/-- The texts of a card in JSON, besides its keys. -/
theorem forall_mem_texts_asdict {P : Str → Prop} {card : DocumentCardFields}
    (hfindings : ∀ key ∈ [lit "page_start", lit "page_end", lit "kind", lit "summary"], P key)
    (hkeys : ∀ key ∈ card.asdict.map Prod.fst, P key) :
    (∀ s ∈ (Json.obj card.asdict).texts, P s) ↔ ∀ text ∈ card.texts, P text := by
  rw [Json.texts, Json.forall_mem_textsFields, and_iff_right hkeys]
  simp only [DocumentCardFields.asdict, DocumentCardFields.texts, List.forall_mem_cons, List.forall_mem_append,
    texts_strings, texts_scoreJson, Json.texts, forall_mem_texts_findings hfindings, List.not_mem_nil,
    IsEmpty.forall_iff, implies_true, true_and, and_true, and_assoc]

theorem declared_documentCard_iff (hrepr : ∀ x, Encodable (py.floatRepr x)) {fields : DocumentCardFields}
    {accepted : ∀ finding ∈ fields.findings, require finding.checks = .ok ()} :
    Declared (DocumentCard.make py fields accepted) ↔
      (require (fields.checks py) = .ok () → ∀ text ∈ fields.texts, Encodable text) := by
  have htexts : (utf8 (fields.asJson py)).isSome = true ↔ ∀ text ∈ fields.texts, Encodable text := by
    rw [isSome_utf8_iff, DocumentCardFields.asJson, encodable_dumpsSorted_iff hrepr]
    refine forall_mem_texts_asdict (by decide +kernel) ?_
    simp only [DocumentCardFields.asdict, List.map_cons, List.map_nil]
    decide +kernel
  rw [← htexts]
  unfold DocumentCard.make
  split
  · next message h => exact iff_of_true (.card _) fun hok => by rw [h] at hok; cases hok
  · next h =>
    split
    · next hencodable => exact iff_of_true (.ok _) fun _ => hencodable
    · next hencodable => exact iff_of_false (fun hdeclared => hdeclared _ rfl) fun himp => hencodable (himp h)

/-! ## The parsers -/

/-- The scores, in the order in which they are read. -/
def scoreNames : List Str :=
  [lit "conceptual_support", lit "empirical_support", lit "reproducibility", lit "feasibility_now",
    lit "source_independence"]

/-- The members that are read in front of the scores are as they should be. -/
structure ReadUpToScores (pageCount : ℤ) (value : Fields) : Prop where
  findings : ∃ items, get? value (lit "findings") = some (.arr items) ∧ (1 ≤ items.length ∧ items.length ≤ 20) ∧
    ∃ findings, items.mapM (parseFinding pageCount) = .ok findings
  lines : ∀ key ∈ [lit "document_summary", lit "research_problem", lit "method"], ∃ s, stringMember value key = .ok s
  layers : ∃ names, enumStrings value (lit "architecture_layers") (layers.map (·.name)) 4 true = .ok names
  signals : ∀ key ∈ [lit "implementation_signals", lit "evaluation_signals", lit "limitations"],
    ∃ texts, shortStrings value key 8 = .ok texts

/-- No score that is reached is an integer beyond the doubles. -/
def ScoresInRange (value : Fields) : Prop :=
  AtReached (scoreMember value) (fun key => beyondDoubles value key = false) scoreNames

/-- The fields that the members of an answer give a card. -/
structure ReadAs (pageCount : ℤ) (sourceKey documentId documentSha256 : Str) (value : Fields)
    (card : DocumentCardFields) : Prop where
  identity : card.sourceKey = sourceKey ∧ card.documentId = documentId ∧ card.documentSha256 = documentSha256
  findings : ∃ items accepted, get? value (lit "findings") = some (.arr items) ∧
    (1 ≤ items.length ∧ items.length ≤ 20) ∧ items.mapM (parseFinding pageCount) = .ok accepted ∧
    card.findings = accepted.map Subtype.val
  documentSummary : stringMember value (lit "document_summary") = .ok card.documentSummary
  researchProblem : stringMember value (lit "research_problem") = .ok card.researchProblem
  method : stringMember value (lit "method") = .ok card.method
  architectureLayers :
    enumStrings value (lit "architecture_layers") (layers.map (·.name)) 4 true = .ok card.architectureLayers
  implementationSignals : shortStrings value (lit "implementation_signals") 8 = .ok card.implementationSignals
  evaluationSignals : shortStrings value (lit "evaluation_signals") 8 = .ok card.evaluationSignals
  limitations : shortStrings value (lit "limitations") 8 = .ok card.limitations
  conceptualSupport : scoreMember value (lit "conceptual_support") = .ok card.conceptualSupport
  empiricalSupport : scoreMember value (lit "empirical_support") = .ok card.empiricalSupport
  reproducibility : scoreMember value (lit "reproducibility") = .ok card.reproducibility
  feasibilityNow : scoreMember value (lit "feasibility_now") = .ok card.feasibilityNow
  sourceIndependence : scoreMember value (lit "source_independence") = .ok card.sourceIndependence
  uncertainty : stringMember value (lit "uncertainty") = .ok card.uncertainty
  constants : card.reviewerStatus = lit "needs_review" ∧ card.cardVersion = lit "document-card-v1"

theorem declared_parseWindowNote_iff {raw : Str} {window : PageWindow} :
    Declared (parseWindowNote py raw window) ↔ ReadableText py raw := by
  simp only [parseWindowNote, Declared.bind_iff, declared_strictJson_iff, declared_stringMember, declared_enumStrings,
    declared_shortStrings, declared_windowNote, implies_true, and_true]

theorem declared_parseDiagramCard_iff {raw sourceKey documentId documentSha256 : Str} {pageNumber : ℤ}
    {imageBytes : List ℕ} :
    Declared (parseDiagramCard py raw sourceKey documentId documentSha256 pageNumber imageBytes) ↔
      ReadableText py raw := by
  simp only [parseDiagramCard, Declared.bind_iff, declared_diagramJson_iff, declared_stringMember,
    declared_shortStrings, declared_diagramCard, implies_true, and_true]

theorem declared_mapM_parseFinding (pageCount : ℤ) (items : List Json) :
    Declared (items.mapM (parseFinding pageCount)) := .mapM (declared_parseFinding pageCount)

/-- The five scores are read one after the other, and then the rest is done. -/
theorem scoresInRange_and_iff {value : Fields}
    {rest : Option PyFloat → Option PyFloat → Option PyFloat → Option PyFloat → Option PyFloat → Prop} :
    (beyondDoubles value (lit "conceptual_support") = false ∧ ∀ a, scoreMember value (lit "conceptual_support") = .ok a →
      beyondDoubles value (lit "empirical_support") = false ∧ ∀ b, scoreMember value (lit "empirical_support") = .ok b →
      beyondDoubles value (lit "reproducibility") = false ∧ ∀ c, scoreMember value (lit "reproducibility") = .ok c →
      beyondDoubles value (lit "feasibility_now") = false ∧ ∀ d, scoreMember value (lit "feasibility_now") = .ok d →
      beyondDoubles value (lit "source_independence") = false ∧
        ∀ e, scoreMember value (lit "source_independence") = .ok e → rest a b c d e) ↔
      ScoresInRange value ∧ ∀ a b c d e, scoreMember value (lit "conceptual_support") = .ok a →
        scoreMember value (lit "empirical_support") = .ok b → scoreMember value (lit "reproducibility") = .ok c →
        scoreMember value (lit "feasibility_now") = .ok d → scoreMember value (lit "source_independence") = .ok e →
        rest a b c d e := by
  simp only [ScoresInRange, scoreNames, atReached_cons, atReached_nil, implies_true, and_true]
  grind

theorem declared_parseDocumentCard_iff (hrepr : ∀ x, Encodable (py.floatRepr x))
    {raw sourceKey documentId documentSha256 : Str} {pageCount : ℤ} :
    Declared (parseDocumentCard py raw sourceKey documentId documentSha256 pageCount) ↔
      ReadableText py raw ∧ ∀ value, strictJson py raw cardMembers = .ok value →
        (ReadUpToScores pageCount value → ScoresInRange value) ∧
          ∀ card, ReadAs pageCount sourceKey documentId documentSha256 value card →
            require (card.checks py) = .ok () → ∀ text ∈ card.texts, Encodable text := by
  unfold parseDocumentCard
  rw [Declared.bind_iff, declared_strictJson_iff]
  refine and_congr_right fun _ => forall_congr' fun value => imp_congr_right fun _ => ?_
  split
  · next items hitems =>
    split
    · next hcount =>
      simp only [Declared.bind_iff, declared_mapM_parseFinding, declared_stringMember, declared_enumStrings,
        declared_shortStrings, true_and, declared_scoreMember_iff, scoresInRange_and_iff, declared_documentCard_iff hrepr]
      constructor
      · intro h
        refine ⟨fun hread => ?_, fun card hcard hchecks => ?_⟩
        · obtain ⟨_, hitems', -, findings, hfindings⟩ := hread.findings
          cases hitems.symm.trans hitems'
          obtain ⟨summary, hsummary⟩ := hread.lines (lit "document_summary") (by simp)
          obtain ⟨problem, hproblem⟩ := hread.lines (lit "research_problem") (by simp)
          obtain ⟨method, hmethod⟩ := hread.lines (lit "method") (by simp)
          obtain ⟨names, hnames⟩ := hread.layers
          obtain ⟨implementation, himplementation⟩ := hread.signals (lit "implementation_signals") (by simp)
          obtain ⟨evaluation, hevaluation⟩ := hread.signals (lit "evaluation_signals") (by simp)
          obtain ⟨limitations, hlimitations⟩ := hread.signals (lit "limitations") (by simp)
          exact (h findings hfindings summary hsummary problem hproblem method hmethod names hnames
            implementation himplementation evaluation hevaluation limitations hlimitations).1
        · obtain ⟨_, findings, hitems', -, hfindings, hmap⟩ := hcard.findings
          cases hitems.symm.trans hitems'
          obtain ⟨rfl, rfl, rfl⟩ := hcard.identity
          have hmade := (h findings hfindings _ hcard.documentSummary _ hcard.researchProblem _ hcard.method _
            hcard.architectureLayers _ hcard.implementationSignals _ hcard.evaluationSignals _ hcard.limitations).2 _ _ _ _
            _ hcard.conceptualSupport hcard.empiricalSupport hcard.reproducibility hcard.feasibilityNow
            hcard.sourceIndependence _ hcard.uncertainty
          rw [← hmap, ← hcard.constants.1, ← hcard.constants.2] at hmade
          exact hmade hchecks
      · rintro ⟨hscores, hcards⟩ findings hfindings summary hsummary problem hproblem method hmethod names hnames
          implementation himplementation evaluation hevaluation limitations hlimitations
        refine ⟨hscores ⟨⟨items, hitems, hcount, findings, hfindings⟩, ?_, ⟨names, hnames⟩, ?_⟩, ?_⟩
        · simp only [List.forall_mem_cons]
          exact ⟨⟨summary, hsummary⟩, ⟨problem, hproblem⟩, ⟨method, hmethod⟩, nofun⟩
        · simp only [List.forall_mem_cons]
          exact ⟨⟨implementation, himplementation⟩, ⟨evaluation, hevaluation⟩, ⟨limitations, hlimitations⟩, nofun⟩
        · intro a b c d e ha hb hc hd he uncertainty huncertainty
          exact hcards _ ⟨⟨rfl, rfl, rfl⟩, ⟨items, findings, hitems, hcount, hfindings, rfl⟩, hsummary, hproblem, hmethod,
            hnames, himplementation, hevaluation, hlimitations, ha, hb, hc, hd, he, huncertainty, rfl, rfl⟩
    · next hcount =>
      refine iff_of_true (.card _) ⟨fun hread => ?_, fun card hcard => ?_⟩
      · obtain ⟨_, hitems', hcount', -⟩ := hread.findings
        cases hitems.symm.trans hitems'
        exact absurd hcount' hcount
      · obtain ⟨_, _, hitems', hcount', -⟩ := hcard.findings
        cases hitems.symm.trans hitems'
        exact absurd hcount' hcount
  · next hitems =>
    refine iff_of_true (.card _) ⟨fun hread => ?_, fun card hcard => ?_⟩
    · obtain ⟨items, hitems', -⟩ := hread.findings
      exact absurd hitems' (hitems items)
    · obtain ⟨items, _, hitems', -⟩ := hcard.findings
      exact absurd hitems' (hitems items)

/-- For every text: the parsers of notes and of diagram cards raise nothing but their own error exactly if
the decoder returns or raises a `JSONDecodeError`; the parser of document cards, whatever the identity and the
number of pages, exactly if moreover no score that is reached is an integer beyond the doubles, and no card that
passes the other checks holds a text that UTF-8 does not encode. -/
theorem parsers_declared_iff (hrepr : ∀ x, Encodable (py.floatRepr x)) :
    (∀ raw window, Declared (parseWindowNote py raw window) ↔ ReadableText py raw) ∧
    (∀ raw sourceKey documentId documentSha256 pageCount,
      Declared (parseDocumentCard py raw sourceKey documentId documentSha256 pageCount) ↔
        ReadableText py raw ∧ ∀ value, strictJson py raw cardMembers = .ok value →
          (ReadUpToScores pageCount value → ScoresInRange value) ∧
            ∀ card, ReadAs pageCount sourceKey documentId documentSha256 value card →
              require (card.checks py) = .ok () → ∀ text ∈ card.texts, Encodable text) ∧
    ∀ raw sourceKey documentId documentSha256 pageNumber imageBytes,
      Declared (parseDiagramCard py raw sourceKey documentId documentSha256 pageNumber imageBytes) ↔
        ReadableText py raw :=
  ⟨fun _ _ => declared_parseWindowNote_iff, fun _ _ _ _ _ => declared_parseDocumentCard_iff hrepr,
    fun _ _ _ _ _ _ => declared_parseDiagramCard_iff⟩

theorem encodable_floatRepr (x : PyFloat) : Encodable (ControlPlane.Sample.py.floatRepr x) := by
  cases x with
  | finite negative m e =>
    change Encodable (decimalInt _ ++ lit "e" ++ decimalInt e)
    rw [Encodable.append_iff, Encodable.append_iff]
    exact ⟨⟨encodable_decimalInt _, by decide⟩, encodable_decimalInt _⟩
  | infinite negative => cases negative <;> decide
  | nan => decide

/-- Under a concrete interpreter. -/
theorem parsers_declared_iff_sample :
    (∀ x, Encodable (ControlPlane.Sample.py.floatRepr x)) ∧
      ∀ raw window, Declared (parseWindowNote ControlPlane.Sample.py raw window) ↔
        ReadableText ControlPlane.Sample.py raw :=
  ⟨encodable_floatRepr, (parsers_declared_iff encodable_floatRepr).1⟩

/-- An answer whose first score is `10 ^ 309`. -/
def oversizedAnswer : Str :=
  lit "\x7b\"document_summary\": \"A\", \"research_problem\": \"B\", \"method\": \"C\", " ++
    lit "\"architecture_layers\": [\"component\"], \"implementation_signals\": [], \"evaluation_signals\": [], " ++
    lit "\"limitations\": [], \"findings\": [\x7b\"page_start\": 1, \"page_end\": 1, \"kind\": \"method\", " ++
    lit "\"summary\": \"The memory is a vector store.\"\x7d], \"conceptual_support\": 1" ++ List.replicate 309 0x30 ++
    lit ", \"empirical_support\": null, \"reproducibility\": null, \"feasibility_now\": null, " ++
    lit "\"source_independence\": null, \"uncertainty\": \"low\"\x7d"

/-- A score that is an integer beyond the doubles raises an `OverflowError`. -/
theorem oversized_score_uncaught :
    isDigest Sample.sourceKey = true ∧ isDigest Sample.pdfSha256 = true ∧
      ¬ Declared (parseDocumentCard ControlPlane.Sample.py oversizedAnswer Sample.sourceKey (uuidText 2)
        Sample.pdfSha256 3) := by
  refine ⟨by decide +kernel, by decide +kernel, fun h => h.raised_ne (.other (lit "OverflowError")) ?_⟩
  decide +kernel

end NeuroLab.Research
