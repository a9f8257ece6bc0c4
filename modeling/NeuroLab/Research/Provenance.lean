import NeuroLab.Research.CardParsing
import NeuroLab.Research.Cards
import NeuroLab.Research.Claims

/-!
# Where claims and cards are located

A claim stores the pages it was read on as text, a diagram card stores one page, and the
finding of a card lies on pages the model was shown. Each of them is checked once, against
the document it names; no later call moves it off that document's pages.
-/

namespace NeuroLab.Research

open Python Common Postgres

variable {site : Site} {db db' : Database}

/-! ## Locators -/

/-- The locator of a range of pages. -/
def locator (pageStart pageEnd : ℕ) : Str :=
  if pageStart = pageEnd then lit "page " ++ decimal pageStart
  else lit "pages " ++ decimal pageStart ++ 0x2D :: decimal pageEnd

/-- The pages a text says, if it is read as a locator. -/
def scanLocator (s : Str) : Option (ℕ × ℕ) :=
  match after? (lit "pages ") s with
  | some range =>
    match range.dropWhile isDigit with
    | 0x2D :: pageEnd => some (digitsValue (range.takeWhile isDigit), digitsValue pageEnd)
    | _ => none
  | none => (after? (lit "page ") s).map fun page => (digitsValue page, digitsValue page)

/-- The range of pages a locator names. -/
def readLocator (s : Str) : Option (ℕ × ℕ) := (scanLocator s).filter fun pages => locator pages.1 pages.2 = s

/-- The pages of a locator are found in it. -/
theorem scanLocator_locator (pageStart pageEnd : ℕ) : scanLocator (locator pageStart pageEnd) = some (pageStart, pageEnd) := by
  unfold locator
  split
  · next heq =>
    have hpages : after? (lit "pages ") (lit "page " ++ decimal pageStart) = none := rfl
    have hpage : after? (lit "page ") (lit "page " ++ decimal pageStart) = some (decimal pageStart) := rfl
    rw [scanLocator, hpages, hpage, Option.map_some, digitsValue_decimal, ← heq]
  · have hpages : after? (lit "pages ") (lit "pages " ++ decimal pageStart ++ 0x2D :: decimal pageEnd) =
        some (decimal pageStart ++ 0x2D :: decimal pageEnd) := rfl
    have hhyphen : ∀ c t, 0x2D :: decimal pageEnd = c :: t → isDigit c = false := by
      intro c t h
      cases h
      rfl
    rw [scanLocator, hpages]
    simp only [span_decimal pageStart hhyphen, dropWhile_decimal pageStart hhyphen, digitsValue_decimal]

/-- A locator names one range of pages. -/
theorem readLocator_eq_some_iff {s : Str} {pageStart pageEnd : ℕ} :
    readLocator s = some (pageStart, pageEnd) ↔ s = locator pageStart pageEnd := by
  rw [readLocator, Option.filter_eq_some_iff, decide_eq_true_eq]
  constructor
  · rintro ⟨-, hlocator⟩
    exact hlocator.symm
  · rintro rfl
    exact ⟨scanLocator_locator pageStart pageEnd, rfl⟩

/-! ## Claims and diagram cards -/

/-- A claim lies on pages of its document, and belongs to its source. -/
def ClaimRow.Located (db : Database) (r : ClaimRow) : Prop :=
  ∃ pageStart pageEnd document, readLocator r.evidenceLocator = some (pageStart, pageEnd) ∧
    db.documents.find? r.documentId = some document ∧ document.sourceKey = r.sourceKey ∧
      1 ≤ pageStart ∧ pageStart ≤ pageEnd ∧ pageEnd ≤ document.pageCount

/-- A diagram card lies on a page of its document. -/
def DiagramCardRow.Located (db : Database) (r : DiagramCardRow) : Prop :=
  ∃ document, db.documents.find? r.documentId = some document ∧ 1 ≤ r.pageNumber ∧ r.pageNumber ≤ document.pageCount

/-- Every claim and every diagram card lies on pages of its document. -/
structure Located (db : Database) : Prop where
  claim : ∀ k r, db.claims.find? k = some r → r.Located db
  diagram : ∀ k r, db.diagramCards.find? k = some r → r.Located db

/-- The document of a claim keeps its pages. -/
theorem ClaimRow.Located.mono {call : Call site.host.py} {reply : Except Raised Str}
    (heffect : Effect site db call (db', reply)) {r : ClaimRow} (h : r.Located db) : r.Located db' := by
  obtain ⟨pageStart, pageEnd, document, hread, hdocument, hsource, hpages⟩ := h
  obtain ⟨acquiredAt, extractionStatus, hdocument'⟩ := document_kept heffect hdocument
  exact ⟨pageStart, pageEnd, _, hread, hdocument', hsource, hpages⟩

/-- The document of a diagram card keeps its pages. -/
theorem DiagramCardRow.Located.mono {call : Call site.host.py} {reply : Except Raised Str}
    (heffect : Effect site db call (db', reply)) {r : DiagramCardRow} (h : r.Located db) : r.Located db' := by
  obtain ⟨document, hdocument, hpages⟩ := h
  obtain ⟨acquiredAt, extractionStatus, hdocument'⟩ := document_kept heffect hdocument
  exact ⟨_, hdocument', hpages⟩

/-- A new claim is located where its reviewer read it. -/
theorem locator_of_newClaim {id : Uuid} {now : ℕ} {claim : ReviewedClaim} {row : ClaimRow}
    (h : newClaim id now claim = some row) : row.evidenceLocator = locator claim.pageStart claim.pageEnd := by
  simp only [newClaim, Option.bind_eq_bind, Option.bind_eq_some_iff] at h
  obtain ⟨key, -, documentId, -, summary, -, h⟩ := h
  split at h
  · cases h
    rfl
  · cases h

/-- A new diagram card lies on the page of its card. -/
theorem page_of_newDiagramCard {py : Interpreter} {server : Server} {id documentId : Uuid} {now : ℕ}
    {card : DiagramCard} {row : DiagramCardRow} (h : newDiagramCard py server id documentId now card = some row) :
    row.pageNumber = card.pageNumber ∧ 1 ≤ card.pageNumber := by
  have hchecks := (require_eq_ok_iff _).mp card.accepted
  simp only [DiagramCardFields.checks, List.forall_mem_cons, Bool.and_eq_true, decide_eq_true_eq] at hchecks
  simp only [newDiagramCard, Option.bind_eq_bind, Option.bind_eq_some_iff] at h
  obtain ⟨_, -, stored, -, digest, -, h⟩ := h
  split at h
  · cases h
    exact ⟨rfl, hchecks.2.1.1.1.1.1⟩
  · cases h

/-- Every call leaves the claims located. -/
theorem claims_located {call : Call site.host.py} {reply : Except Raised Str} (heffect : Effect site db call (db', reply))
    (h : ∀ k r, db.claims.find? k = some r → r.Located db) : ∀ k r, db'.claims.find? k = some r → r.Located db' := by
  have keep : ∀ k r, db.claims.find? k = some r → r.Located db' := fun k r hr => (h k r hr).mono heffect
  cases heffect with
  | run hassessments _ _ hfold =>
    rw [(ingested_of_run hassessments hfold).frame] at keep ⊢
    exact keep
  | @claim _ documentId _ claim document row _ _ claims hid hdocument hpages hrow hupserted _ =>
    obtain ⟨-, hkey, hid', -, -⟩ := newClaim_eq_some hrow
    cases hid.symm.trans hid'
    obtain ⟨hfound, hsource⟩ := selectDocument_eq_some hdocument
    have hread : readLocator row.evidenceLocator = some (claim.pageStart, claim.pageEnd) :=
      readLocator_eq_some_iff.mpr (locator_of_newClaim hrow)
    refine hupserted.forall keep ?_ fun r htaken => ?_
    · exact ⟨_, _, document, hread, hfound, Option.some.inj (hsource.symm.trans hkey), claim.pages_ordered.1,
        claim.pages_ordered.2.1, hpages⟩
    · -- the row in conflict is a claim on the same document, and takes over the locator
      obtain ⟨hr, hsummary⟩ := Indexed.taken?_eq_some htaken
      have hdocumentId : r.documentId = row.documentId := congrArg Prod.fst hsummary
      obtain ⟨_, _, document', -, hfound', hsource', -⟩ := keep _ r hr
      cases hfound.symm.trans (hdocumentId ▸ hfound')
      exact ⟨_, _, document, hread, hfound', hsource', claim.pages_ordered.1, claim.pages_ordered.2.1, hpages⟩
  | _ => exact keep

/-- Every call leaves the diagram cards located. -/
theorem diagramCards_located {call : Call site.host.py} {reply : Except Raised Str}
    (heffect : Effect site db call (db', reply)) (h : ∀ k r, db.diagramCards.find? k = some r → r.Located db) :
    ∀ k r, db'.diagramCards.find? k = some r → r.Located db' := by
  have keep : ∀ k r, db.diagramCards.find? k = some r → r.Located db' := fun k r hr => (h k r hr).mono heffect
  cases heffect with
  | run hassessments _ _ hfold =>
    rw [(ingested_of_run hassessments hfold).frame] at keep ⊢
    exact keep
  | @diagramCard _ _ _ card document row _ cards hdocument _ hpages hrow hupserted =>
    obtain ⟨hpage, hfirst⟩ := page_of_newDiagramCard hrow
    obtain ⟨-, -, hid, -, -⟩ := newDiagramCard_eq_some hrow
    refine hupserted.forall keep ⟨document, ?_, ?_, ?_⟩ fun r htaken => keep _ r (Indexed.taken?_eq_some htaken).1
    · rw [hid]
      exact (selectDocument_eq_some hdocument).1
    · rw [hpage]
      exact hfirst
    · rw [hpage]
      exact hpages
  | @diagramReview _ _ _ _ _ _ cards _ _ hr₀ _ hfind =>
    intro id r hr
    replace hr : cards.find? id = some r := hr
    rw [hfind] at hr
    split at hr
    · cases hr
      obtain ⟨document, hdocument, hpages⟩ := keep _ _ hr₀
      exact ⟨document, hdocument, hpages⟩
    · exact keep id r hr
  | _ => exact keep

/-- Claims and diagram cards are located in every state of a run. -/
theorem located_of_run {h : History Database (Call site.host.py)} (run : (corpus site).Run h db) : Located db := by
  refine run.invariant ⟨fun _ _ h => (nomatch h), fun _ _ h => (nomatch h)⟩ fun s call s' hs hstep => ?_
  obtain ⟨reply, heffect⟩ := effect_of_step hstep
  exact ⟨claims_located heffect hs.claim, diagramCards_located heffect hs.diagram⟩

/-- In every run of calls in any order, each claim is read back as one range of pages of its document and has
its source, and each diagram card lies on a page of its document; and every card that is read for a document of
so many pages has its findings on them. -/
theorem page_provenance {h : History Database (Call site.host.py)} (run : (corpus site).Run h db) :
    (∀ k claim, db.claims.find? k = some claim → ∃ pageStart pageEnd,
      readLocator claim.evidenceLocator = some (pageStart, pageEnd) ∧
      (∀ a b, claim.evidenceLocator = locator a b ↔ a = pageStart ∧ b = pageEnd) ∧
      ∃ document, db.documents.find? claim.documentId = some document ∧ claim.sourceKey = document.sourceKey ∧
        1 ≤ pageStart ∧ pageStart ≤ pageEnd ∧ pageEnd ≤ document.pageCount) ∧
    (∀ k card, db.diagramCards.find? k = some card → ∃ document,
      db.documents.find? card.documentId = some document ∧ 1 ≤ card.pageNumber ∧
        card.pageNumber ≤ document.pageCount) ∧
    ∀ (raw sourceKey documentId documentSha256 : Str) (pageCount : ℤ) (card : DocumentCard site.host.py),
      parseDocumentCard site.host.py raw sourceKey documentId documentSha256 pageCount = .ok card →
        ∀ finding ∈ card.findings,
          1 ≤ finding.pageStart ∧ finding.pageStart ≤ finding.pageEnd ∧ finding.pageEnd ≤ pageCount := by
  have located := located_of_run run
  refine ⟨fun k claim hclaim => ?_, located.diagram, fun _ _ _ _ _ _ => findings_of_parseDocumentCard⟩
  obtain ⟨pageStart, pageEnd, document, hread, hdocument, hsource, hpages⟩ := located.claim k claim hclaim
  refine ⟨pageStart, pageEnd, hread, fun a b => ?_, document, hdocument, hsource.symm, hpages⟩
  rw [← readLocator_eq_some_iff, hread, Option.some.injEq, Prod.mk.injEq]
  exact and_congr eq_comm eq_comm

/-- What a model answers about the document. -/
def Sample.answer : Str :=
  dumps Sample.site.host.py.floatRepr (.obj (Sample.documentCard.asdict.filter fun field => field.1 ∈ cardMembers))

/-- A run with a claim on two pages, and an answer that is read as a card. -/
theorem page_provenance_claimed :
    ∃ (h : History Database (Call Sample.site.host.py)) (db : Database), (corpus Sample.site).Run h db ∧
      (∃ k claim, db.claims.find? k = some claim ∧ readLocator claim.evidenceLocator = some (1, 2)) ∧
      ∃ card, parseDocumentCard Sample.site.host.py Sample.answer Sample.sourceKey (uuidText 2) Sample.pdfSha256 3 =
        .ok card ∧ ∀ finding ∈ card.findings, finding.pageEnd ≤ 3 := by
  obtain ⟨h, db, run, htest⟩ := System.exists_run (corpus Sample.site)
    (Sample.acquire ++ [.persistReviewedClaim 7 70 (Sample.claim .human)])
    (fun _ (db : Database) => (db.claims.find? 7).any fun claim => claim.evidenceLocator = locator 1 2)
    (by decide +kernel)
  obtain ⟨claim, hclaim, hlocator⟩ := (Option.any_eq_true _ _).mp htest
  have provenance := page_provenance run
  have hparsed : (parseDocumentCard Sample.site.host.py Sample.answer Sample.sourceKey (uuidText 2) Sample.pdfSha256
      3).toOption.isSome = true := by decide +kernel
  refine ⟨h, db, run, ⟨7, claim, hclaim, readLocator_eq_some_iff.mpr (of_decide_eq_true hlocator)⟩, ?_⟩
  cases hcard : parseDocumentCard Sample.site.host.py Sample.answer Sample.sourceKey (uuidText 2) Sample.pdfSha256 3 with
  | error e =>
    rw [hcard] at hparsed
    cases hparsed
  | ok card => exact ⟨card, rfl, fun finding hfinding => (provenance.2.2 _ _ _ _ _ card hcard finding hfinding).2.2⟩

end NeuroLab.Research
