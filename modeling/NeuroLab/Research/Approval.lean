import NeuroLab.Research.Cards

/-!
# What a reviewer approves

A reviewer reads a card under its id and approves that id. Until then the model may
generate the card again: the row keeps its id and takes over the new content. The row that
becomes reviewed holds what the last generation before the approval stored.
-/

namespace NeuroLab.Research

open Python Common Postgres

variable {site : Site} {db db' : Database}

/-! ## Tables of cards -/

section Tables

variable {ρ ι : Type} {key : ρ → Uuid} {alt : ρ → ι} [DecidableEq ι] {sel : ρ → Bool}

/-- The stored row that an upsert of a card would assign, if it is the one of this id. -/
def regenerates (sel : ρ → Bool) (t : Indexed key alt) (row : ρ) (id : Uuid) : Bool :=
  (t.taken? (alt row)).any fun r => key r = id && sel r

/-- An upsert assigns the card it regenerates and leaves the others. -/
theorem find?_of_upsert {t t' : Indexed key alt} {row r : ρ} {set : ρ → ρ} {hkey : ∀ r, key (set r) = key r}
    {halt : ∀ r, alt (set r) = alt r} {stored : Option ρ} {id : Uuid}
    (h : t.upsert row sel set hkey halt = some (t', stored)) (hr : t.find? id = some r) :
    t'.find? id = some (if regenerates sel t row id then set r else r) := by
  cases Indexed.upsert_cases h with
  | @updated _ r₀ htaken hsel hfind =>
    rw [hfind, regenerates, htaken, Option.any_some, hsel, Bool.and_true]
    by_cases hid : key r₀ = id
    · rw [← hid, (Indexed.taken?_eq_some htaken).1] at hr
      cases hr
      simp [hid]
    · simp [hid, hr]
  | @kept r₀ htaken hsel =>
    rw [regenerates, htaken, Option.any_some, hsel, Bool.and_false]
    exact hr
  | inserted htaken hfree hfind =>
    rw [hfind, regenerates, htaken]
    have hne : key row ≠ id := by
      intro heq
      rw [← heq, hfree] at hr
      cases hr
    simpa [hne] using hr

/-- The table after the upsert of a card, if there is a card and the upsert does not fail. -/
def upserting (t : Indexed key alt) (row? : Option ρ) (sel : ρ → Bool) (set : ρ → ρ → ρ)
    (hkey : ∀ row r, key (set row r) = key r) (halt : ∀ row r, alt (set row r) = alt r) : Indexed key alt :=
  match row? with
  | none => t
  | some row =>
    match t.upsert row sel (set row) (hkey row) (halt row) with
    | none => t
    | some (t', _) => t'

/-- What a stored card takes over from such an upsert. -/
def takenOver (sel : ρ → Bool) (content : ρ → Json) (t : Indexed key alt) (row? : Option ρ) (id : Uuid) : Option Json :=
  row?.bind fun row => if regenerates sel t row id then some (content row) else none

/-- A stored card holds what it took over, or what it held before. -/
theorem find?_upserting (t : Indexed key alt) (row? : Option ρ) (set : ρ → ρ → ρ)
    (hkey : ∀ row r, key (set row r) = key r) (halt : ∀ row r, alt (set row r) = alt r) (content : ρ → Json)
    (hset : ∀ row r, content (set row r) = content row) {id : Uuid} {r : ρ} (hr : t.find? id = some r) :
    ∃ r', (upserting t row? sel set hkey halt).find? id = some r' ∧
      content r' = (takenOver sel content t row? id).getD (content r) := by
  unfold upserting takenOver
  cases row? with
  | none => exact ⟨r, hr, rfl⟩
  | some row =>
    rw [Option.bind_some]
    dsimp only
    cases hupsert : t.upsert row sel (set row) (hkey row) (halt row) with
    | some result =>
      refine ⟨_, find?_of_upsert hupsert hr, ?_⟩
      by_cases hregenerates : regenerates sel t row id = true
      · rw [if_pos hregenerates, if_pos hregenerates, hset]
        rfl
      · rw [if_neg hregenerates, if_neg hregenerates]
        rfl
    | none =>
      have hregenerates : regenerates sel t row id = false := by
        cases htaken : t.taken? (alt row) with
        | none => rw [regenerates, htaken, Option.any_none]
        | some r₀ =>
          rw [Indexed.upsert, htaken] at hupsert
          dsimp only at hupsert
          split at hupsert <;> cases hupsert
      rw [if_neg (by rw [hregenerates]; exact Bool.false_ne_true)]
      exact ⟨r, hr, rfl⟩

variable {table : Database → Indexed key alt} {content : ρ → Json}
  {regenerated : Uuid → Database × Call site.host.py → Option Json}

omit [DecidableEq ι] in
/-- Along a run a card holds what its last generation stored, or what it held before. -/
theorem content_of_run
    (moves : ∀ {db : Database} (call : Call site.host.py) {id : Uuid} {r : ρ}, (table db).find? id = some r →
      ∃ r', (table (call.run site db).1).find? id = some r' ∧ content r' = (regenerated id (db, call)).getD (content r))
    {between before : History Database (Call site.host.py)} {read : Database}
    (run : (corpus site).Run (between ++ before) db) (hread : (corpus site).Run before read) {id : Uuid} {r : ρ}
    (hr : (table read).find? id = some r) :
    ∃ r', (table db).find? id = some r' ∧ content r' = (between.findSome? (regenerated id)).getD (content r) := by
  induction between generalizing db with
  | nil =>
    cases run.unique hread
    exact ⟨r, hr, rfl⟩
  | cons x between ih =>
    cases run with
    | @step _ s _ call run hstep =>
      cases hstep
      obtain ⟨r₁, hr₁, hcontent₁⟩ := ih run
      obtain ⟨r', hr', hcontent'⟩ := moves call hr₁
      refine ⟨r', hr', ?_⟩
      rw [hcontent', hcontent₁, List.findSome?_cons]
      cases regenerated id (s, call) <;> rfl

end Tables

/-! ## Document cards -/

/-- The row a generated document card would be stored as, if it is backed by its document. -/
def documentCardRow (site : Site) (id : Uuid) (now : ℕ) (card : DocumentCard site.host.py) (db : Database) :
    Option DocumentCardRow := do
  let documentId ← uuid card.documentId
  let _ ← (selectDocument db documentId card.sourceKey).filter fun d => d.pdfSha256 = card.documentSha256
  newDocumentCard site.host.py site.server id documentId now card

/-- What a document card takes over from a call. -/
def regeneratedDocument (site : Site) (id : Uuid) : Database × Call site.host.py → Option Json
  | (db, .persistDocumentCard newId now card) =>
    takenOver (fun r => r.reviewerStatus = .needsReview) (·.card) db.documentCards (documentCardRow site newId now card db)
      id
  | _ => none

/-- What generating a document card does to the table of document cards. -/
theorem persistDocumentCard_cards (id : Uuid) (now : ℕ) (card : DocumentCard site.host.py) (db : Database) :
    (persistDocumentCard site.host.py site.server id now card db).1.documentCards =
      upserting db.documentCards (documentCardRow site id now card db) (fun r => r.reviewerStatus = .needsReview)
        DocumentCardRow.regenerate (fun _ _ => rfl) fun _ _ => rfl := by
  unfold persistDocumentCard documentCardRow returned
  rw [afterwards_fst]
  cases uuid card.documentId with
  | none => rfl
  | some documentId =>
    cases hdocument : (selectDocument db documentId card.sourceKey).filter
        fun d => decide (d.pdfSha256 = card.documentSha256) with
    | none => simp only [statement, bind, Except.bind, Option.bind, hdocument, transaction, upserting]
    | some document =>
      cases hrow : newDocumentCard site.host.py site.server id documentId now card with
      | none => simp only [statement, bind, Except.bind, Option.bind, hdocument, hrow, transaction, upserting]
      | some row =>
        simp only [statement, bind, Except.bind, Option.bind, hdocument, hrow, upserting]
        cases db.documentCards.upsert row (fun r => decide (r.reviewerStatus = .needsReview)) row.regenerate
          (fun _ => rfl) fun _ => rfl with
        | none => rfl
        | some stored => rfl

/-- No other call changes what a document card holds. -/
theorem documentCard_content {call : Call site.host.py} {reply : Except Raised Str}
    (heffect : Effect site db call (db', reply)) (hcall : ∀ newId now card, call ≠ .persistDocumentCard newId now card)
    {id : Uuid} {r : DocumentCardRow} (hr : db.documentCards.find? id = some r) :
    ∃ r', db'.documentCards.find? id = some r' ∧ r'.card = r.card := by
  cases heffect with
  | run hassessments _ _ hfold =>
    rw [(ingested_of_run hassessments hfold).frame]
    exact ⟨r, hr, rfl⟩
  | documentCard => exact absurd rfl (hcall _ _ _)
  | @documentReview reviewed _ _ _ _ r₀ cards _ _ hr₀ _ hfind =>
    change ∃ r', cards.find? id = some r' ∧ r'.card = r.card
    rw [hfind]
    by_cases hid : reviewed = id
    · subst hid
      cases hr₀.symm.trans hr
      exact ⟨_, if_pos rfl, rfl⟩
    · exact ⟨r, (if_neg hid).trans hr, rfl⟩
  | _ => exact ⟨r, hr, rfl⟩

/-- A document card takes over what the call generates, and nothing else. -/
theorem documentCard_moves (call : Call site.host.py) {id : Uuid} {r : DocumentCardRow}
    (hr : db.documentCards.find? id = some r) :
    ∃ r', (call.run site db).1.documentCards.find? id = some r' ∧
      r'.card = (regeneratedDocument site id (db, call)).getD r.card := by
  by_cases hcall : ∃ newId now card, call = .persistDocumentCard newId now card
  · obtain ⟨newId, now, card, rfl⟩ := hcall
    change ∃ r', (persistDocumentCard _ _ newId now card db).1.documentCards.find? id = some r' ∧ _
    rw [persistDocumentCard_cards]
    exact find?_upserting _ _ DocumentCardRow.regenerate _ _ DocumentCardRow.card (fun _ _ => rfl) hr
  · have hnone : regeneratedDocument site id (db, call) = none := by
      unfold regeneratedDocument
      split
      · next heq => exact absurd ⟨_, _, _, congrArg Prod.snd heq⟩ hcall
      · rfl
    rw [hnone]
    exact documentCard_content (effect_of_run call) (fun newId now card heq => hcall ⟨newId, now, card, heq⟩) hr

/-- The document card that a review approves. -/
theorem reviewDocumentCard_approves (site : Site) {now : ℕ} {cardId reply : Str} {id : Uuid} (hid : uuid cardId = some id)
    {r : DocumentCardRow} (hr : db.documentCards.find? id = some r)
    (happroved : (reviewDocumentCard now cardId (lit "reviewed") db).2 = .ok reply) :
    ∃ r', (reviewDocumentCard now cardId (lit "reviewed") db).1.documentCards.find? id = some r' ∧
      r'.reviewerStatus = .reviewed ∧ r'.card = r.card := by
  have heffect : Effect site db _ _ := reviewDocumentCard_effect now cardId (lit "reviewed")
  generalize reviewDocumentCard now cardId (lit "reviewed") db = outcome at heffect happroved
  cases heffect with
  | raised => cases happroved
  | documentReview hdecision hid' hr' _ hfind =>
    cases hid.symm.trans hid'
    cases hr.symm.trans hr'
    cases hdecision
    exact ⟨_, (hfind id).trans (if_pos rfl), rfl, rfl⟩

/-! ## Diagram cards -/

/-- The row a generated diagram card would be stored as, if it is backed by its document. -/
def diagramCardRow (site : Site) (id : Uuid) (now : ℕ) (card : DiagramCard) (db : Database) :
    Option DiagramCardRow := do
  let documentId ← uuid card.documentId
  let _ ← (selectDocument db documentId card.sourceKey).filter fun d =>
    d.pdfSha256 = card.documentSha256 && card.pageNumber ≤ d.pageCount
  newDiagramCard site.host.py site.server id documentId now card

/-- What a diagram card takes over from a call. -/
def regeneratedDiagram (site : Site) (id : Uuid) : Database × Call site.host.py → Option Json
  | (db, .persistDiagramCard newId now card) =>
    takenOver (fun r => r.reviewerStatus = .needsReview) (·.card) db.diagramCards (diagramCardRow site newId now card db)
      id
  | _ => none

/-- What generating a diagram card does to the table of diagram cards. -/
theorem persistDiagramCard_cards (id : Uuid) (now : ℕ) (card : DiagramCard) (db : Database) :
    (persistDiagramCard site.host.py site.server id now card db).1.diagramCards =
      upserting db.diagramCards (diagramCardRow site id now card db) (fun r => r.reviewerStatus = .needsReview)
        DiagramCardRow.regenerate (fun _ _ => rfl) fun _ _ => rfl := by
  unfold persistDiagramCard diagramCardRow returned
  rw [afterwards_fst]
  cases uuid card.documentId with
  | none => rfl
  | some documentId =>
    cases hdocument : (selectDocument db documentId card.sourceKey).filter
        fun d => decide (d.pdfSha256 = card.documentSha256) && decide (card.pageNumber ≤ d.pageCount) with
    | none => simp only [statement, bind, Except.bind, Option.bind, hdocument, transaction, upserting]
    | some document =>
      cases hrow : newDiagramCard site.host.py site.server id documentId now card with
      | none => simp only [statement, bind, Except.bind, Option.bind, hdocument, hrow, transaction, upserting]
      | some row =>
        simp only [statement, bind, Except.bind, Option.bind, hdocument, hrow, upserting]
        cases db.diagramCards.upsert row (fun r => decide (r.reviewerStatus = .needsReview)) row.regenerate
          (fun _ => rfl) fun _ => rfl with
        | none => rfl
        | some stored => rfl

/-- No other call changes what a diagram card holds. -/
theorem diagramCard_content {call : Call site.host.py} {reply : Except Raised Str}
    (heffect : Effect site db call (db', reply)) (hcall : ∀ newId now card, call ≠ .persistDiagramCard newId now card)
    {id : Uuid} {r : DiagramCardRow} (hr : db.diagramCards.find? id = some r) :
    ∃ r', db'.diagramCards.find? id = some r' ∧ r'.card = r.card := by
  cases heffect with
  | run hassessments _ _ hfold =>
    rw [(ingested_of_run hassessments hfold).frame]
    exact ⟨r, hr, rfl⟩
  | diagramCard => exact absurd rfl (hcall _ _ _)
  | @diagramReview reviewed _ _ _ _ r₀ cards _ _ hr₀ _ hfind =>
    change ∃ r', cards.find? id = some r' ∧ r'.card = r.card
    rw [hfind]
    by_cases hid : reviewed = id
    · subst hid
      cases hr₀.symm.trans hr
      exact ⟨_, if_pos rfl, rfl⟩
    · exact ⟨r, (if_neg hid).trans hr, rfl⟩
  | _ => exact ⟨r, hr, rfl⟩

/-- A diagram card takes over what the call generates, and nothing else. -/
theorem diagramCard_moves (call : Call site.host.py) {id : Uuid} {r : DiagramCardRow}
    (hr : db.diagramCards.find? id = some r) :
    ∃ r', (call.run site db).1.diagramCards.find? id = some r' ∧
      r'.card = (regeneratedDiagram site id (db, call)).getD r.card := by
  by_cases hcall : ∃ newId now card, call = .persistDiagramCard newId now card
  · obtain ⟨newId, now, card, rfl⟩ := hcall
    change ∃ r', (persistDiagramCard _ _ newId now card db).1.diagramCards.find? id = some r' ∧ _
    rw [persistDiagramCard_cards]
    exact find?_upserting _ _ DiagramCardRow.regenerate _ _ DiagramCardRow.card (fun _ _ => rfl) hr
  · have hnone : regeneratedDiagram site id (db, call) = none := by
      unfold regeneratedDiagram
      split
      · next heq => exact absurd ⟨_, _, _, congrArg Prod.snd heq⟩ hcall
      · rfl
    rw [hnone]
    exact diagramCard_content (effect_of_run call) (fun newId now card heq => hcall ⟨newId, now, card, heq⟩) hr

/-- The diagram card that a review approves. -/
theorem reviewDiagramCard_approves (site : Site) {now : ℕ} {cardId reply : Str} {id : Uuid} (hid : uuid cardId = some id)
    {r : DiagramCardRow} (hr : db.diagramCards.find? id = some r)
    (happroved : (reviewDiagramCard now cardId (lit "reviewed") db).2 = .ok reply) :
    ∃ r', (reviewDiagramCard now cardId (lit "reviewed") db).1.diagramCards.find? id = some r' ∧
      r'.reviewerStatus = .reviewed ∧ r'.card = r.card := by
  have heffect : Effect site db _ _ := reviewDiagramCard_effect now cardId (lit "reviewed")
  generalize reviewDiagramCard now cardId (lit "reviewed") db = outcome at heffect happroved
  cases heffect with
  | raised => cases happroved
  | diagramReview hdecision hid' hr' _ hfind =>
    cases hid.symm.trans hid'
    cases hr.symm.trans hr'
    cases hdecision
    exact ⟨_, (hfind id).trans (if_pos rfl), rfl, rfl⟩

/-! ## What was read and what is approved -/

/-- The last generation of the card among the calls, if there is one, stored this content. -/
def LastStored (regenerated : Database × Call site.host.py → Option Json)
    (between : History Database (Call site.host.py)) (content : Json) : Prop :=
  ∀ stored, between.findSome? regenerated = some stored → stored = content

/-- A card holds what was read exactly if the last generation since stored that. -/
theorem getD_eq_iff {stored : Option Json} {content : Json} :
    stored.getD content = content ↔ ∀ c, stored = some c → c = content := by
  cases stored <;> simp

/-- A reviewer reads a card, any calls follow, and the reviewer's approval of the card's id succeeds: the row
that becomes reviewed holds what was read exactly if the last generation of the card in between, if there is
one, stored the same. -/
theorem approved_content_iff {between before : History Database (Call site.host.py)} {read : Database}
    (run : (corpus site).Run (between ++ before) db) (hread : (corpus site).Run before read) {cardId : Str} {id : Uuid}
    (hid : uuid cardId = some id) (now : ℕ) (reply : Str) :
    (∀ r, read.documentCards.find? id = some r →
      (reviewDocumentCard now cardId (lit "reviewed") db).2 = .ok reply →
      ∃ r', (reviewDocumentCard now cardId (lit "reviewed") db).1.documentCards.find? id = some r' ∧
        r'.reviewerStatus = .reviewed ∧ (r'.card = r.card ↔ LastStored (regeneratedDocument site id) between r.card)) ∧
    ∀ r, read.diagramCards.find? id = some r →
      (reviewDiagramCard now cardId (lit "reviewed") db).2 = .ok reply →
      ∃ r', (reviewDiagramCard now cardId (lit "reviewed") db).1.diagramCards.find? id = some r' ∧
        r'.reviewerStatus = .reviewed ∧ (r'.card = r.card ↔ LastStored (regeneratedDiagram site id) between r.card) := by
  constructor
  · intro r hr happroved
    obtain ⟨r₁, hr₁, hcontent⟩ := content_of_run documentCard_moves run hread hr
    obtain ⟨r', hr', hstatus, hcard⟩ := reviewDocumentCard_approves site hid hr₁ happroved
    refine ⟨r', hr', hstatus, ?_⟩
    rw [hcard, hcontent]
    exact getD_eq_iff
  · intro r hr happroved
    obtain ⟨r₁, hr₁, hcontent⟩ := content_of_run diagramCard_moves run hread hr
    obtain ⟨r', hr', hstatus, hcard⟩ := reviewDiagramCard_approves site hid hr₁ happroved
    refine ⟨r', hr', hstatus, ?_⟩
    rw [hcard, hcontent]
    exact getD_eq_iff

/-- The same document, as the model describes it the next time. -/
def Sample.nextCard : DocumentCard Sample.site.host.py where
  toDocumentCardFields :=
    { Sample.documentCard.toDocumentCardFields with method := lit "A deployment in production, without any test." }
  findings_accepted := Sample.documentCard.findings_accepted
  accepted := by decide +kernel
  encodable := by decide +kernel

/-- A card that awaits its review can be approved. -/
theorem reviewDocumentCard_of_awaiting (now : ℕ) {id : Uuid} {r : DocumentCardRow}
    (hr : db.documentCards.find? id = some r) (hawaiting : r.reviewerStatus = .needsReview) :
    (reviewDocumentCard now (uuidText id) (lit "reviewed") db).2 = .ok (uuidText id) := by
  have hid : r.id = id := Table.key_of_find? hr
  have hdecision : decisionStatus (lit "reviewed") = some .reviewed := rfl
  simp only [reviewDocumentCard, hdecision, statement, uuid_uuidText, bind, Except.bind, hr, Option.filter_some, hid,
    hawaiting, decide_true, Bool.and_true, if_true, Option.map_some]
  rfl

/-- A card is read, and generated again before its approval. -/
theorem Sample.exists_reread :
    ∃ (call : Call Sample.site.host.py) (before : History Database (Call Sample.site.host.py)) (read db : Database)
      (r r₁ : DocumentCardRow), (corpus Sample.site).Run ([(read, call)] ++ before) db ∧
        (corpus Sample.site).Run before read ∧ read.documentCards.find? 5 = some r ∧
        db.documentCards.find? 5 = some r₁ ∧ r₁.reviewerStatus = .needsReview ∧ r₁.card ≠ r.card := by
  obtain ⟨h, db, run, htest⟩ := System.exists_run (corpus Sample.site)
    (Sample.acquire ++ [.persistDocumentCard 5 50 Sample.documentCard, .persistDocumentCard 6 55 Sample.nextCard])
    (fun h (db : Database) => h.head?.any fun x => (x.1.documentCards.find? 5).any fun r =>
      (db.documentCards.find? 5).any fun r₁ => r₁.reviewerStatus = .needsReview && r₁.card ≠ r.card)
    (by decide +kernel)
  obtain ⟨x, hx, htest⟩ := (Option.any_eq_true _ _).mp htest
  obtain ⟨r, hr, htest⟩ := (Option.any_eq_true _ _).mp htest
  obtain ⟨r₁, hr₁, htest⟩ := (Option.any_eq_true _ _).mp htest
  obtain ⟨hawaiting, hcontent⟩ := Bool.and_eq_true_iff.mp htest
  obtain ⟨before, rfl⟩ := List.head?_eq_some_iff.mp hx
  obtain ⟨_, hread, -, -⟩ := run.split (List.nil_append (x :: before)).symm
  exact ⟨x.2, before, x.1, db, r, r₁, run, hread, hr, hr₁, of_decide_eq_true hawaiting, of_decide_eq_true hcontent⟩

/-- A run in which a card is read, generated again and approved. -/
theorem approved_content_iff_reread :
    ∃ (between before : History Database (Call Sample.site.host.py)) (read db : Database) (r r' : DocumentCardRow),
      (corpus Sample.site).Run (between ++ before) db ∧ (corpus Sample.site).Run before read ∧
        read.documentCards.find? 5 = some r ∧ r'.reviewerStatus = .reviewed ∧
        (r'.card = r.card ↔ LastStored (regeneratedDocument Sample.site 5) between r.card) := by
  obtain ⟨call, before, read, db, r, r₁, run, hread, hr, hr₁, hawaiting, -⟩ := Sample.exists_reread
  have happroved := reviewDocumentCard_of_awaiting 60 hr₁ hawaiting
  obtain ⟨r', -, hstatus, hiff⟩ :=
    (approved_content_iff run hread (uuid_uuidText 5) 60 (uuidText 5)).1 r hr happroved
  exact ⟨[(read, call)], before, read, db, r, r', run, hread, hr, hstatus, hiff⟩

/-- A reviewer can approve what nobody has read. -/
theorem unread_content_approved :
    ¬∀ (site : Site) (between before : History Database (Call site.host.py)) (read db : Database),
      (corpus site).Run (between ++ before) db → (corpus site).Run before read →
      ∀ (cardId : Str) (id : Uuid), uuid cardId = some id → ∀ (now : ℕ) (reply : Str) (r : DocumentCardRow),
        read.documentCards.find? id = some r → (reviewDocumentCard now cardId (lit "reviewed") db).2 = .ok reply →
          ∀ r', (reviewDocumentCard now cardId (lit "reviewed") db).1.documentCards.find? id = some r' →
            r'.card = r.card := by
  intro claimed
  obtain ⟨call, before, read, db, r, r₁, run, hread, hr, hr₁, hawaiting, hcontent⟩ := Sample.exists_reread
  have happroved := reviewDocumentCard_of_awaiting 60 hr₁ hawaiting
  obtain ⟨r', hr', -, hcard⟩ := reviewDocumentCard_approves Sample.site (uuid_uuidText 5) hr₁ happroved
  have hsame := claimed Sample.site _ before read db run hread (uuidText 5) 5 (uuid_uuidText 5) 60 _ r hr happroved r' hr'
  exact hcontent (hcard.symm.trans hsame)

end NeuroLab.Research
