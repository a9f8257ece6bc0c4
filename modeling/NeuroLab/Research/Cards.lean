import NeuroLab.Research.Sample

/-!
# The life of a card

A card is generated, perhaps again, while it awaits review; a review decides it once, and
from then on no call changes any of its columns. What is stored with it, the card, its
digest and the digest of the document, belongs together in every state, and the packet for
the specification generator is made of reviewed cards.
-/

namespace NeuroLab.Research

open Python Common Postgres

variable {site : Site} {db db' : Database}

/-! ## Tables of cards -/

section Tables

variable {ρ ι : Type} {key : ρ → Uuid} {alt : ρ → ι} [DecidableEq ι] {status : ρ → ReviewerStatus}
  {decides : Uuid → ReviewerStatus → Prop} {t t' : Indexed key alt}

/-- What may happen to a table of cards: a decided card stays as it is, and only a review of its own
decides one. -/
def CardsMove (status : ρ → ReviewerStatus) (decides : Uuid → ReviewerStatus → Prop) (t t' : Indexed key alt) : Prop :=
  ∀ id r, t.find? id = some r → ∃ r', t'.find? id = some r' ∧ (status r ≠ .needsReview → r' = r) ∧
    (status r = .needsReview → status r' ≠ .needsReview → decides id (status r'))

omit [DecidableEq ι] in
/-- Nothing may happen. -/
theorem CardsMove.refl (t : Indexed key alt) : CardsMove status decides t t :=
  fun _ r hr => ⟨r, hr, fun _ => rfl, fun hawaiting hdecided => absurd hawaiting hdecided⟩

/-- A card may be generated, or generated again while it awaits review. -/
theorem CardsMove.of_upserted {row : ρ} {set : ρ → ρ} {stored : Option ρ}
    (h : Indexed.Upserted t row (fun r => decide (status r = .needsReview)) set t' stored)
    (hset : ∀ r, status (set r) = .needsReview) : CardsMove status decides t t' := by
  intro id r hr
  by_cases hawaiting : status r = .needsReview
  · rcases h.kept_or_set hr with hr' | hr'
    · exact ⟨r, hr', fun _ => rfl, fun h hdecided => absurd h hdecided⟩
    · exact ⟨set r, hr', fun hdecided => absurd hawaiting hdecided, fun _ hdecided => absurd (hset r) hdecided⟩
  · exact ⟨r, h.kept_of_not_sel hr (decide_eq_false hawaiting), fun _ => rfl, fun h => absurd h hawaiting⟩

omit [DecidableEq ι] in
/-- A card that awaits review may be decided. -/
theorem CardsMove.of_review {id : Uuid} {r r₁ : ρ} (hr : t.find? id = some r) (hawaiting : status r = .needsReview)
    (hfind : ∀ k, t'.find? k = if id = k then some r₁ else t.find? k) (hdecides : decides id (status r₁)) :
    CardsMove status decides t t' := by
  intro k r' hr'
  by_cases hk : id = k
  · subst hk
    cases hr.symm.trans hr'
    exact ⟨r₁, (hfind id).trans (if_pos rfl), fun hdecided => absurd hawaiting hdecided, fun _ _ => hdecides⟩
  · exact ⟨r', (hfind k).trans ((if_neg hk).trans hr'), fun _ => rfl, fun h hdecided => absurd h hdecided⟩

omit [DecidableEq ι] in
/-- Under calls that move a table so, a decided card is the same row ever after. -/
theorem card_kept {table : Database → Indexed key alt} {decides : Call site.host.py → Uuid → ReviewerStatus → Prop}
    (moves : ∀ {db db' : Database} {call : Call site.host.py} {reply : Except Raised Str},
      Effect site db call (db', reply) → CardsMove status (decides call) (table db) (table db'))
    {h : History Database (Call site.host.py)} (run : (corpus site).Run h db) :
    ∀ x ∈ h, ∀ id r, (table x.1).find? id = some r → status r ≠ .needsReview → (table db).find? id = some r := by
  induction run with
  | start => exact fun x hx => nomatch hx
  | @step h s s' call run hstep ih =>
    intro x hx id r hr hdecided
    have hs : (table s).find? id = some r := by
      rcases List.mem_cons.mp hx with rfl | hx
      · exact hr
      · exact ih x hx id r hr hdecided
    obtain ⟨reply, heffect⟩ := effect_of_step hstep
    obtain ⟨r', hr', hkept, -⟩ := moves heffect id r hs
    rw [hr', hkept hdecided]

end Tables

/-! ## One call -/

/-- A call reviews a document card. -/
def DecidesDocument (call : Call site.host.py) (id : Uuid) (status : ReviewerStatus) : Prop :=
  ∃ now cardId decision, call = .reviewDocumentCard now cardId decision ∧ uuid cardId = some id ∧
    decisionStatus decision = some status

/-- A call reviews a diagram card. -/
def DecidesDiagram (call : Call site.host.py) (id : Uuid) (status : ReviewerStatus) : Prop :=
  ∃ now cardId decision, call = .reviewDiagramCard now cardId decision ∧ uuid cardId = some id ∧
    decisionStatus decision = some status

/-- What a call may do to the document cards. -/
def DocumentCardsMove (db : Database) (call : Call site.host.py) (db' : Database) : Prop :=
  CardsMove DocumentCardRow.reviewerStatus (DecidesDocument call) db.documentCards db'.documentCards

/-- What a call may do to the diagram cards. -/
def DiagramCardsMove (db : Database) (call : Call site.host.py) (db' : Database) : Prop :=
  CardsMove DiagramCardRow.reviewerStatus (DecidesDiagram call) db.diagramCards db'.diagramCards

/-- Every call moves the document cards as it may. -/
theorem documentCards_move {call : Call site.host.py} {reply : Except Raised Str}
    (h : Effect site db call (db', reply)) : DocumentCardsMove db call db' := by
  cases h with
  | run hassessments _ _ hfold =>
    rw [(ingested_of_run hassessments hfold).frame]
    exact .refl _
  | documentCard _ _ _ hupserted => exact .of_upserted hupserted fun _ => rfl
  | documentReview hdecision hid hr hawaiting hfind => exact .of_review hr hawaiting hfind ⟨_, _, _, rfl, hid, hdecision⟩
  | _ => exact .refl _

/-- Every call moves the diagram cards as it may. -/
theorem diagramCards_move {call : Call site.host.py} {reply : Except Raised Str}
    (h : Effect site db call (db', reply)) : DiagramCardsMove db call db' := by
  cases h with
  | run hassessments _ _ hfold =>
    rw [(ingested_of_run hassessments hfold).frame]
    exact .refl _
  | diagramCard _ _ _ _ hupserted => exact .of_upserted hupserted fun _ => rfl
  | diagramReview hdecision hid hr hawaiting hfind => exact .of_review hr hawaiting hfind ⟨_, _, _, rfl, hid, hdecision⟩
  | _ => exact .refl _

/-! ## What is stored together -/

/-- A stored card: the text of one card gave both the column and the digest, and the card names the
digest of its document. -/
def StoredFrom (site : Site) (db : Database) (documentId : Uuid) (asdict : Fields) (card : Json) (digest : Str) : Prop :=
  site.server.jsonb (.obj asdict) = some card ∧ cardSha256 (dumpsSorted site.host.py.floatRepr (.obj asdict)) = some digest ∧
    ∃ document fields, db.documents.find? documentId = some document ∧ card = .obj fields ∧
      get? fields (lit "document_sha256") = some (.str document.pdfSha256)

/-- The columns of a document card belong together. -/
def DocumentCardSound (site : Site) (db : Database) (r : DocumentCardRow) : Prop :=
  (r.reviewedAt = none ↔ r.reviewerStatus = .needsReview) ∧
    ∃ card : DocumentCard site.host.py, StoredFrom site db r.documentId card.asdict r.card r.cardSha256

/-- The columns of a diagram card belong together. -/
def DiagramCardSound (site : Site) (db : Database) (r : DiagramCardRow) : Prop :=
  (r.reviewedAt = none ↔ r.reviewerStatus = .needsReview) ∧
    ∃ card : DiagramCard, StoredFrom site db r.documentId card.asdict r.card r.cardSha256

/-- The columns of every card belong together. -/
structure CardsSound (site : Site) (db : Database) : Prop where
  document : ∀ id r, db.documentCards.find? id = some r → DocumentCardSound site db r
  diagram : ∀ id r, db.diagramCards.find? id = some r → DiagramCardSound site db r

/-- The documents of a card stay, so what was stored with it does. -/
theorem StoredFrom.mono {call : Call site.host.py} {reply : Except Raised Str} (heffect : Effect site db call (db', reply))
    {documentId : Uuid} {asdict : Fields} {card : Json} {digest : Str}
    (h : StoredFrom site db documentId asdict card digest) : StoredFrom site db' documentId asdict card digest := by
  obtain ⟨hcard, hdigest, document, fields, hdocument, hfields, hname⟩ := h
  obtain ⟨acquiredAt, extractionStatus, hdocument'⟩ := document_kept heffect hdocument
  exact ⟨hcard, hdigest, _, fields, hdocument', hfields, hname⟩

/-- A card stored against its exact document names that document's digest. -/
theorem storedFrom_of_jsonb {documentId : Uuid} {asdict : Fields} {card : Json} {digest : Str} {document : DocumentRow}
    (hnodup : (asdict.map Prod.fst).Nodup) (hcard : site.server.jsonb (.obj asdict) = some card)
    (hdigest : cardSha256 (dumpsSorted site.host.py.floatRepr (.obj asdict)) = some digest)
    (hdocument : db.documents.find? documentId = some document)
    (hname : get? asdict (lit "document_sha256") = some (.str document.pdfSha256)) :
    StoredFrom site db documentId asdict card digest := by
  obtain ⟨fields, hfields, htexts⟩ := site.server.jsonb_texts asdict card hnodup hcard
  exact ⟨hcard, hdigest, document, fields, hdocument, hfields, htexts _ _ hname⟩

/-- The columns of a new document card. -/
theorem newDocumentCard_eq_some {py : Interpreter} {server : Server} {id documentId : Uuid} {now : ℕ}
    {card : DocumentCard py} {row : DocumentCardRow} (h : newDocumentCard py server id documentId now card = some row) :
    server.jsonb (.obj card.asdict) = some row.card ∧ cardSha256 (card.asJson py) = some row.cardSha256 ∧
      row.documentId = documentId ∧ row.reviewerStatus = .needsReview ∧ row.reviewedAt = none := by
  simp only [newDocumentCard, Option.bind_eq_bind, Option.bind_eq_some_iff] at h
  obtain ⟨_, -, stored, hstored, digest, hdigest, h⟩ := h
  split at h
  · cases h
    exact ⟨hstored, hdigest, rfl, rfl, rfl⟩
  · cases h

/-- The columns of a new diagram card. -/
theorem newDiagramCard_eq_some {py : Interpreter} {server : Server} {id documentId : Uuid} {now : ℕ}
    {card : DiagramCard} {row : DiagramCardRow} (h : newDiagramCard py server id documentId now card = some row) :
    server.jsonb (.obj card.asdict) = some row.card ∧ cardSha256 (card.asJson py) = some row.cardSha256 ∧
      row.documentId = documentId ∧ row.reviewerStatus = .needsReview ∧ row.reviewedAt = none := by
  simp only [newDiagramCard, Option.bind_eq_bind, Option.bind_eq_some_iff] at h
  obtain ⟨_, -, stored, hstored, digest, hdigest, h⟩ := h
  split at h
  · cases h
    exact ⟨hstored, hdigest, rfl, rfl, rfl⟩
  · cases h

/-- The members of a document card have distinct names, and one of them is the digest of the document. -/
theorem DocumentCardFields.asdict_names (card : DocumentCardFields) :
    (card.asdict.map Prod.fst).Nodup ∧ get? card.asdict (lit "document_sha256") = some (.str card.documentSha256) := by
  constructor
  · simp only [asdict, List.map_cons, List.map_nil]
    decide +kernel
  · rfl

/-- The members of a diagram card have distinct names, and one of them is the digest of the document. -/
theorem DiagramCardFields.asdict_names (card : DiagramCardFields) :
    (card.asdict.map Prod.fst).Nodup ∧ get? card.asdict (lit "document_sha256") = some (.str card.documentSha256) := by
  constructor
  · simp only [asdict, List.map_cons, List.map_nil]
    decide +kernel
  · rfl

/-- The document that was selected is stored. -/
theorem selectDocument_eq_some {documentId : Uuid} {sourceKey : Str} {d : DocumentRow}
    (h : selectDocument db documentId sourceKey = some d) :
    db.documents.find? documentId = some d ∧ char64 sourceKey = some d.sourceKey := by
  obtain ⟨hd, hkey⟩ := Option.filter_eq_some_iff.mp h
  exact ⟨hd, of_decide_eq_true hkey⟩

/-- A review sets the time and a status that is decided. -/
theorem decisionStatus_ne {decision : Str} {status : ReviewerStatus} (h : decisionStatus decision = some status) :
    status ≠ .needsReview := by
  unfold decisionStatus at h
  split at h
  · cases h
    exact nofun
  · split at h
    · cases h
      exact nofun
    · cases h

/-- Every call keeps the document cards sound. -/
theorem documentCard_sound {call : Call site.host.py} {reply : Except Raised Str}
    (heffect : Effect site db call (db', reply))
    (h : ∀ id r, db.documentCards.find? id = some r → DocumentCardSound site db r) :
    ∀ id r, db'.documentCards.find? id = some r → DocumentCardSound site db' r := by
  have keep : ∀ id r, db.documentCards.find? id = some r → DocumentCardSound site db' r := by
    intro id r hr
    obtain ⟨hreviewed, card, hstored⟩ := h id r hr
    exact ⟨hreviewed, card, hstored.mono heffect⟩
  cases heffect with
  | run hassessments _ _ hfold =>
    rw [(ingested_of_run hassessments hfold).frame] at keep ⊢
    exact keep
  | @documentCard _ _ _ card _ row _ cards hdocument hdigest hrow hupserted =>
    obtain ⟨hcard, hsha, hid, hstatus, hreviewed⟩ := newDocumentCard_eq_some hrow
    have hnames := card.asdict_names
    rw [← hdigest] at hnames
    have hstored : StoredFrom site { db with documentCards := cards } _ card.asdict row.card row.cardSha256 :=
      storedFrom_of_jsonb hnames.1 hcard hsha (selectDocument_eq_some hdocument).1 hnames.2
    rw [← hid] at hstored
    refine hupserted.forall keep ⟨iff_of_true hreviewed hstatus, card, hstored⟩ fun old htaken => ?_
    have hversion : old.documentId = row.documentId := congrArg Prod.fst (Indexed.taken?_eq_some htaken).2
    rw [← hversion] at hstored
    exact ⟨iff_of_true rfl rfl, card, hstored⟩
  | @documentReview _ _ _ _ _ _ cards hdecision _ hr₀ _ hfind =>
    intro id r hr
    replace hr : cards.find? id = some r := hr
    rw [hfind] at hr
    split at hr
    · cases hr
      obtain ⟨-, card, hstored⟩ := keep _ _ hr₀
      exact ⟨iff_of_false (Option.some_ne_none _) (decisionStatus_ne hdecision), card, hstored⟩
    · exact keep id r hr
  | _ => exact keep

/-- Every call keeps the diagram cards sound. -/
theorem diagramCard_sound {call : Call site.host.py} {reply : Except Raised Str}
    (heffect : Effect site db call (db', reply))
    (h : ∀ id r, db.diagramCards.find? id = some r → DiagramCardSound site db r) :
    ∀ id r, db'.diagramCards.find? id = some r → DiagramCardSound site db' r := by
  have keep : ∀ id r, db.diagramCards.find? id = some r → DiagramCardSound site db' r := by
    intro id r hr
    obtain ⟨hreviewed, card, hstored⟩ := h id r hr
    exact ⟨hreviewed, card, hstored.mono heffect⟩
  cases heffect with
  | run hassessments _ _ hfold =>
    rw [(ingested_of_run hassessments hfold).frame] at keep ⊢
    exact keep
  | @diagramCard _ _ _ card _ row _ cards hdocument hdigest _ hrow hupserted =>
    obtain ⟨hcard, hsha, hid, hstatus, hreviewed⟩ := newDiagramCard_eq_some hrow
    have hnames := card.asdict_names
    rw [← hdigest] at hnames
    have hstored : StoredFrom site { db with diagramCards := cards } _ card.asdict row.card row.cardSha256 :=
      storedFrom_of_jsonb hnames.1 hcard hsha (selectDocument_eq_some hdocument).1 hnames.2
    rw [← hid] at hstored
    refine hupserted.forall keep ⟨iff_of_true hreviewed hstatus, card, hstored⟩ fun old htaken => ?_
    have hversion : old.documentId = row.documentId := congrArg Prod.fst (Indexed.taken?_eq_some htaken).2
    rw [← hversion] at hstored
    exact ⟨iff_of_true rfl rfl, card, hstored⟩
  | @diagramReview _ _ _ _ _ _ cards hdecision _ hr₀ _ hfind =>
    intro id r hr
    replace hr : cards.find? id = some r := hr
    rw [hfind] at hr
    split at hr
    · cases hr
      obtain ⟨-, card, hstored⟩ := keep _ _ hr₀
      exact ⟨iff_of_false (Option.some_ne_none _) (decisionStatus_ne hdecision), card, hstored⟩
    · exact keep id r hr
  | _ => exact keep

/-- The cards are sound in every state of a run. -/
theorem cardsSound_of_run {h : History Database (Call site.host.py)} (run : (corpus site).Run h db) :
    CardsSound site db := by
  refine run.invariant ⟨fun _ _ h => (nomatch h), fun _ _ h => (nomatch h)⟩ fun s call s' hs hstep => ?_
  obtain ⟨reply, heffect⟩ := effect_of_step hstep
  exact ⟨documentCard_sound heffect hs.document, diagramCard_sound heffect hs.diagram⟩

/-! ## The packet -/

/-- The entry of a card carries its id. -/
def Identifies (entry : Json) (id : Uuid) : Prop :=
  ∃ fields, entry = .obj fields ∧ get? fields (lit "card_id") = some (.str (uuidText id))

/-- What a packet shows: reviewed cards only. -/
def PacketOfReviewed (db : Database) (cards diagrams : List Json) : Prop :=
  (∀ entry ∈ cards, ∃ id r, db.documentCards.find? id = some r ∧ r.reviewerStatus = .reviewed ∧ Identifies entry id) ∧
    ∀ entry ∈ diagrams, ∃ id r, db.diagramCards.find? id = some r ∧ r.reviewerStatus = .reviewed ∧ Identifies entry id

/-- The latest entries are among the entries. -/
theorem mem_latest {most : ℕ} {entries : List ((Option ℕ × ℕ) × Json)} {entry : Json} (h : entry ∈ latest most entries) :
    ∃ times, (times, entry) ∈ entries := by
  obtain ⟨⟨times, entry'⟩, hmem, rfl⟩ := List.mem_map.mp h
  exact ⟨times, (List.perm_insertionSort _ entries).mem_iff.mp (List.mem_of_mem_take hmem)⟩

/-- The entries of the packet are reviewed cards. -/
theorem packetEntries_reviewed (most : ℕ) (db : Database) :
    PacketOfReviewed db (packetEntries most db).1 (packetEntries most db).2 := by
  constructor
  · intro entry hentry
    obtain ⟨times, hmem⟩ := mem_latest hentry
    obtain ⟨r, hr, hrow⟩ := List.mem_filterMap.mp hmem
    unfold documentEntry at hrow
    split at hrow
    · next hreviewed =>
      simp only [Option.bind_eq_bind, Option.bind_eq_some_iff] at hrow
      obtain ⟨source, -, document, -, heq⟩ := hrow
      cases heq
      exact ⟨r.id, r, (db.documentCards.mem_rows_iff r).mp hr, hreviewed, _, rfl, rfl⟩
    · cases hrow
  · intro entry hentry
    obtain ⟨times, hmem⟩ := mem_latest hentry
    obtain ⟨r, hr, hrow⟩ := List.mem_filterMap.mp hmem
    unfold diagramEntry at hrow
    split at hrow
    · next hreviewed =>
      simp only [Option.bind_eq_bind, Option.bind_eq_some_iff] at hrow
      obtain ⟨source, -, document, -, heq⟩ := hrow
      cases heq
      exact ⟨r.id, r, (db.diagramCards.mem_rows_iff r).mp hr, hreviewed, _, rfl, rfl⟩
    · cases hrow

/-- A rendered packet is the text of reviewed cards. -/
theorem renderReviewedCardPacket_eq_ok {py : Interpreter} {maximumCards : ℤ} {text : Str}
    (h : renderReviewedCardPacket py maximumCards db = .ok text) :
    ∃ cards diagrams, text = dumpsSorted py.floatRepr (packet cards diagrams) ++ [0x0A] ∧
      PacketOfReviewed db cards diagrams := by
  refine ⟨(packetEntries maximumCards.toNat db).1, (packetEntries maximumCards.toNat db).2, ?_,
    packetEntries_reviewed _ _⟩
  unfold renderReviewedCardPacket at h
  split at h
  · simp only at h
    split at h
    · cases h
    split at h
    · cases h
    split at h
    · cases h
    · exact (Except.ok.inj h).symm
  · cases h

/-! ## The life cycle -/

/-- In every run of calls in any order: a card is decided only by a review of its own kind that names it,
and keeps every column afterwards; a call that raises changes no row; the review time is set exactly on
decided cards; every card was stored from one text together with its digest and names the digest of its
document; and a packet rendered from any state shows reviewed cards only. -/
theorem card_lifecycle {h : History Database (Call site.host.py)} (run : (corpus site).Run h db) :
    (∀ x ∈ h, DocumentCardsMove x.1 x.2 (x.2.run site x.1).1 ∧ DiagramCardsMove x.1 x.2 (x.2.run site x.1).1 ∧
      ∀ e, (x.2.run site x.1).2 = .error e → (x.2.run site x.1).1 = x.1) ∧
    (∀ x ∈ h,
      (∀ id r, x.1.documentCards.find? id = some r → r.reviewerStatus ≠ .needsReview →
        db.documentCards.find? id = some r) ∧
      ∀ id r, x.1.diagramCards.find? id = some r → r.reviewerStatus ≠ .needsReview →
        db.diagramCards.find? id = some r) ∧
    System.AllStates (CardsSound site) h db ∧
    ∀ maximumCards text, renderReviewedCardPacket site.host.py maximumCards db = .ok text →
      ∃ cards diagrams, text = dumpsSorted site.host.py.floatRepr (packet cards diagrams) ++ [0x0A] ∧
        PacketOfReviewed db cards diagrams := by
  refine ⟨fun x _ => ⟨?_, ?_, fun e he => unchanged_of_raised he⟩, fun x hx => ⟨?_, ?_⟩, ?_, fun _ _ hrender => ?_⟩
  · exact documentCards_move (effect_of_run x.2)
  · exact diagramCards_move (effect_of_run x.2)
  · exact card_kept documentCards_move run x hx
  · exact card_kept diagramCards_move run x hx
  · exact System.Run.allStates (fun _ _ run => cardsSound_of_run run) run
  · exact renderReviewedCardPacket_eq_ok hrender

/-- A run with a card that is generated, reviewed and rendered. -/
theorem card_lifecycle_reviewed :
    ∃ (h : History Database (Call Sample.site.host.py)) (db : Database), (corpus Sample.site).Run h db ∧
      (∃ text, renderReviewedCardPacket Sample.site.host.py 3 db = .ok text) ∧
      ((∀ x ∈ h, DocumentCardsMove x.1 x.2 (x.2.run Sample.site x.1).1 ∧
          DiagramCardsMove x.1 x.2 (x.2.run Sample.site x.1).1 ∧
          ∀ e, (x.2.run Sample.site x.1).2 = .error e → (x.2.run Sample.site x.1).1 = x.1) ∧
        (∀ x ∈ h,
          (∀ id r, x.1.documentCards.find? id = some r → r.reviewerStatus ≠ .needsReview →
            db.documentCards.find? id = some r) ∧
          ∀ id r, x.1.diagramCards.find? id = some r → r.reviewerStatus ≠ .needsReview →
            db.diagramCards.find? id = some r) ∧
        System.AllStates (CardsSound Sample.site) h db ∧
        ∀ maximumCards text, renderReviewedCardPacket Sample.site.host.py maximumCards db = .ok text →
          ∃ cards diagrams, text = dumpsSorted Sample.site.host.py.floatRepr (packet cards diagrams) ++ [0x0A] ∧
            PacketOfReviewed db cards diagrams) := by
  obtain ⟨h, db, run, htest⟩ := System.exists_run (corpus Sample.site)
    (Sample.acquire ++ [.persistDocumentCard 5 50 Sample.documentCard, .reviewDocumentCard 60 (uuidText 5) (lit "reviewed")])
    (fun _ (db : Database) => (renderReviewedCardPacket Sample.site.host.py 3 db).isOk) (by decide +kernel)
  refine ⟨h, db, run, ?_, card_lifecycle run⟩
  cases hrender : renderReviewedCardPacket Sample.site.host.py 3 db with
  | ok text => exact ⟨text, rfl⟩
  | error e =>
    rw [hrender] at htest
    cases htest

end NeuroLab.Research
