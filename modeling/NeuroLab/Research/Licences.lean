import NeuroLab.Research.Sample

/-!
# Licence evidence before full texts

Every stored document should rest on a licence receipt of the same source: the licence page
for arXiv, the publisher's page for F1000Research. Receipts are never lost, but the
operation that stores a document does not look for one. The property holds throughout a
run exactly when every document stored found its receipt there.
-/

namespace NeuroLab.Research

open Python Common Postgres

variable {site : Site} {db db' : Database}

/-- The licence evidence a document calls for. -/
def Evidence (db : Database) (d : DocumentRow) : Prop :=
  match d.provider with
  | .arxiv => ∃ k r, db.licenseReceipts.find? k = some r ∧ r.sourceKey = d.sourceKey ∧ r.licenseId = d.licenseId
  | .f1000research => ∃ k r, db.publisherReceipts.find? k = some r ∧ r.sourceKey = d.sourceKey ∧ r.licenseId = .ccBy

/-- Every stored document has its licence evidence. -/
def Licensed (db : Database) : Prop := ∀ k d, db.documents.find? k = some d → Evidence db d

/-- The document a full-text receipt stores: the row passes the constraints, its source is known, and neither
its PDF nor its id is stored yet. -/
def newlyStored (db : Database) (id : Uuid) (now : ℕ) (receipt : FullTextReceipt) : Option DocumentRow :=
  (newDocument id now receipt).filter fun row =>
    (db.sources.find? row.sourceKey).isSome && (db.documents.taken? row.receiptKey).isNone &&
      (db.documents.find? row.id).isNone

/-- A document is stored only where its licence evidence is found. -/
def EvidenceFirst (db : Database) : Call site.host.py → Prop
  | .persistFulltextReceipt id now receipt => ∀ row, newlyStored db id now receipt = some row → Evidence db row
  | _ => True

/-- Evidence depends on the two tables of receipts, which only grow. -/
theorem Evidence.mono {d : DocumentRow} (h : Evidence db d)
    (hlicense : ∀ k r, db.licenseReceipts.find? k = some r → ∃ r', db'.licenseReceipts.find? k = some r' ∧
      r'.sourceKey = r.sourceKey ∧ r'.licenseId = r.licenseId)
    (hpublisher : ∀ k r, db.publisherReceipts.find? k = some r → ∃ r', db'.publisherReceipts.find? k = some r' ∧
      r'.sourceKey = r.sourceKey ∧ r'.licenseId = r.licenseId) : Evidence db' d := by
  unfold Evidence at h ⊢
  split at h
  · obtain ⟨k, r, hr, hkey, hlicence⟩ := h
    obtain ⟨r', hr', hkey', hlicence'⟩ := hlicense k r hr
    exact ⟨k, r', hr', hkey'.trans hkey, hlicence'.trans hlicence⟩
  · obtain ⟨k, r, hr, hkey, hlicence⟩ := h
    obtain ⟨r', hr', hkey', hlicence'⟩ := hpublisher k r hr
    exact ⟨k, r', hr', hkey'.trans hkey, hlicence'.trans hlicence⟩

/-- A receipt that stores a new document leaves it in the table. -/
theorem stored_of_newlyStored {id : Uuid} {now : ℕ} {receipt : FullTextReceipt} {row : DocumentRow}
    (h : newlyStored db id now receipt = some row) :
    ∃ documents, (persistFulltextReceipt id now receipt db).1 = { db with documents } ∧
      documents.find? row.id = some row := by
  obtain ⟨hrow, hsel⟩ := Option.filter_eq_some_iff.mp h
  simp only [Bool.and_eq_true, Option.isNone_iff_eq_none] at hsel
  obtain ⟨⟨hsource, htaken⟩, hfree⟩ := hsel
  obtain ⟨source, hsource⟩ := Option.isSome_iff_exists.mp hsource
  obtain ⟨documents, hupsert, hfind⟩ := db.documents.upsert_of_free (fun _ => true)
    (fun r => { r with acquiredAt := now, extractionStatus := row.extractionStatus }) (fun _ => rfl) (fun _ => rfl)
    hfree htaken
  refine ⟨documents, ?_, ?_⟩
  · refine congrArg Prod.fst (transaction_of_ok (a := uuidText row.id) ?_)
    refine bind_eq_ok_iff.mpr ⟨row, statement_eq_ok_iff.mpr hrow, ?_⟩
    refine bind_eq_ok_iff.mpr ⟨source, statement_eq_ok_iff.mpr hsource, ?_⟩
    exact bind_eq_ok_iff.mpr ⟨(documents, some row), statement_eq_ok_iff.mpr hupsert, rfl⟩
  · rw [hfind, if_pos rfl]

/-- One call keeps every document licensed exactly if it stores one only where its evidence is found. -/
theorem licensed_step {call : Call site.host.py} (h : Licensed db) (hstep : (corpus site).step db call = some db') :
    Licensed db' ↔ EvidenceFirst db call := by
  constructor
  · intro h'
    cases call with
    | persistFulltextReceipt id now receipt =>
      intro row hrow
      obtain ⟨documents, hstored, hfound⟩ := stored_of_newlyStored hrow
      have hdb : { db with documents } = db' := hstored.symm.trans (Option.some.inj hstep)
      subst hdb
      exact h' row.id row hfound
    | _ => trivial
  · intro hfirst k d hd
    obtain ⟨reply, heffect⟩ := effect_of_step hstep
    cases heffect with
    | raised => exact h k d hd
    | run hassessments _ _ hfold =>
      rw [(ingested_of_run hassessments hfold).frame] at hd ⊢
      exact h k d hd
    | @document id now receipt row r documents hrow hsource hupserted =>
      cases hupserted with
      | updated htaken _ hfind =>
        replace hd : documents.find? k = some d := hd
        rw [hfind] at hd
        split at hd
        · cases hd
          have hold := h _ _ (Indexed.taken?_eq_some htaken).1
          exact hold
        · exact h k d hd
      | inserted htaken hfree hfind =>
        replace hd : documents.find? k = some d := hd
        rw [hfind] at hd
        split at hd
        · cases hd
          refine hfirst d (Option.filter_eq_some_iff.mpr ⟨hrow, ?_⟩)
          simp [hsource, htaken, hfree]
        · exact h k d hd
    | license _ _ hupserted =>
      refine (h k d hd).mono (fun k r hr => ?_) fun k r hr => ⟨r, hr, rfl, rfl⟩
      rcases hupserted.kept_or_set hr with hr | hr
      · exact ⟨_, hr, rfl, rfl⟩
      · exact ⟨_, hr, rfl, rfl⟩
    | publisher _ _ hupserted =>
      refine (h k d hd).mono (fun k r hr => ⟨r, hr, rfl, rfl⟩) fun k r hr => ?_
      rcases hupserted.kept_or_set hr with hr | hr
      · exact ⟨_, hr, rfl, rfl⟩
      · exact ⟨_, hr, rfl, rfl⟩
    | claim => exact h k d hd
    | artifact => exact h k d hd
    | documentCard => exact h k d hd
    | documentReview => exact h k d hd
    | diagramCard => exact h k d hd
    | diagramReview => exact h k d hd

/-- Throughout a run every document is licensed, exactly if each document stored found its evidence. -/
theorem licensed_iff_evidence_first {h : History Database (Call site.host.py)} (run : (corpus site).Run h db) :
    System.AllStates Licensed h db ↔ System.AllSteps EvidenceFirst h :=
  run.allStates_iff_allSteps (fun _ _ hd => nomatch hd) fun _ _ _ _ _ hlicensed hstep => licensed_step hlicensed hstep

/-- A run that stores the licence receipt before the document. -/
theorem licensed_iff_evidence_first_licensed :
    ∃ (h : History Database (Call Sample.site.host.py)) (db : Database), (corpus Sample.site).Run h db ∧
      (db.documents.rows.length = 1 ∧ (System.AllStates Licensed h db ↔ System.AllSteps EvidenceFirst h)) := by
  obtain ⟨h, db, run, htest⟩ := System.exists_run (corpus Sample.site)
    [.persistRun 1 10 Sample.run (lit "runs/1.json"), .persistLicenseReceipt 3 Sample.license,
      .persistFulltextReceipt 2 20 Sample.fullText]
    (fun _ (db : Database) => decide (db.documents.rows.length = 1)) (by decide +kernel)
  exact ⟨h, db, run, of_decide_eq_true htest, licensed_iff_evidence_first run⟩

/-- Nothing keeps a document from being stored without any licence receipt. -/
theorem document_without_licence :
    ∃ (h : History Database (Call Sample.site.host.py)) (db : Database), (corpus Sample.site).Run h db ∧
      ¬Licensed db := by
  obtain ⟨h, db, run, htest⟩ := System.exists_run (corpus Sample.site) Sample.acquire
    (fun _ (db : Database) => (db.documents.find? 2).any (fun d => d.provider = .arxiv) &&
      db.licenseReceipts.rows.isEmpty) (by decide +kernel)
  obtain ⟨hdocument, hempty⟩ := Bool.and_eq_true_iff.mp htest
  obtain ⟨d, hd, harxiv⟩ := (Option.any_eq_true _ _).mp hdocument
  refine ⟨h, db, run, fun hlicensed => ?_⟩
  have hevidence := hlicensed 2 d hd
  rw [Evidence, of_decide_eq_true harxiv] at hevidence
  obtain ⟨k, r, hr, -⟩ := hevidence
  have hmem := ((db.licenseReceipts.find?_eq_some_iff k r).mp hr).1
  rw [List.isEmpty_iff.mp hempty] at hmem
  cases hmem

end NeuroLab.Research
