import NeuroLab.Research.FullTextCycle
import NeuroLab.Research.Repositories

/-!
# Repositories of reviewed claims

`scripts/verify_public_repository.py` verifies one repository and with `--persist` stores its receipt for a
reviewed claim. Any number of them may run beside each other and beside other scripts, and be killed at any
point: a row of the table always is what a verification returned, and a claim has one row for a repository
as long as it stays as it is.
-/

namespace NeuroLab.Research

open Python Common Postgres

variable {py : Interpreter} {folding : CaseFolding} {transport : Str → Except VerifierError (List ℕ)}
  {request : PublicRepositoryRequest} {receipt : PublicArtifactReceipt}

/-! ## Rows -/

/-- The row of a receipt. -/
def artifactRow (py : Interpreter) (request : PublicRepositoryFields) (content : RepositoryContent) (id claimId : Uuid)
    (now : ℕ) : ArtifactRow where
  id := id
  sourceKey := request.sourceKey
  claimId := claimId
  repository := request.repository
  apiUrl := repositoryUrl request.repository
  htmlUrl := lit "https://github.com/" ++ request.repository
  defaultBranch := content.branch
  codeLicense := content.licence
  evidenceSha256 := sha256 (evidenceText py request.repository content)
  hasReadme := content.paths.any isReadme
  hasTestPaths := content.paths.any isTestPath
  hasEnvironmentManifest := content.paths.any isManifest
  hasDataPaths := content.paths.any isDataPath
  verificationStatus := lit "public_artifact_metadata_verified"
  checkedAt := now

/-- The columns take the receipt of a request as it is, if they take its claim id and its licence. -/
theorem newArtifact_eq (request : PublicRepositoryRequest) {content : RepositoryContent}
    (hbranch : isBranch content.branch = true) (id : Uuid) (now : ℕ) :
    newArtifact id now (artifactReceipt py request.toPublicRepositoryFields content) =
      if storable content.licence then
        (uuid request.claimId).map fun claimId => artifactRow py request.toPublicRepositoryFields content id claimId now
      else none := by
  obtain ⟨hkey, hname⟩ := request.checked
  have hstorable : ∀ {s : Str}, storable s = true → text s = some s := fun h => if_pos h
  have hrepository := (plain_of_name hname).2
  have hbranch : storable content.branch = true := by
    simp only [isBranch, spans, Bool.and_eq_true, List.all_eq_true] at hbranch
    exact (plain_of_repositoryChars hbranch.2).2
  have hapi : storable (repositoryUrl request.repository) = true := by
    have hfront : storable (lit "https://api.github.com") = true ∧ storable (lit "/repos/") = true := by decide +kernel
    rw [repositoryUrl, storable_append, storable_append, hfront.1, hfront.2, hrepository]
    rfl
  have hhtml : storable (lit "https://github.com/" ++ request.repository) = true := by
    have hfront : storable (lit "https://github.com/") = true := by decide +kernel
    rw [storable_append, hfront, hrepository]
    rfl
  have hstatus : storable (lit "public_artifact_metadata_verified") = true := by decide +kernel
  simp only [newArtifact, artifactReceipt, char64_of_isDigest hkey, char64_of_isDigest (isDigest_sha256 _),
    hstorable hrepository, hstorable hapi, hstorable hhtml, hstorable hbranch, hstorable hstatus, Option.bind_eq_bind,
    Option.bind_some]
  cases uuid request.claimId with
  | none => simp
  | some claimId =>
    by_cases hlicence : storable content.licence = true
    · rw [if_pos hlicence, hstorable hlicence, Option.bind_some, Option.bind_some, Option.map_some]
      refine if_pos ?_
      simp only [ArtifactRow.check, isRepository_of_name hname, Bool.and_eq_true, true_and, decide_true, and_true]
      have hurl : repositoryUrl request.repository = lit "https://api.github.com/repos/" ++ request.repository := by
        rw [repositoryUrl, ← List.append_assoc]
        rfl
      exact ⟨hurl ▸ startsWith_append _ _, startsWith_append _ _⟩
    · rw [if_neg hlicence, Option.bind_some, text, if_neg hlicence]
      rfl

/-- What the columns of a new row say of its receipt. -/
theorem newArtifact_artifactReceipt {content : RepositoryContent} (hbranch : isBranch content.branch = true) {id : Uuid}
    {now : ℕ} {row : ArtifactRow}
    (h : newArtifact id now (artifactReceipt py request.toPublicRepositoryFields content) = some row) :
    storable content.licence = true ∧ ∃ claimId, uuid request.claimId = some claimId ∧
      row = artifactRow py request.toPublicRepositoryFields content id claimId now := by
  rw [newArtifact_eq request hbranch] at h
  split at h
  · next hlicence =>
    obtain ⟨claimId, hclaim, hrow⟩ := Option.map_eq_some_iff.mp h
    exact ⟨hlicence, claimId, hclaim, hrow.symm⟩
  · cases h

/-- A digest is stored as it is. -/
theorem text_of_isDigest {s : Str} (h : isDigest s = true) : text s = some s := by
  refine if_pos (List.all_eq_true.mpr fun c hc => ?_)
  have hdigit := (isDigest_iff.mp h).2 c hc
  simp only [isLowerHex, Bool.or_eq_true, Bool.and_eq_true, decide_eq_true_eq] at hdigit
  simp only [Bool.and_eq_true, decide_eq_true_eq, Bool.not_eq_true', Bool.and_eq_false_iff, decide_eq_false_iff_not]
  omega

/-- The receipt of a verification is stored under a fresh id exactly if its licence can be stored and its claim, under the
id that PostgreSQL reads, is a reviewed one of its source: no other check of the table can fail. -/
theorem artifact_stored_iff {db : Database} {id : Uuid} (now : ℕ)
    (h : verifyPublicRepository py folding transport request = .ok receipt)
    (hfresh : db.artifactReceipts.find? id = none) :
    (∃ stored, (persistPublicArtifactReceipt id now receipt db).2 = .ok stored) ↔
      storable receipt.codeLicense = true ∧ ∃ claimId claim, uuid receipt.claimId = some claimId ∧
        db.claims.find? claimId = some claim ∧ claim.sourceKey = receipt.sourceKey ∧ claim.reviewerStatus = .reviewed := by
  obtain ⟨content, metadata, tree, hshown, rfl⟩ := verifyPublicRepository_eq_ok_iff.mp h
  have hkey : char64 request.sourceKey = some request.sourceKey := char64_of_isDigest request.checked.1
  simp only [persistPublicArtifactReceipt, transaction_returns_iff]
  constructor
  · rintro ⟨stored, db', h⟩
    obtain ⟨claimId, hclaim, h⟩ := bind_eq_ok_iff.mp h
    obtain ⟨sourceKey, hsource, h⟩ := bind_eq_ok_iff.mp h
    split at h
    · cases h
    next claim hfound =>
    obtain ⟨row, hrow, -⟩ := bind_eq_ok_iff.mp h
    rw [statement_eq_ok_iff] at hclaim hsource hrow
    obtain ⟨hfound, hselected⟩ := Option.filter_eq_some_iff.mp hfound
    rw [text_eq_some hsource, Bool.and_eq_true, decide_eq_true_eq, decide_eq_true_eq] at hselected
    refine ⟨(newArtifact_artifactReceipt hshown.branch.2 hrow).1, claimId, claim, hclaim, hfound, ?_, hselected.2⟩
    exact (Option.some.inj (hkey.symm.trans hselected.1)).symm
  · rintro ⟨hlicence, claimId, claim, hclaim, hfound, hsource, hreviewed⟩
    replace hlicence : storable content.licence = true := hlicence
    replace hclaim : uuid request.claimId = some claimId := hclaim
    have hrow : newArtifact id now (artifactReceipt py request.toPublicRepositoryFields content) =
        some (artifactRow py request.toPublicRepositoryFields content id claimId now) := by
      rw [newArtifact_eq request hshown.branch.2, if_pos hlicence, hclaim, Option.map_some]
    have hselected : (db.claims.find? claimId).filter (fun c => char64 request.sourceKey = some c.sourceKey &&
        c.reviewerStatus = .reviewed) = some claim := by
      refine Option.filter_eq_some_iff.mpr ⟨hfound, ?_⟩
      rw [hkey, hsource, hreviewed]
      simp [artifactReceipt]
    have hkeyFree : db.artifactReceipts.find?
        (artifactRow py request.toPublicRepositoryFields content id claimId now).id = none := hfresh
    obtain ⟨artifactReceipts, stored, hupsert⟩ := db.artifactReceipts.exists_upsert (fun _ => true)
      (fun r => { r with checkedAt := now }) (fun _ => rfl) (fun _ => rfl) hkeyFree fun _ _ => rfl
    refine ⟨uuidText stored.id, { db with artifactReceipts }, ?_⟩
    refine bind_eq_ok_iff.mpr ⟨claimId, statement_eq_ok_iff.mpr hclaim, ?_⟩
    refine bind_eq_ok_iff.mpr ⟨request.sourceKey, statement_eq_ok_iff.mpr (text_of_isDigest request.checked.1), ?_⟩
    rw [hselected]
    refine bind_eq_ok_iff.mpr ⟨_, statement_eq_ok_iff.mpr hrow, ?_⟩
    refine bind_eq_ok_iff.mpr ⟨_, statement_eq_ok_iff.mpr hupsert, ?_⟩
    exact bind_eq_ok_iff.mpr ⟨stored, rfl, rfl⟩

/-- The repository is stored for the claim that a human reviewed. -/
theorem artifact_stored_iff_reviewed :
    ∃ (h : History Database (Call Sample.site.host.py)) (db : Database) (receipt : PublicArtifactReceipt),
      (corpus Sample.site).Run h db ∧ Sample.verified Sample.tree = .ok receipt ∧
        ((∃ stored, (persistPublicArtifactReceipt 9 90 receipt db).2 = .ok stored) ↔
          storable receipt.codeLicense = true ∧ ∃ claimId claim, uuid receipt.claimId = some claimId ∧
            db.claims.find? claimId = some claim ∧ claim.sourceKey = receipt.sourceKey ∧ claim.reviewerStatus = .reviewed) := by
  obtain ⟨h, db, run, htest⟩ := System.exists_run (corpus Sample.site)
    (Sample.acquire ++ [.persistReviewedClaim 7 70 (Sample.claim .human)])
    (fun _ (db : Database) => decide (db.artifactReceipts.find? 9 = none)) (by decide +kernel)
  obtain ⟨receipt, hreceipt⟩ := Sample.exists_receipt List.mem_cons_self
  exact ⟨h, db, receipt, run, hreceipt, artifact_stored_iff 90 hreceipt (of_decide_eq_true htest)⟩

/-! ## The script -/

namespace RepositoryScripts

/-- The arguments of `verify_public_repository.py`. -/
structure Arguments extends PublicRepositoryFields where
  persist : Bool

/-- A command of the repository on the corpus; one that ends may name a receipt that it says is stored. -/
abbrev Script (py : Interpreter) := Command (Call py) Str (Option PublicArtifactReceipt)

/-- The receipt of `verify_public_repository.py`, once it is in the output file. -/
def writtenReceipt (py : Interpreter) (folding : CaseFolding) (transport : Str → Except VerifierError (List ℕ))
    (written : Except PyExc Unit) (arguments : Arguments) : Except VerifierError PublicArtifactReceipt := do
  let accepted ← accept arguments.toPublicRepositoryFields.checks
  let receipt ← verifyPublicRepository py folding transport ⟨arguments.toPublicRepositoryFields, accepted.down⟩
  let _ ← written.mapError VerifierError.uncaught
  .ok receipt

/-- `main` of `verify_public_repository.py`. -/
def verifyPublicRepositoryScript (folding : CaseFolding) (transport : Str → Except VerifierError (List ℕ))
    (written : Except PyExc Unit) (id : Uuid) (now : ℕ) (arguments : Arguments) : Script py :=
  match writtenReceipt py folding transport written arguments with
  | .error _ => .raise
  | .ok receipt =>
    if arguments.persist then .call (.persistPublicArtifactReceipt id now receipt) fun _ => .pure (some receipt)
    else .pure none

/-- A call that stores no repository. -/
def StoresNoRepository : Call py → Prop
  | .persistPublicArtifactReceipt .. => False
  | _ => True

/-- The script, and whatever never stores a repository: every other script. -/
inductive Admitted (folding : CaseFolding) : Script py → Prop
  | verify (transport : Str → Except VerifierError (List ℕ)) (written : Except PyExc Unit) (id : Uuid) (now : ℕ)
      (arguments : Arguments) :
      Admitted folding (verifyPublicRepositoryScript folding transport written id now arguments)
  | other (script : Script py) : script.Within StoresNoRepository (· = none) → Admitted folding script

variable {site : Site} {db db' : Database}

/-- The scripts on one corpus, under any schedule. -/
def scripts (site : Site) : System (Pool Database (Call site.host.py) Str (Option PublicArtifactReceipt))
    (Pool.Move (Call site.host.py) Str (Option PublicArtifactReceipt)) :=
  Pool.interleaving (Call.run site) .empty

/-- The row is what a verification returned, of a repository that was shown with this content. -/
def Verified (py : Interpreter) (folding : CaseFolding) (row : ArtifactRow) (content : RepositoryContent) : Prop :=
  ∃ (transport : Str → Except VerifierError (List ℕ)) (request : PublicRepositoryRequest)
    (metadata tree : List (Str × Json)),
    Shown py folding transport request.repository content metadata tree ∧
      row = artifactRow py request.toPublicRepositoryFields content row.id row.claimId row.checkedAt ∧
      uuid request.claimId = some row.claimId

/-- Every stored row is what a verification returned. -/
def RowsVerified (py : Interpreter) (folding : CaseFolding) (db : Database) : Prop :=
  ∀ k r, db.artifactReceipts.find? k = some r → ∃ content, Verified py folding r content

/-- The rows stay, but for the time of their last check. -/
def RowsKept (db db' : Database) : Prop :=
  ∀ k r, db.artifactReceipts.find? k = some r → ∃ now, db'.artifactReceipts.find? k = some { r with checkedAt := now }

/-- The receipt has its row. -/
def RowStored (receipt : PublicArtifactReceipt) (db : Database) : Prop :=
  ∃ k r, db.artifactReceipts.find? k = some r ∧ uuid receipt.claimId = some r.claimId ∧ r.repository = receipt.repository ∧
    r.evidenceSha256 = receipt.evidenceSha256

/-- What a script says it has stored is stored. -/
def Says : Option PublicArtifactReceipt → Database → Prop
  | none, _ => True
  | some receipt, db => RowStored receipt db

/-! ## Every call -/

/-- Every call keeps the rows. -/
theorem rowsKept (call : Call site.host.py) : RowsKept db (call.run site db).1 := by
  have heffect : Effect site db call (call.run site db) := effect_of_run call
  generalize houtcome : call.run site db = outcome at heffect ⊢
  obtain ⟨db', reply⟩ := outcome
  intro k r hr
  cases heffect with
  | artifact _ _ _ _ _ hupserted =>
    rcases hupserted.kept_or_set hr with hr' | hr'
    · exact ⟨_, hr'⟩
    · exact ⟨_, hr'⟩
  | run hassessments _ _ hfold =>
    rw [(ingested_of_run hassessments hfold).frame]
    exact ⟨_, hr⟩
  | _ => exact ⟨_, hr⟩

theorem stable_rowStored (receipt : PublicArtifactReceipt) : Stable RowsKept (RowStored receipt) := by
  intro db db' hkept h
  obtain ⟨k, r, hr, hclaim, hrepository, hdigest⟩ := h
  obtain ⟨now, hr'⟩ := hkept k r hr
  exact ⟨k, _, hr', hclaim, hrepository, hdigest⟩

/-- A call that stores no repository leaves the rows verified. -/
theorem rowsVerified_of_storesNone {call : Call site.host.py} (hcall : StoresNoRepository call)
    (h : RowsVerified site.host.py folding db) : RowsVerified site.host.py folding (call.run site db).1 := by
  have heffect : Effect site db call (call.run site db) := effect_of_run call
  generalize houtcome : call.run site db = outcome at heffect ⊢
  obtain ⟨db', reply⟩ := outcome
  cases heffect with
  | artifact => exact hcall.elim
  | run hassessments _ _ hfold =>
    intro k r hr
    replace hr : db'.artifactReceipts.find? k = some r := hr
    rw [(ingested_of_run hassessments hfold).frame] at hr
    exact h k r hr
  | _ => exact h

/-- Storing the receipt of a verification leaves the rows verified, and where it is answered the receipt has its row. -/
theorem rowsVerified_of_verification (h : verifyPublicRepository site.host.py folding transport request = .ok receipt)
    (id : Uuid) (now : ℕ) (hdb : RowsVerified site.host.py folding db) :
    RowsVerified site.host.py folding (Call.run site db (.persistPublicArtifactReceipt id now receipt)).1 ∧
      ∀ stored, (Call.run site db (.persistPublicArtifactReceipt id now receipt)).2 = .ok stored →
        RowStored receipt (Call.run site db (.persistPublicArtifactReceipt id now receipt)).1 := by
  obtain ⟨content, metadata, tree, hshown, hreceipt⟩ := verifyPublicRepository_eq_ok_iff.mp h
  have heffect : Effect site db _ (Call.run site db (.persistPublicArtifactReceipt id now receipt)) := effect_of_run _
  generalize Call.run site db (.persistPublicArtifactReceipt id now receipt) = outcome at heffect ⊢
  cases heffect with
  | raised =>
    refine ⟨hdb, ?_⟩
    rintro stored ⟨⟩
  | @artifact _ _ _ _ _ row r receipts hrow _ _ _ _ hupserted =>
    rw [hreceipt] at hrow
    obtain ⟨-, claimId, hclaim, hrow⟩ := newArtifact_artifactReceipt hshown.branch.2 hrow
    constructor
    · refine hupserted.forall hdb ⟨content, transport, request, metadata, tree, hshown, ?_, ?_⟩ fun r hr => ?_
      · rw [hrow]
        rfl
      · rw [hrow]
        exact hclaim
      · obtain ⟨content', transport', request', metadata', tree', hshown', hr', hclaim'⟩ :=
          hdb _ r (Indexed.taken?_eq_some hr).1
        exact ⟨content', transport', request', metadata', tree', hshown', by rw [hr']; rfl, hclaim'⟩
    · intro stored _
      obtain ⟨hsame, hrest⟩ := Prod.mk.inj (hupserted.alt_returned fun _ => rfl)
      obtain ⟨hrepository, hdigest⟩ := Prod.mk.inj hrest
      refine ⟨r.id, r, hupserted.find?_returned fun _ => rfl, ?_, ?_, ?_⟩
      · rw [hsame, hrow, hreceipt]
        exact hclaim
      · rw [hrepository, hrow, hreceipt]
        rfl
      · rw [hdigest, hrow, hreceipt]
        rfl

/-! ## Every schedule -/

/-- A script under the guarantee that rows stay. -/
abbrev Safe (site : Site) (folding : CaseFolding) (script : Script site.host.py) : Prop :=
  Assured (Call.run site) (RowsVerified site.host.py folding) RowsKept Says script fun _ => True

theorem writtenReceipt_eq_ok {written : Except PyExc Unit} {arguments : Arguments}
    (h : writtenReceipt py folding transport written arguments = .ok receipt) :
    ∃ request : PublicRepositoryRequest, verifyPublicRepository py folding transport request = .ok receipt := by
  obtain ⟨accepted, -, h⟩ := bind_eq_ok_iff.mp h
  obtain ⟨verified, hverified, h⟩ := bind_eq_ok_iff.mp h
  obtain ⟨_, -, h⟩ := bind_eq_ok_iff.mp h
  cases h
  exact ⟨_, hverified⟩

theorem safe_verify (written : Except PyExc Unit) (id : Uuid) (now : ℕ) (arguments : Arguments) :
    Safe site folding (verifyPublicRepositoryScript folding transport written id now arguments) := by
  unfold verifyPublicRepositoryScript
  split
  · trivial
  · next receipt hreceipt =>
    obtain ⟨request, hverified⟩ := writtenReceipt_eq_ok hreceipt
    split
    · refine ⟨fun db hdb _ => ⟨(rowsVerified_of_verification hverified id now hdb).1, rowsKept _⟩,
        fun _ => RowStored receipt, fun _ => stable_rowStored receipt, fun db stored hdb _ hstored => ?_,
        fun _ _ _ h => h⟩
      exact (rowsVerified_of_verification hverified id now hdb).2 stored hstored
    · exact fun _ _ _ => trivial

/-- Every admitted script is safe. -/
theorem safe_of_admitted {script : Script site.host.py} (h : Admitted folding script) : Safe site folding script := by
  cases h with
  | verify transport written id now arguments => exact safe_verify written id now arguments
  | other _ hscript =>
    refine hscript.assured (fun call hcall db hdb => ⟨rowsVerified_of_storesNone hcall hdb, rowsKept call⟩) ?_
    intro result hresult db _
    rw [hresult]
    trivial

/-- The key of a verified row is made of its claim, its repository and the content. -/
theorem Verified.receiptKey_eq {r : ArtifactRow} {content : RepositoryContent} (h : Verified py folding r content) :
    r.receiptKey = (r.claimId, r.repository, sha256 (evidenceText py r.repository content)) := by
  obtain ⟨_, request, _, _, -, hr, -⟩ := h
  rw [ArtifactRow.receiptKey, hr]
  rfl

variable {h : History (Pool Database (Call site.host.py) Str (Option PublicArtifactReceipt))
    (Pool.Move (Call site.host.py) Str (Option PublicArtifactReceipt))}
  {s : Pool Database (Call site.host.py) Str (Option PublicArtifactReceipt)}

/-- Whatever the schedule of the scripts and wherever they are killed or lose an answer, every stored row is what a
verification returned, a claim has no two rows for one content of a repository, and a script that ends has exactly one row
for its receipt from then on. -/
theorem repositories_verified (hrun : (scripts site).Run h s)
    (hstarts : System.AllSteps (Pool.Starts (Admitted folding)) h) :
    (∀ r ∈ s.store.artifactReceipts.rows, ∃ content, Verified site.host.py folding r content) ∧
      (∀ r ∈ s.store.artifactReceipts.rows, ∀ r' ∈ s.store.artifactReceipts.rows, ∀ content content',
        Verified site.host.py folding r content → Verified site.host.py folding r' content' → r.claimId = r'.claimId →
          r.repository = r'.repository → content.Same content' → r = r') ∧
      ∀ receipt, Command.pure (some receipt) ∈ s.commands → ∃! r, r ∈ s.store.artifactReceipts.rows ∧
        uuid receipt.claimId = some r.claimId ∧ r.repository = receipt.repository ∧
          r.evidenceSha256 = receipt.evidenceSha256 := by
  have hinit : RowsVerified site.host.py folding Database.empty := by
    intro k r hr
    cases hr
  have hsafe : ∀ script, Admitted folding script → Safe site folding script := fun _ => safe_of_admitted
  have hrefl : ∀ db, RowsKept db db := fun db k r hr => ⟨r.checkedAt, hr⟩
  have hsound := Pool.sound_of_run hrefl hinit hsafe hrun hstarts
  -- the unique key of the table tells rows apart
  have hunique : ∀ r ∈ s.store.artifactReceipts.rows, ∀ r' ∈ s.store.artifactReceipts.rows,
      r.receiptKey = r'.receiptKey → r = r' := fun r hr r' hr' hsame =>
    List.inj_on_of_nodup_map s.store.artifactReceipts.altNodup hr hr' hsame
  refine ⟨fun r hr => ?_, fun r hr r' hr' content content' hverified hverified' hclaim hrepository hsame => ?_,
    fun receipt hreceipt => ?_⟩
  · exact hsound.kept r.id r ((s.store.artifactReceipts.find?_eq_some_iff _ r).mpr ⟨hr, rfl⟩)
  · refine hunique r hr r' hr' ?_
    rw [hverified.receiptKey_eq, hverified'.receiptKey_eq, hclaim, hrepository, evidenceText, evidenceText, hsame.branch,
      hsame.licence, sortedPaths_eq_iff.mpr hsame.paths]
  · obtain ⟨k, r, hr, hclaim, hrepository, hdigest⟩ := hsound.result hreceipt
    refine ⟨r, ⟨((s.store.artifactReceipts.find?_eq_some_iff k r).mp hr).1, hclaim, hrepository, hdigest⟩, ?_⟩
    rintro r' ⟨hr', hclaim', hrepository', hdigest'⟩
    refine hunique r' hr' r ((s.store.artifactReceipts.find?_eq_some_iff k r).mp hr).1 ?_
    rw [ArtifactRow.receiptKey, ArtifactRow.receiptKey, hrepository', hdigest', hrepository, hdigest,
      Option.some.inj (hclaim'.symm.trans hclaim)]

namespace Sample

/-- The commands that find the preprint and review a claim about it. -/
def review : Script Research.Sample.site.host.py :=
  .call (.persistRun 1 10 Research.Sample.run (lit "runs/1.json")) fun _ =>
    .call (.persistFulltextReceipt 2 20 Research.Sample.fullText) fun _ =>
      .call (.persistReviewedClaim 7 70 (Research.Sample.claim .human)) fun _ => .pure none

/-- The script, for a repository that shows its tree in this way. -/
def verification (tree : Str) (id : Uuid) : Script Research.Sample.site.host.py :=
  verifyPublicRepositoryScript .ascii (Research.Sample.github tree) (.ok ()) id 90
    { Research.Sample.repository 7 with persist := true }

/-- Two scripts beside each other behind the review, the first of which loses its answer. -/
def schedule : List (Pool.Move (Call Research.Sample.site.host.py) Str (Option PublicArtifactReceipt)) :=
  [.start review, .advance 0, .advance 0, .advance 0, .start (verification Research.Sample.tree 8),
    .start (verification Research.Sample.shuffledTree 9), .lose 1, .advance 2]

end Sample

/-- The row of one repository that was verified twice. -/
theorem repositories_verified_twice :
    ∃ h s, (scripts Research.Sample.site).Run h s ∧ s.store.artifactReceipts.rows.length = 1 ∧
      ∀ receipt, Command.pure (some receipt) ∈ s.commands → ∃! r, r ∈ s.store.artifactReceipts.rows ∧
        uuid receipt.claimId = some r.claimId ∧ r.repository = receipt.repository ∧
          r.evidenceSha256 = receipt.evidenceSha256 := by
  obtain ⟨h, s, hrun, hmoves, htest⟩ := System.exists_run_moves (scripts Research.Sample.site) Sample.schedule
    (fun s => decide (s.store.artifactReceipts.rows.length = 1)) (by decide +kernel)
  have hstarts : System.AllSteps (Pool.Starts (Admitted .ascii)) h := by
    intro x hx
    have hmem : x.2 ∈ Sample.schedule := List.mem_reverse.mp (hmoves ▸ List.mem_map_of_mem hx)
    have hreview : Admitted .ascii Sample.review := .other _ ⟨trivial, fun _ => ⟨trivial, fun _ => ⟨trivial, fun _ => rfl⟩⟩⟩
    have hverification : ∀ tree id, Admitted .ascii (Sample.verification tree id) := fun _ _ => .verify _ _ _ _ _
    simp only [Sample.schedule, List.mem_cons, List.not_mem_nil, or_false] at hmem
    rcases hmem with h | h | h | h | h | h | h | h <;> rw [h]
    · exact hreview
    · trivial
    · trivial
    · trivial
    · exact hverification _ _
    · exact hverification _ _
    all_goals trivial
  exact ⟨h, s, hrun, of_decide_eq_true htest, (repositories_verified hrun hstarts).2.2⟩

end RepositoryScripts

end NeuroLab.Research
