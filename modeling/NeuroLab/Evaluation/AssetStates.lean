import NeuroLab.Evaluation.AssetLaws
import NeuroLab.Evaluation.Registration
import NeuroLab.Evaluation.Sessions

/-!
# The states of solution assets

The state of an asset is derived from a history that a transaction reads before it commits,
and written without a second look. It is the state that follows from all stored outcomes as
long as no transaction commits outcomes of another asset, or a history that has grown since.
-/

namespace NeuroLab.Evaluation

open Python Common Postgres

deriving instance DecidableEq for SolutionOutcome

/-! ## What is settled -/

/-- A state follows from the stored outcomes of an asset. -/
def Derives (db : Evaluators) (asset : SolutionAsset) (assetId : Uuid) (state : AssetState) : Prop :=
  ∃ history, outcomeHistory db asset assetId = some history ∧ nextAssetState asset history = .ok state

/-- Every asset with a stored outcome has the state that follows from all its stored outcomes. -/
def Settled (db : Evaluators) : Prop :=
  ∀ k r, db.assets.find? k = some r → (∃ o ∈ db.outcomes.rows, o.assetId = k) →
    ∀ asset : SolutionAsset, uuid asset.assetId = some k → Derives db asset k r.state

/-- The condition on a commit: the transaction inserted outcomes of its own asset only, and its SELECT would
still return the history it read. -/
def UpToDate (s : Sessions) : SessionAction → Prop
  | .commit number => ∀ tx ∈ s.open_.find? number,
      (∀ o ∈ s.db.outcomes.rows, o.id ∈ tx.inserted → uuid tx.asset.assetId = some o.assetId) ∧
        s.select tx = tx.history
  | _ => True

instance (s : Sessions) : DecidablePred (UpToDate s) := fun action => by
  cases action <;> unfold UpToDate <;> infer_instance

/-! ## The history of an asset -/

variable {db db' : Evaluators} {asset : SolutionAsset} {k : Uuid}

/-- An outcome read from its row. -/
def SolutionOutcomeRow.read (asset : SolutionAsset) (r : SolutionOutcomeRow) : Option SolutionOutcome :=
  SolutionOutcome.make
    { assetId := asset.assetId, syntheticRunSha256 := r.syntheticRunSha256,
      evaluatorRunId := uuidText r.evaluatorRunId, outcome := r.outcome, primaryQuality := r.primaryQuality,
      safetyQuality := r.safetyQuality }

/-- An outcome under the name of an asset. -/
def SolutionOutcome.named (asset : SolutionAsset) (outcome : SolutionOutcome) : SolutionOutcome where
  toSolutionOutcomeFields := { outcome.toSolutionOutcomeFields with assetId := asset.assetId }
  accepted := by
    have haccepted := outcome.accepted
    simp only [SolutionOutcomeFields.check, Bool.and_eq_true] at haccepted ⊢
    exact ⟨⟨⟨⟨asset.identified, haccepted.1.1.1.2⟩, haccepted.1.1.2⟩, haccepted.1.2⟩, haccepted.2⟩

@[simp] theorem SolutionOutcome.named_assetId (outcome : SolutionOutcome) :
    (outcome.named asset).assetId = asset.assetId := rfl

@[simp] theorem SolutionOutcome.named_outcome (outcome : SolutionOutcome) :
    (outcome.named asset).outcome = outcome.outcome := rfl

@[simp] theorem SolutionOutcome.named_primaryQuality (outcome : SolutionOutcome) :
    (outcome.named asset).primaryQuality = outcome.primaryQuality := rfl

@[simp] theorem SolutionOutcome.named_safetyQuality (outcome : SolutionOutcome) :
    (outcome.named asset).safetyQuality = outcome.safetyQuality := rfl

/-- A row read under another name of its asset. -/
theorem read_named {r : SolutionOutcomeRow} {outcome : SolutionOutcome} (h : r.read asset = some outcome)
    (asset' : SolutionAsset) : r.read asset' = some (outcome.named asset') ∧ outcome.assetId = asset.assetId := by
  unfold SolutionOutcomeRow.read SolutionOutcome.make at h
  split at h
  · next haccepted =>
    cases h
    exact ⟨dif_pos (SolutionOutcome.named asset' ⟨_, haccepted⟩).accepted, rfl⟩
  · cases h

/-- A history read under another name of its asset. -/
theorem outcomeHistory_named {history : List SolutionOutcome} (h : outcomeHistory db asset k = some history)
    (asset' : SolutionAsset) : outcomeHistory db asset' k = some (history.map (·.named asset')) ∧
      ∀ item ∈ history, item.assetId = asset.assetId := by
  have hrows : ∀ (rows : List SolutionOutcomeRow) {history : List SolutionOutcome},
      rows.mapM (·.read asset) = some history →
        rows.mapM (·.read asset') = some (history.map (·.named asset')) ∧
          ∀ item ∈ history, item.assetId = asset.assetId := by
    intro rows
    induction rows with
    | nil =>
      intro history h
      cases h
      exact ⟨rfl, fun _ hmem => nomatch hmem⟩
    | cons r rows ih =>
      intro history h
      simp only [List.mapM_cons, Option.bind_eq_bind, Option.bind_eq_some_iff] at h
      obtain ⟨outcome, hread, rest, hrest, heq⟩ := h
      cases heq
      obtain ⟨hread', hid⟩ := read_named hread asset'
      obtain ⟨hrest', hids⟩ := ih hrest
      rw [List.mapM_cons, hread', hrest', List.forall_mem_cons]
      exact ⟨rfl, hid, hids⟩
  exact hrows _ h

/-- The next state reads the outcomes, whatever the asset is called. -/
theorem nextAssetState_named {history : List SolutionOutcome} (h : ∀ item ∈ history, item.assetId = asset.assetId)
    (asset' : SolutionAsset) :
    nextAssetState asset' (history.map (·.named asset')) = nextAssetState asset history := by
  have hall : history.filter (fun item => item.assetId = asset.assetId) = history :=
    List.filter_eq_self.mpr fun item hitem => decide_eq_true (h item hitem)
  have hnamed : (history.map (·.named asset')).filter (fun item => item.assetId = asset'.assetId) =
      history.map (·.named asset') := by
    refine List.filter_eq_self.mpr fun item hitem => ?_
    obtain ⟨_, -, rfl⟩ := List.mem_map.mp hitem
    exact decide_eq_true rfl
  have hsuccessful : (history.map (·.named asset')).filter (fun item => item.outcome = .success) =
      (history.filter fun item => item.outcome = .success).map (·.named asset') := List.filter_map
  unfold nextAssetState
  extract_lets relevant' successful' relevant successful
  have hrelevant' : relevant' = history.map (·.named asset') := hnamed
  have hrelevant : relevant = history := hall
  have hsuccess : successful = history.filter fun item => item.outcome = .success := by
    simp only [successful, hrelevant]
  have hsuccess' : successful' = successful.map (·.named asset') := by
    simp only [successful', hrelevant', hsuccess, hsuccessful]
  have hquality : successful'.map (·.primaryQuality) = successful.map (·.primaryQuality) := by
    rw [hsuccess', List.map_map]
    rfl
  have hsafe : (∀ item ∈ successful', 9 / 10 ≤ item.safetyQuality) ↔ ∀ item ∈ successful, 9 / 10 ≤ item.safetyQuality := by
    rw [hsuccess', List.forall_mem_map]
    rfl
  have hlength : successful'.length = successful.length := by rw [hsuccess', List.length_map]
  rw [hquality, hrelevant', hrelevant]
  simp only [hsafe, hlength, List.length_map, List.countP_map, List.any_map, List.map_eq_nil_iff]
  rfl

/-- A state that follows from the outcomes of an asset follows under every name of the asset. -/
theorem Derives.named {state : AssetState} (h : Derives db asset k state) (asset' : SolutionAsset) :
    Derives db asset' k state := by
  obtain ⟨history, hhistory, hstate⟩ := h
  obtain ⟨hhistory', hids⟩ := outcomeHistory_named hhistory asset'
  exact ⟨_, hhistory', (nextAssetState_named hids asset').trans hstate⟩

/-! ## What is committed -/

namespace Sessions

variable {s s' : Sessions} {tx : Transaction} {n : ℕ}

/-- The outcomes that open transactions inserted. -/
def uncommitted (s : Sessions) : List Uuid := s.open_.rows.flatMap (·.inserted)

/-- The tables as everybody sees them. -/
def committed (s : Sessions) : Evaluators :=
  { s.db with outcomes := s.db.outcomes.delete fun r => r.id ∈ s.uncommitted }

/-- The committed outcomes. -/
theorem committed_rows (s : Sessions) :
    s.committed.outcomes.rows = s.db.outcomes.rows.filter fun r => !decide (r.id ∈ s.uncommitted) := rfl

/-- What a transaction sees: the committed outcomes and its own. -/
theorem visible_rows (s : Sessions) (tx : Transaction) :
    (s.visible tx).outcomes.rows = s.db.outcomes.rows.filter fun r => !decide (r.id ∈ s.hidden tx) := rfl

/-- An outcome is uncommitted in one transaction or in another. -/
theorem mem_uncommitted_iff (htx : s.open_.find? n = some tx) (id : Uuid) :
    id ∈ s.uncommitted ↔ id ∈ tx.inserted ∨ id ∈ s.hidden tx := by
  obtain ⟨hmem, -⟩ := (s.open_.find?_eq_some_iff n tx).mp htx
  simp only [uncommitted, hidden, others, List.mem_flatMap, List.mem_filter, decide_eq_true_eq]
  constructor
  · rintro ⟨tx', hmem', hid⟩
    by_cases hnumber : tx'.number = tx.number
    · rw [s.open_.eq_of_key_eq hmem' hmem hnumber] at hid
      exact Or.inl hid
    · exact Or.inr ⟨tx', ⟨hmem', hnumber⟩, hid⟩
  · rintro (hid | ⟨tx', ⟨hmem', -⟩, hid⟩)
    · exact ⟨tx, hmem, hid⟩
    · exact ⟨tx', hmem', hid⟩

/-- With the transaction gone, the others' outcomes are uncommitted. -/
theorem uncommitted_of_ended (h : s'.open_ = s.open_.delete fun tx' => tx'.number = tx.number) :
    s'.uncommitted = s.hidden tx := by
  rw [uncommitted, h, hidden, others]
  congr 1
  exact List.filter_congr fun tx' _ => by simp

/-- A transaction that goes on without an insertion. -/
theorem uncommitted_goOn (f : Transaction → Transaction) (hf : ∀ tx, (f tx).number = tx.number)
    (hinserted : ∀ tx, (f tx).inserted = tx.inserted) : (s.goOn tx f hf).uncommitted = s.uncommitted := by
  simp only [uncommitted, goOn, Table.update, List.flatMap_map]
  refine List.flatMap_congr fun tx' _ => ?_
  by_cases hnumber : tx'.number = tx.number <;> simp [hnumber, hinserted]

/-- Rolled back outcomes were not committed. -/
theorem committed_rollback (htx : s.open_.find? n = some tx) :
    (s.rollback tx).committed.outcomes.rows = s.committed.outcomes.rows := by
  rw [committed_rows, committed_rows, uncommitted_of_ended rfl]
  change (s.db.outcomes.rows.filter fun r => !decide (r.id ∈ tx.inserted)).filter _ = _
  rw [List.filter_filter]
  refine List.filter_congr fun r _ => ?_
  simp only [mem_uncommitted_iff htx]
  by_cases hinserted : r.id ∈ tx.inserted <;> simp [hinserted]

/-- The steps of a transaction, as seen by everybody. -/
structure SameCommitted (s s' : Sessions) : Prop where
  assets : s'.db.assets = s.db.assets
  outcomes : s'.committed.outcomes.rows = s.committed.outcomes.rows
  stored : ∀ o ∈ s'.db.outcomes.rows, o ∈ s.db.outcomes.rows ∨ (s.db.assets.find? o.assetId).isSome

/-- A transaction that goes on without an insertion changes nothing. -/
theorem SameCommitted.goOn (f : Transaction → Transaction) (hf : ∀ tx, (f tx).number = tx.number)
    (hinserted : ∀ tx, (f tx).inserted = tx.inserted) : SameCommitted s (s.goOn tx f hf) where
  assets := rfl
  outcomes := by
    rw [committed_rows, committed_rows, uncommitted_goOn f hf hinserted]
    rfl
  stored _ ho := Or.inl ho

/-- A rollback changes nothing. -/
theorem SameCommitted.rollback (htx : s.open_.find? n = some tx) : SameCommitted s (s.rollback tx) where
  assets := rfl
  outcomes := committed_rollback htx
  stored _ ho := Or.inl (List.mem_of_mem_filter ho)

/-- The rows that an insertion stores are uncommitted. -/
theorem mem_uncommitted_insert (htx : s.open_.find? n = some tx) (rest : List (Uuid × SolutionOutcome))
    (stored : List Uuid) (id : Uuid) :
    id ∈ (s.goOn tx (fun tx => { tx with pending := rest, inserted := tx.inserted ++ stored }) fun _ => rfl).uncommitted ↔
      id ∈ s.uncommitted ∨ id ∈ stored := by
  obtain ⟨hmem, -⟩ := (s.open_.find?_eq_some_iff n tx).mp htx
  simp only [uncommitted, goOn, Table.update, List.flatMap_map, List.mem_flatMap]
  constructor
  · rintro ⟨tx', hmem', hid⟩
    by_cases hnumber : tx'.number = tx.number
    · simp only [hnumber, decide_true, if_true, List.mem_append] at hid
      exact hid.imp_left fun hid => ⟨tx', hmem', hid⟩
    · simp only [hnumber, decide_false, Bool.false_eq_true, if_false] at hid
      exact Or.inl ⟨tx', hmem', hid⟩
  · rintro (⟨tx', hmem', hid⟩ | hid)
    · refine ⟨tx', hmem', ?_⟩
      by_cases hnumber : tx'.number = tx.number <;> simp [hnumber, hid]
    · exact ⟨tx, hmem, by simp [hid]⟩

/-- New rows are uncommitted, so the committed ones stay the same. -/
theorem committed_insert (htx : s.open_.find? n = some tx) (db : Evaluators) (new : List SolutionOutcomeRow)
    (rest : List (Uuid × SolutionOutcome)) (hrows : db.outcomes.rows = s.db.outcomes.rows ++ new)
    (hfresh : ∀ r ∈ s.db.outcomes.rows, r.id ∉ new.map (·.id)) :
    (({ s with db } : Sessions).goOn tx (fun tx => { tx with pending := rest, inserted := tx.inserted ++ new.map (·.id) })
      fun _ => rfl).committed.outcomes.rows = s.committed.outcomes.rows := by
  have huncommitted := mem_uncommitted_insert (s := { s with db }) htx rest (new.map (·.id))
  rw [committed_rows, committed_rows]
  change db.outcomes.rows.filter _ = _
  have hnew : new.filter (fun r => !decide (r.id ∈ (({ s with db } : Sessions).goOn tx (fun tx =>
      { tx with pending := rest, inserted := tx.inserted ++ new.map (·.id) }) fun _ => rfl).uncommitted)) = [] := by
    refine List.filter_eq_nil_iff.mpr fun r hr => ?_
    simp [huncommitted, List.mem_map_of_mem (f := fun r : SolutionOutcomeRow => r.id) hr]
  rw [hrows, List.filter_append, hnew, List.append_nil]
  refine List.filter_congr fun r hr => ?_
  have hiff : r.id ∈ (({ s with db } : Sessions).goOn tx (fun tx =>
      { tx with pending := rest, inserted := tx.inserted ++ new.map (·.id) }) fun _ => rfl).uncommitted ↔
        r.id ∈ s.uncommitted :=
    (huncommitted r.id).trans (or_iff_left (hfresh r hr))
  rw [decide_eq_decide.mpr hiff]

/-- An insertion stores an uncommitted outcome, or none. -/
theorem SameCommitted.insert (htx : s.open_.find? n = some tx) (h : s.insertNext tx = some s') :
    SameCommitted s s' := by
  unfold insertNext at h
  split at h
  next drawn rest _ _ =>
    split at h
    next =>
      cases h
      exact .rollback htx
    next row hrow =>
      split at h
      · cases h
      split at h
      next =>
        cases h
        exact .rollback htx
      next db hinsert =>
        cases h
        simp only [insertOutcome, Option.bind_eq_bind, Option.bind_eq_some_iff] at hinsert
        obtain ⟨row', hrow', ⟨outcomes, inserted⟩, hnew, hinsert⟩ := hinsert
        cases hrow.symm.trans hrow'
        split at hinsert
        · cases hinsert
        next hreferenced =>
        cases hinsert
        rcases Indexed.insertNew_cases hnew with ⟨htaken, rfl, rfl⟩ | ⟨htaken, hfresh, hrows, rfl⟩
        · have hstored : (if (s.db.outcomes.taken? row.receiptKey).isNone = true then [row.id] else []) = [] := by
            rw [if_neg]
            simpa [Option.isSome_iff_ne_none] using htaken
          rw [hstored]
          have hkept := committed_insert htx s.db [] rest (List.append_nil _).symm (by simp)
          exact ⟨rfl, hkept, fun o ho => Or.inl ho⟩
        · have hstored : (if (s.db.outcomes.taken? row.receiptKey).isNone = true then [row.id] else []) = [row.id] := by
            rw [if_pos]
            simp [htaken]
          rw [hstored]
          have hkept := committed_insert htx { s.db with outcomes } [row] rest hrows
          refine ⟨rfl, hkept ?_, fun o ho => ?_⟩
          · intro r hr hid
            have heq : r.id = row.id := List.mem_singleton.mp hid
            exact hfresh (heq ▸ List.mem_map_of_mem hr)
          · change o ∈ outcomes.rows at ho
            rw [hrows, List.mem_append, List.mem_singleton] at ho
            refine ho.imp_right fun heq => ?_
            rw [heq]
            simp only [Option.isSome_some, Bool.true_and, Bool.not_eq_true', Bool.not_eq_false, Bool.and_eq_true] at hreferenced
            exact hreferenced.1
  · cases h

/-- A SELECT writes nothing. -/
theorem SameCommitted.select (htx : s.open_.find? n = some tx) (h : s.selectHistory tx = some s') :
    SameCommitted s s' := by
  unfold selectHistory at h
  split at h
  next =>
    extract_lets history at h
    split at h
    · cases h
      exact .goOn _ _ fun _ => rfl
    · cases h
      exact .rollback htx
  next => cases h

/-- Nobody sees an UPDATE before the commit. -/
theorem SameCommitted.update (h : s.updateAsset tx = some s') : SameCommitted s s' := by
  unfold updateAsset at h
  split at h
  · cases h
    exact .goOn _ _ fun _ => rfl
  · cases h

end Sessions

/-! ## Other calls -/

/-- A call keeps the outcomes and every asset. -/
structure Grown (db db' : Evaluators) : Prop where
  outcomes : db'.outcomes = db.outcomes
  assets : ∀ k r, db.assets.find? k = some r → db'.assets.find? k = some r

/-- Tables that were left alone. -/
theorem Grown.of_eq (houtcomes : db'.outcomes = db.outcomes) (hassets : db'.assets = db.assets) : Grown db db' :=
  ⟨houtcomes, fun _ _ hr => hassets ▸ hr⟩

/-- The receipt of an asset is inserted, or was stored. -/
theorem grown_of_asset (asset : SolutionAsset) (db : Evaluators) : Grown db (persistSolutionAsset asset db).1 := by
  unfold persistSolutionAsset
  rw [afterwards_fst]
  refine transaction_cases (Q := fun outcome => Grown db outcome.1) (fun _ => .of_eq rfl rfl) fun db' text h => ?_
  obtain ⟨row, -, h⟩ := bind_eq_ok_iff.mp h
  obtain ⟨⟨assets, inserted⟩, hinsert, h⟩ := bind_eq_ok_iff.mp h
  cases h
  refine ⟨rfl, fun k r hr => ?_⟩
  exact (Indexed.upsert_cases (statement_eq_ok_iff.mp hinsert)).kept_of_not_sel hr rfl

/-- A registration leaves the solution memory alone. -/
theorem grown_of_version (evaluator : EvaluatorVersion) (db : Evaluators) :
    Grown db (persistEvaluatorVersion evaluator db).1 := by
  have hcases := registration_cases evaluator db
  generalize persistEvaluatorVersion evaluator db = outcome at hcases
  cases hcases <;> exact .of_eq rfl rfl

/-- Every call but one keeps the outcomes and every asset. -/
theorem grown_of_run {server : Server} (call : Call) (db : Evaluators)
    (h : ∀ now asset outcomes, call ≠ .persistSolutionOutcomes now asset outcomes) : Grown db (call.run server db).1 := by
  cases call with
  | persistEvaluatorVersion evaluator => exact grown_of_version evaluator db
  | persistEvaluationRun run =>
    refine transaction_cases (Q := fun outcome => Grown db outcome.1) (fun _ => .of_eq rfl rfl) fun db' text h => ?_
    obtain ⟨row, -, h⟩ := bind_eq_ok_iff.mp h
    obtain ⟨_, -, h⟩ := bind_eq_ok_iff.mp h
    split at h
    · cases h
    · cases h
      exact .of_eq rfl rfl
  | persistResponseReplayDiagnostics id run diagnostics =>
    change Grown db (persistResponseReplayDiagnostics server id run diagnostics db).1
    unfold persistResponseReplayDiagnostics
    split
    · exact .of_eq rfl rfl
    rw [afterwards_fst]
    refine transaction_cases (Q := fun outcome => Grown db outcome.1) (fun _ => .of_eq rfl rfl) fun db' text h => ?_
    obtain ⟨runId, -, h⟩ := bind_eq_ok_iff.mp h
    split at h
    · cases h
    obtain ⟨⟨stored, inserted⟩, -, h⟩ := bind_eq_ok_iff.mp h
    dsimp only at h
    split at h
    · cases h
    · cases h
      exact .of_eq rfl rfl
  | persistEvaluatorDecision decision =>
    change Grown db (persistEvaluatorDecision server decision db).1
    unfold persistEvaluatorDecision
    refine transaction_cases (Q := fun outcome => Grown db outcome.1) (fun _ => .of_eq rfl rfl) fun db' text h => ?_
    obtain ⟨baselineRunId, -, h⟩ := bind_eq_ok_iff.mp h
    obtain ⟨candidateRunId, -, h⟩ := bind_eq_ok_iff.mp h
    split at h
    · cases h
    obtain ⟨candidateId, -, h⟩ := bind_eq_ok_iff.mp h
    split at h
    · cases h
    extract_lets at h
    obtain ⟨row, -, h⟩ := bind_eq_ok_iff.mp h
    obtain ⟨_, -, h⟩ := bind_eq_ok_iff.mp h
    obtain ⟨_, -, h⟩ := bind_eq_ok_iff.mp h
    obtain ⟨_, -, h⟩ := bind_eq_ok_iff.mp h
    split at h
    · cases h
    · cases h
      exact .of_eq rfl rfl
  | persistSolutionAsset asset => exact grown_of_asset asset db
  | persistSolutionOutcomes now asset outcomes => exact absurd rfl (h now asset outcomes)

/-! ## The invariant -/

/-- Stored outcomes are those of stored assets, and what is committed is settled. -/
structure Consistent (s : Sessions) : Prop where
  referenced : ∀ o ∈ s.db.outcomes.rows, (s.db.assets.find? o.assetId).isSome
  settled : Settled s.committed

/-- What is settled depends on the committed outcomes, and on the assets. -/
theorem Settled.congr (h : Settled db) (hassets : db'.assets = db.assets)
    (houtcomes : db'.outcomes.rows = db.outcomes.rows) : Settled db' := by
  intro k r hr hstored asset hasset
  rw [hassets] at hr
  rw [houtcomes] at hstored
  obtain ⟨history, hhistory, hstate⟩ := h k r hr hstored asset hasset
  exact ⟨history, (outcomeHistory_congr (by rw [houtcomes])).trans hhistory, hstate⟩

namespace Sessions

variable {s s' : Sessions} {tx : Transaction} {n : ℕ}

/-- The steps of a transaction before its commit keep what is consistent. -/
theorem SameCommitted.consistent (same : SameCommitted s s') (h : Consistent s) : Consistent s' where
  referenced o ho := by
    rw [same.assets]
    exact (same.stored o ho).elim (h.referenced o) fun hasset => hasset
  settled := h.settled.congr same.assets same.outcomes

/-- Calls that only add assets keep what is consistent. -/
theorem consistent_of_grown {db : Evaluators} (grown : Grown s.db db) (h : Consistent s) :
    Consistent { s with db } where
  referenced o ho := by
    change o ∈ db.outcomes.rows at ho
    rw [grown.outcomes] at ho
    obtain ⟨r, hr⟩ := Option.isSome_iff_exists.mp (h.referenced o ho)
    exact Option.isSome_iff_exists.mpr ⟨r, grown.assets _ r hr⟩
  settled := by
    have hrows : ({ s with db } : Sessions).committed.outcomes.rows = s.committed.outcomes.rows := by
      rw [committed_rows, committed_rows, grown.outcomes]
      rfl
    intro k r hr hstored asset hasset
    rw [hrows] at hstored
    obtain ⟨o, ho, rfl⟩ := hstored
    obtain ⟨r', hr'⟩ := Option.isSome_iff_exists.mp (h.referenced o (List.mem_of_mem_filter ho))
    have heq : r' = r := Option.some.inj ((grown.assets _ r' hr').symm.trans hr)
    obtain ⟨history, hhistory, hstate⟩ := h.settled _ r' hr' ⟨o, ho, rfl⟩ asset hasset
    rw [heq] at hstate
    exact ⟨history, (outcomeHistory_congr (by rw [hrows])).trans hhistory, hstate⟩

/-- The next state of a transaction follows from the history it read. -/
theorem nextState_eq_some {state : AssetState} (h : tx.nextState = some state) :
    ∃ history, tx.history = some history ∧ nextAssetState tx.asset history = .ok state := by
  obtain ⟨history, hhistory, hstate⟩ := Option.bind_eq_some_iff.mp h
  refine ⟨history, hhistory, ?_⟩
  cases hnext : nextAssetState tx.asset history with
  | error e => rw [hnext] at hstate; cases hstate
  | ok state' => rw [hnext] at hstate; rw [Option.some.inj hstate]

/-- A commit under the condition keeps what is consistent. -/
theorem consistent_of_commit (htx : s.open_.find? n = some tx) (hcommit : s.commit tx = some s')
    (hown : ∀ o ∈ s.db.outcomes.rows, o.id ∈ tx.inserted → uuid tx.asset.assetId = some o.assetId)
    (hselect : s.select tx = tx.history) (h : Consistent s) : Consistent s' := by
  unfold commit at hcommit
  split at hcommit
  next state hnext _ =>
    obtain ⟨history, hhistory, hstate⟩ := nextState_eq_some hnext
    obtain ⟨assetId, hassetId, hread⟩ := Option.bind_eq_some_iff.mp (hselect.trans hhistory)
    have hvisible : s'.committed.outcomes.rows = (s.visible tx).outcomes.rows := by
      cases hcommit
      rw [committed_rows, visible_rows, uncommitted_of_ended rfl]
    cases hcommit
    have hfind := fun k => s.db.assets.find?_update (fun r => some r.id = uuid tx.asset.assetId)
      (fun r => { r with state }) (fun _ => rfl) (fun _ => rfl) k
    constructor
    · intro o ho
      rw [hfind, Option.isSome_map]
      exact h.referenced o ho
    · intro k r hr hstored asset hasset
      obtain ⟨r₀, hr₀, heq⟩ := Option.map_eq_some_iff.mp ((hfind k).symm.trans hr)
      by_cases hk : k = assetId
      · have hsel : some r₀.id = uuid tx.asset.assetId := by rw [Table.key_of_find? hr₀, hk, hassetId]
        rw [if_pos (decide_eq_true hsel)] at heq
        rw [← heq, hk]
        have hread' : Derives _ tx.asset assetId state := ⟨history, (outcomeHistory_congr (by rw [hvisible])).trans hread, hstate⟩
        exact hread'.named asset
      · have hsel : some r₀.id ≠ uuid tx.asset.assetId := by
          rw [Table.key_of_find? hr₀, hassetId]
          exact fun heq => hk (Option.some.inj heq)
        rw [if_neg (by simpa using hsel)] at heq
        -- the outcomes of the other assets were committed before
        have hothers : ((s.visible tx).outcomes.rows.filter fun r => r.assetId = k) =
            s.committed.outcomes.rows.filter fun r => r.assetId = k := by
          rw [visible_rows, committed_rows, List.filter_filter, List.filter_filter]
          refine List.filter_congr fun o ho => ?_
          by_cases hasset : o.assetId = k
          · have hforeign : o.id ∉ tx.inserted := fun hid =>
              hk (hasset.symm.trans (Option.some.inj ((hown o ho hid).symm.trans hassetId)))
            simp [hasset, mem_uncommitted_iff htx, hforeign]
          · simp [hasset]
        rw [hvisible] at hstored
        obtain ⟨o, ho, hasset'⟩ := hstored
        have hcommitted : o ∈ s.committed.outcomes.rows.filter fun r => r.assetId = k := by
          rw [← hothers]
          exact List.mem_filter.mpr ⟨ho, decide_eq_true hasset'⟩
        obtain ⟨history', hhistory', hstate'⟩ :=
          h.settled k r₀ hr₀ ⟨o, List.mem_of_mem_filter hcommitted, hasset'⟩ asset hasset
        rw [← heq]
        refine ⟨history', (outcomeHistory_congr ?_).trans hhistory', hstate'⟩
        rw [hvisible, hothers]
  next => cases hcommit

end Sessions

/-- Every step under the condition keeps what is consistent. -/
theorem consistent_of_step {server : Server} {s s' : Sessions} {action : SessionAction} (h : Consistent s)
    (hcurrent : UpToDate s action) (hstep : (sessions server).step s action = some s') : Consistent s' := by
  cases action with
  | call call =>
    cases call with
    | persistSolutionOutcomes => cases hstep
    | _ =>
      cases hstep
      exact Sessions.consistent_of_grown (grown_of_run _ s.db fun _ _ _ => nofun) h
  | start number now asset outcomes =>
    change (if (s.open_.find? number).isSome then _ else _) = _ at hstep
    split at hstep
    · cases hstep
    next hfree =>
      cases hstep
      refine Sessions.SameCommitted.consistent (s := s) ⟨rfl, ?_, fun o ho => Or.inl ho⟩ h
      have hkey : number ∉ s.open_.rows.map Transaction.number := by
        rw [s.open_.mem_keys_iff]
        exact hfree
      rw [Sessions.committed_rows, Sessions.committed_rows]
      have huncommitted : ({ s with open_ := s.open_.insert (.begin number now asset outcomes) } : Sessions).uncommitted =
          s.uncommitted := by
        simp [Sessions.uncommitted, Table.insert, Transaction.begin, hkey]
      rw [huncommitted]
  | insert number =>
    obtain ⟨tx, htx, hstep⟩ := Option.bind_eq_some_iff.mp hstep
    exact (Sessions.SameCommitted.insert htx hstep).consistent h
  | select number =>
    obtain ⟨tx, htx, hstep⟩ := Option.bind_eq_some_iff.mp hstep
    exact (Sessions.SameCommitted.select htx hstep).consistent h
  | update number =>
    obtain ⟨tx, htx, hstep⟩ := Option.bind_eq_some_iff.mp hstep
    exact (Sessions.SameCommitted.update hstep).consistent h
  | commit number =>
    obtain ⟨tx, htx, hstep⟩ := Option.bind_eq_some_iff.mp hstep
    obtain ⟨hown, hselect⟩ := hcurrent tx htx
    exact Sessions.consistent_of_commit htx hstep hown hselect h
  | abort number =>
    obtain ⟨tx, htx, hstep⟩ := Option.map_eq_some_iff.mp hstep
    rw [← hstep]
    exact (Sessions.SameCommitted.rollback htx).consistent h

/-- In every run in which a transaction commits outcomes of its own asset only, and a history that is still the
one its SELECT would return, every asset with a committed outcome has the state that follows from all its
committed outcomes; and once no transaction is open, from all its stored outcomes. -/
theorem settled_of_upToDate {server : Server} {h : History Sessions SessionAction} {s : Sessions}
    (run : (sessions server).Run h s) (current : System.AllSteps UpToDate h) :
    Settled s.committed ∧ (s.open_.rows = [] → Settled s.db) := by
  have hconsistent : Consistent s := by
    refine run.guarded_invariant ⟨fun o ho => ?_, fun k r hr => ?_⟩
      (fun s action s' hs hcurrent hstep => consistent_of_step hs hcurrent hstep) current
    · cases ho
    · cases hr
  refine ⟨hconsistent.settled, fun hclosed => hconsistent.settled.congr rfl ?_⟩
  rw [Sessions.committed_rows, eq_comm, List.filter_eq_self]
  intro r _
  simp [Sessions.uncommitted, hclosed]

/-! ## Two sessions -/

/-- A regression of the asset on a synthetic run. -/
def Sample.regression (digest : ℕ) (hdigest : isDigest (List.replicate 64 digest) = true) : SolutionOutcome where
  assetId := uuidText 7
  syntheticRunSha256 := List.replicate 64 digest
  evaluatorRunId := uuidText 1
  outcome := .regression
  primaryQuality := 1 / 2
  safetyQuality := 1 / 2
  accepted := by
    simp only [SolutionOutcomeFields.check, isUuid_uuidText, hdigest, Bool.true_and]
    decide +kernel

/-- The asset, what its outcomes refer to, and a transaction for each of two regressions. -/
def Sample.started : List SessionAction :=
  [.call (.persistEvaluatorVersion Sample.first), .call (.persistEvaluationRun Sample.firstRun),
    .call (.persistSolutionAsset Sample.component),
    .start 1 0 Sample.component [(21, Sample.regression 0x61 (by decide))],
    .start 2 0 Sample.component [(22, Sample.regression 0x62 Sample.isDigest_cohort)]]

/-- The two regressions, one transaction after the other. -/
theorem settled_of_upToDate_committed :
    ∃ h s, (sessions Research.Sample.server).Run h s ∧ s.db.outcomes.rows.length = 2 ∧
      Settled s.committed ∧ (s.open_.rows = [] → Settled s.db) := by
  obtain ⟨h, s, run, htest⟩ := System.exists_run (sessions Research.Sample.server)
    (Sample.started ++ [.insert 1, .select 1, .update 1, .commit 1, .insert 2, .select 2, .update 2, .commit 2])
    (fun h s => decide (System.AllSteps UpToDate h) && decide (s.db.outcomes.rows.length = 2)) (by decide +kernel)
  rw [Bool.and_eq_true] at htest
  exact ⟨h, s, run, of_decide_eq_true htest.2, settled_of_upToDate run (of_decide_eq_true htest.1)⟩

/-- Two transactions that do not see each other leave an asset with two regressions on the watchlist. -/
theorem regressions_missed :
    ¬∀ (server : Server) (h : History Sessions SessionAction) (s : Sessions), (sessions server).Run h s →
      s.open_.rows = [] → Settled s.db := by
  intro hsettled
  obtain ⟨h, s, run, htest⟩ := System.exists_run (sessions Research.Sample.server)
    (Sample.started ++ [.insert 1, .insert 2, .select 1, .select 2, .update 1, .commit 1, .update 2, .commit 2])
    (fun _ s => s.open_.rows.isEmpty && s.db.outcomes.rows.any (·.assetId = 7) &&
      (s.db.assets.find? 7).any (·.state = .watchlist) &&
      (outcomeHistory s.db Sample.component 7).any
        fun history => (nextAssetState Sample.component history).toOption = some .retired) (by decide +kernel)
  simp only [Bool.and_eq_true, List.isEmpty_iff, List.any_eq_true, Option.any_eq_true, decide_eq_true_eq] at htest
  obtain ⟨⟨⟨hclosed, hstored⟩, r, hr, hwatchlist⟩, history, hhistory, hretired⟩ := htest
  obtain ⟨history', hhistory', hstate⟩ := hsettled _ h s run hclosed 7 r hr hstored Sample.component (uuid_uuidText 7)
  cases hhistory.symm.trans hhistory'
  rw [hstate, hwatchlist] at hretired
  cases hretired

end NeuroLab.Evaluation
