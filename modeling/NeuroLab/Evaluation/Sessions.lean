import NeuroLab.Evaluation.Storage

/-!
# Concurrent sessions of the solution memory

`persist_solution_outcomes` as a transaction among others under READ COMMITTED. An inserted
outcome is in the table at once, but hidden from every other transaction until its own
commits: their SELECT does not see it, and an INSERT that runs into it waits. An UPDATE is
seen by others after the commit, and until then locks its row. Every other operation is one
step; none of them reads an outcome or the state of an asset.
-/

namespace NeuroLab.Evaluation

open Python Common Postgres

/-- A transaction of `persist_solution_outcomes` that has not ended, with the clock and the ids it drew: the
outcomes it has still to insert, the rows it inserted, the history it read, and whether it updated the asset. -/
structure Transaction where
  number : ℕ
  now : ℕ
  asset : SolutionAsset
  pending : List (Uuid × SolutionOutcome)
  inserted : List Uuid
  history : Option (List SolutionOutcome)
  updated : Bool

/-- The connection of a call. -/
def Transaction.begin (number now : ℕ) (asset : SolutionAsset) (outcomes : List (Uuid × SolutionOutcome)) :
    Transaction where
  number := number
  now := now
  asset := asset
  pending := outcomes
  inserted := []
  history := none
  updated := false

/-- `next_state`. -/
def Transaction.nextState (tx : Transaction) : Option AssetState :=
  tx.history.bind fun history => (nextAssetState tx.asset history).toOption

/-- The tables, with the outcomes of open transactions, and the open transactions. -/
structure Sessions where
  db : Evaluators
  open_ : Table Transaction.number

/-- What a session does next. -/
inductive SessionAction
  | call (call : Call)
  | start (number now : ℕ) (asset : SolutionAsset) (outcomes : List (Uuid × SolutionOutcome))
  | insert (number : ℕ)
  | select (number : ℕ)
  | update (number : ℕ)
  | commit (number : ℕ)
  | abort (number : ℕ)

namespace Sessions

variable (s : Sessions)

/-- The other open transactions. -/
def others (tx : Transaction) : List Transaction := s.open_.rows.filter fun tx' => tx'.number ≠ tx.number

/-- The outcomes that a transaction does not see. -/
def hidden (tx : Transaction) : List Uuid := (s.others tx).flatMap (·.inserted)

/-- The tables as a transaction sees them. -/
def visible (tx : Transaction) : Evaluators :=
  { s.db with outcomes := s.db.outcomes.delete fun r => r.id ∈ s.hidden tx }

/-- Roll a transaction back. -/
def rollback (tx : Transaction) : Sessions where
  db := { s.db with outcomes := s.db.outcomes.delete fun r => r.id ∈ tx.inserted }
  open_ := s.open_.delete fun tx' => tx'.number = tx.number

/-- A transaction goes on. -/
def goOn (tx : Transaction) (f : Transaction → Transaction) (hf : ∀ tx, (f tx).number = tx.number) : Sessions :=
  { s with open_ := s.open_.update (fun tx' => tx'.number = tx.number) f hf }

/-- An INSERT waits for the transaction of a row it runs into. -/
def insertWaits (tx : Transaction) (row : SolutionOutcomeRow) : Bool :=
  match s.db.outcomes.taken? row.receiptKey with
  | some r => r.id ∈ s.hidden tx
  | none => (s.db.outcomes.find? row.id).any fun r => r.id ∈ s.hidden tx

/-- The INSERT of one outcome; a failure rolls back. -/
def insertNext (tx : Transaction) : Option Sessions :=
  match tx.history, tx.pending with
  | none, drawn :: rest =>
    match newSolutionOutcome drawn.1 tx.now drawn.2 with
    | none => some (s.rollback tx)
    | some row =>
      if s.insertWaits tx row then none
      else match insertOutcome tx.now s.db drawn with
        | none => some (s.rollback tx)
        | some db =>
          let stored := if (s.db.outcomes.taken? row.receiptKey).isNone then [row.id] else []
          some ({ s with db }.goOn tx (fun tx => { tx with pending := rest, inserted := tx.inserted ++ stored })
            fun _ => rfl)
  | _, _ => none

/-- What the SELECT returns. -/
def select (tx : Transaction) : Option (List SolutionOutcome) :=
  (uuid tx.asset.assetId).bind (outcomeHistory (s.visible tx) tx.asset)

/-- The SELECT of the history, from which the next state follows; a failure rolls back. -/
def selectHistory (tx : Transaction) : Option Sessions :=
  match tx.history, tx.pending with
  | none, [] =>
    let history := s.select tx
    if ({ tx with history } : Transaction).nextState.isSome then
      some (s.goOn tx (fun tx => { tx with history }) fun _ => rfl)
    else some (s.rollback tx)
  | _, _ => none

/-- An UPDATE waits for a transaction that has updated the same asset. -/
def updateWaits (tx : Transaction) : Bool :=
  ((uuid tx.asset.assetId).bind s.db.assets.find?).isSome &&
    (s.others tx).any fun tx' => tx'.updated && decide (uuid tx'.asset.assetId = uuid tx.asset.assetId)

/-- The UPDATE of the asset. -/
def updateAsset (tx : Transaction) : Option Sessions :=
  if tx.nextState.isSome && !tx.updated && !s.updateWaits tx then
    some (s.goOn tx (fun tx => { tx with updated := true }) fun _ => rfl)
  else none

/-- The COMMIT, after which everybody sees what the transaction wrote. -/
def commit (tx : Transaction) : Option Sessions :=
  match tx.nextState, tx.updated with
  | some state, true =>
    some
      { db := { s.db with
          assets := s.db.assets.update (fun r => some r.id = uuid tx.asset.assetId) (fun r => { r with state })
            (SolutionAssetRow.id_of_state state) (SolutionAssetRow.contentKey_of_state state) }
        open_ := s.open_.delete fun tx' => tx'.number = tx.number }
  | _, _ => none

end Sessions

/-- One step of a session. -/
def sessionStep (server : Server) (s : Sessions) : SessionAction → Option Sessions
  | .call (.persistSolutionOutcomes ..) => none
  | .call call => some { s with db := (call.run server s.db).1 }
  | .start number now asset outcomes =>
    if (s.open_.find? number).isSome then none
    else some { s with open_ := s.open_.insert (.begin number now asset outcomes) }
  | .insert number => (s.open_.find? number).bind s.insertNext
  | .select number => (s.open_.find? number).bind s.selectHistory
  | .update number => (s.open_.find? number).bind s.updateAsset
  | .commit number => (s.open_.find? number).bind s.commit
  | .abort number => (s.open_.find? number).map s.rollback

/-- Sessions in any interleaving. -/
def sessions (server : Server) : System Sessions SessionAction where
  init := ⟨.empty, .empty⟩
  step := sessionStep server

/-! ## A transaction alone -/

section Alone

variable {server : Server} {db db' : Evaluators} {tx : Transaction} {asset : SolutionAsset}

/-- The history of an asset is read from its own outcomes. -/
theorem outcomeHistory_congr {k : Uuid}
    (h : (db.outcomes.rows.filter fun r => r.assetId = k) = db'.outcomes.rows.filter fun r => r.assetId = k) :
    outcomeHistory db asset k = outcomeHistory db' asset k := by
  rw [outcomeHistory, h, outcomeHistory]

/-- The tables with one open transaction. -/
def Sessions.one (db : Evaluators) (tx : Transaction) : Sessions := ⟨db, [tx], List.nodup_singleton _⟩

@[simp] theorem Sessions.hidden_one : (Sessions.one db tx).hidden tx = [] := by
  simp [Sessions.hidden, Sessions.others, Sessions.one]

@[simp] theorem Sessions.find?_one (db : Evaluators) (tx : Transaction) : (Sessions.one db tx).open_.find? tx.number = some tx := by
  simp [Sessions.one, Table.find?]

@[simp] theorem Sessions.goOn_one (db : Evaluators) (tx : Transaction) (f : Transaction → Transaction)
    (hf : ∀ tx, (f tx).number = tx.number) : (Sessions.one db tx).goOn tx f hf = .one db (f tx) := by
  simp [Sessions.goOn, Sessions.one, Table.update]

@[simp] theorem Sessions.visible_one : ((Sessions.one db tx).visible tx).outcomes.rows = db.outcomes.rows := by
  change db.outcomes.rows.filter (fun r => !decide (r.id ∈ (Sessions.one db tx).hidden tx)) = _
  simp

@[simp] theorem Sessions.updateWaits_one : (Sessions.one db tx).updateWaits tx = false := by
  simp [Sessions.updateWaits, Sessions.others, Sessions.one]

/-- The steps of a transaction. -/
def steps (number now : ℕ) (asset : SolutionAsset) (outcomes : List (Uuid × SolutionOutcome)) : List SessionAction :=
  .start number now asset outcomes :: (outcomes.map fun _ => .insert number) ++
    [.select number, .update number, .commit number]

/-- Alone, an INSERT does not wait. -/
theorem insertNext_one (tx : Transaction) {drawn : Uuid × SolutionOutcome} {pending : List (Uuid × SolutionOutcome)}
    (hhistory : tx.history = none) (hpending : tx.pending = drawn :: pending)
    (hinsert : insertOutcome tx.now db drawn = some db') :
    ∃ inserted, (Sessions.one db tx).insertNext tx = some (.one db' { tx with pending, inserted }) := by
  obtain ⟨row, hrow, -⟩ := Option.bind_eq_some_iff.mp hinsert
  have hwaits : (Sessions.one db tx).insertWaits tx row = false := by
    unfold Sessions.insertWaits
    split <;> simp
  unfold Sessions.insertNext
  split
  next drawn' pending' _ hpending' =>
    cases hpending.symm.trans hpending'
    split
    next hnone => exact absurd (hrow.symm.trans hnone) (Option.some_ne_none row)
    next row' hrow' =>
      cases hrow.symm.trans hrow'
      rw [hwaits, if_neg Bool.false_ne_true]
      split
      next hnone => exact absurd (hinsert.symm.trans hnone) (Option.some_ne_none db')
      next db₁ hinsert' =>
        cases hinsert.symm.trans hinsert'
        exact ⟨_, congrArg some (Sessions.goOn_one _ _ _ _)⟩
  next hnot => exact absurd hpending (hnot drawn pending hhistory)

/-- Alone, the loop over the outcomes runs through. -/
theorem execute_inserts (server : Server) (tx : Transaction) (h : History Sessions SessionAction)
    {pending : List (Uuid × SolutionOutcome)} (inserted : List Uuid) (rest : List SessionAction) (hhistory : tx.history = none)
    (hfold : pending.foldlM (insertOutcome tx.now) db = some db') :
    ∃ h' inserted', (sessions server).execute h (.one db { tx with pending, inserted })
        ((pending.map fun _ => .insert tx.number) ++ rest) =
      (sessions server).execute h' (.one db' { tx with pending := [], inserted := inserted' }) rest := by
  induction pending generalizing h db inserted with
  | nil =>
    cases hfold
    exact ⟨h, inserted, rfl⟩
  | cons drawn pending ih =>
    rw [List.foldlM_cons, Option.bind_eq_bind, Option.bind_eq_some_iff] at hfold
    obtain ⟨db₁, hinsert, hfold⟩ := hfold
    obtain ⟨inserted₁, hnext⟩ :=
      insertNext_one { tx with pending := drawn :: pending, inserted } hhistory rfl hinsert
    have hstep : (sessions server).step (.one db { tx with pending := drawn :: pending, inserted }) (.insert tx.number) =
        some (.one db₁ { tx with pending, inserted := inserted₁ }) :=
      (congrArg (Option.bind · _) (Sessions.find?_one _ _)).trans hnext
    obtain ⟨h', inserted', hrest⟩ := ih ((_, .insert tx.number) :: h) inserted₁ hfold
    refine ⟨h', inserted', ?_⟩
    rw [List.map_cons, List.cons_append, System.execute, hstep]
    exact hrest

/-- Alone, the SELECT reads the history that is stored. -/
theorem selectHistory_one (tx : Transaction) {assetId : Uuid} {history : List SolutionOutcome} {state : AssetState}
    (hbefore : tx.history = none ∧ tx.pending = []) (hassetId : uuid tx.asset.assetId = some assetId)
    (hhistory : outcomeHistory db tx.asset assetId = some history)
    (hstate : (nextAssetState tx.asset history).toOption = some state) :
    (Sessions.one db tx).selectHistory tx = some (.one db { tx with history := some history }) := by
  have hselect : (Sessions.one db tx).select tx = some history := by
    refine Option.bind_eq_some_iff.mpr ⟨assetId, hassetId, (outcomeHistory_congr ?_).trans hhistory⟩
    rw [Sessions.visible_one]
  have hnext : ({ tx with history := some history } : Transaction).nextState = some state := hstate
  have hgoOn := Sessions.goOn_one db tx (fun tx => { tx with history := some history }) fun _ => rfl
  unfold Sessions.selectHistory
  split
  next =>
    simp only [hselect, hgoOn]
    exact if_pos (by rw [hnext]; rfl)
  next hnot => exact absurd hbefore.2 (hnot hbefore.1)

/-- Alone, the COMMIT writes the next state. -/
theorem commit_one (tx : Transaction) {assetId : Uuid} {state : AssetState} (hnext : tx.nextState = some state)
    (hupdated : tx.updated = true) (hassetId : uuid tx.asset.assetId = some assetId) :
    (Sessions.one db tx).commit tx =
      some
        { db := { db with
            assets := db.assets.update (fun r => r.id = assetId) (fun r => { r with state }) (fun _ => rfl) fun _ => rfl }
          open_ := .empty } := by
  have hsel : (fun r : SolutionAssetRow => decide (some r.id = uuid tx.asset.assetId)) =
      fun r => decide (r.id = assetId) := by
    funext r
    rw [hassetId]
    exact decide_eq_decide.mpr (Option.some_inj)
  have hclosed : (Sessions.one db tx).open_.delete (fun tx' => tx'.number = tx.number) = .empty := by
    simp [Sessions.one, Table.delete, Table.empty]
  unfold Sessions.commit
  rw [hnext, hupdated]
  simp only [hsel, hclosed]
  rfl

/-- Alone, a transaction commits what `persist_solution_outcomes` commits. -/
theorem execute_steps {h : History Sessions SessionAction} {number now : ℕ} {outcomes : List (Uuid × SolutionOutcome)}
    {id : Str} (hpersist : persistSolutionOutcomes now asset outcomes db = (db', .ok id)) :
    ∃ h', (sessions server).execute h ⟨db, .empty⟩ (steps number now asset outcomes) = some (h', ⟨db', .empty⟩) := by
  obtain ⟨_, hcommit, -⟩ := afterwards_eq_ok_iff.mp hpersist
  obtain ⟨db₁, hfold, hblock⟩ := bind_eq_ok_iff.mp (transaction_eq_ok_iff.mp hcommit)
  obtain ⟨assetId, hassetId, hblock⟩ := bind_eq_ok_iff.mp hblock
  obtain ⟨history, hhistory, hblock⟩ := bind_eq_ok_iff.mp hblock
  obtain ⟨state, hstate, hblock⟩ := bind_eq_ok_iff.mp hblock
  rw [statement_eq_ok_iff] at hfold hassetId hhistory hstate
  have hdb' := (Prod.mk.inj (Except.ok.inj hblock)).1
  clear hpersist hcommit hblock
  obtain ⟨h', inserted, hinserts⟩ := execute_inserts server (.begin number now asset outcomes)
    ((⟨db, .empty⟩, .start number now asset outcomes) :: h) []
    [.select number, .update number, .commit number] rfl hfold
  -- the transaction before its SELECT, after it, and after its UPDATE
  let before : Transaction := { Transaction.begin number now asset outcomes with pending := [], inserted }
  let read : Transaction := { before with history := some history }
  let written : Transaction := { read with updated := true }
  have hupdate : (Sessions.one db₁ read).updateAsset read = some (.one db₁ written) := by
    unfold Sessions.updateAsset
    rw [Sessions.updateWaits_one, Sessions.goOn_one]
    refine if_pos ?_
    rw [show read.nextState = some state from hstate]
    rfl
  have hselect : (Sessions.one db₁ before).selectHistory before = some (.one db₁ read) :=
    selectHistory_one before ⟨rfl, rfl⟩ hassetId hhistory hstate
  have hselected : (sessions server).step (.one db₁ before) (.select number) = some (.one db₁ read) :=
    (congrArg (Option.bind · _) (Sessions.find?_one _ before)).trans hselect
  have hupdated : (sessions server).step (.one db₁ read) (.update number) = some (.one db₁ written) :=
    (congrArg (Option.bind · _) (Sessions.find?_one _ read)).trans hupdate
  have hcommitted : (sessions server).step (.one db₁ written) (.commit number) = some ⟨db', .empty⟩ := by
    refine (congrArg (Option.bind · _) (Sessions.find?_one _ written)).trans ?_
    rw [← hdb']
    exact commit_one written hstate rfl hassetId
  refine ⟨(.one db₁ written, .commit number) :: (.one db₁ read, .update number) :: (.one db₁ before, .select number) :: h',
    ?_⟩
  rw [steps, List.cons_append, System.execute]
  change (sessions server).execute _ (.one db (.begin number now asset outcomes)) _ = _
  refine hinserts.trans ?_
  rw [System.execute, hselected]
  change (sessions server).execute _ (.one db₁ read) _ = _
  rw [System.execute, hupdated]
  change (sessions server).execute _ (.one db₁ written) _ = _
  rw [System.execute, hcommitted]
  rfl

end Alone

end NeuroLab.Evaluation
