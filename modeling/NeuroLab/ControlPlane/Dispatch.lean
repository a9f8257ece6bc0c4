import NeuroLab.ControlPlane.Outbox
import NeuroLab.ControlPlane.Reaper

/-!
# Delivery out of the outbox

What the outbox promises over whole runs: a row that is marked delivered was pushed
before, claims of one row are a claim term apart and a superseded one marks nothing, and
only the rows of settled tasks are deleted. What it does not promise is that such a row
can be deleted: once the task is settled no dispatcher claims the row any more, and if
none still holds it, it stays undelivered for good.
-/

namespace NeuroLab.ControlPlane

open Python Common

variable {env : Env} {s s' : State} {a : Action} {h : History State Action}

/-- A task is in a final state. -/
def Terminal (s : State) (T : Uuid) : Prop := ∃ r, s.task T = some r ∧ r.status.terminal = true

/-- A final state stays. -/
theorem Terminal.next {T : Uuid} (hs : Terminal s T) (run : (system env).Run h s)
    (hstep : step env s a = some s') : Terminal s' T := by
  obtain ⟨r, hr, hterminal⟩ := hs
  have run' : (system env).Run ([] ++ (s, a) :: h) s' := run_next run hstep
  exact ⟨r, terminal_row_unchanged run' hr hterminal, hterminal⟩

/-! ## At least once -/

/-- The dispatcher that acknowledges a push. -/
theorem worker_of_mark {T c : Uuid} (h : a.tx? env s = some (.markOutboxDelivered T c)) :
    ∃ w rest, s.workers w = .mark T c rest := by
  rcases Action.tx?_eq_some h with ⟨w, fresh, outcome, rfl, hpc⟩ | ⟨r, outcome, rfl, hpc⟩
  · cases hw : s.workers w <;> rw [hw] at hpc <;> cases hpc
    exact ⟨w, _, hw⟩
  · cases hr : s.requests r <;> rw [hr] at hpc <;> cases hpc

/-- A delivered row was pushed before, as the text of its payload. -/
theorem run_delivered (run : (system env).Run h s) (T : Uuid) : ∀ o, s.outbox T = some o →
    o.deliveredAt.isSome → ∃ raw, TextOf env raw T o.payload ∧ Pushed env h raw := by
  induction run with
  | start =>
    intro o ho
    cases ho
  | @step h s s' a run hstep ih =>
    intro o ho hdelivered
    have later : ∀ {raw}, Pushed env h raw → Pushed env ((s, a) :: h) raw := by
      intro raw hpushed
      obtain ⟨x, hx, hraw⟩ := hpushed
      exact ⟨x, List.mem_cons_of_mem _ hx, hraw⟩
    rcases step_outbox hstep T with heq | ⟨tx, htx, hmove⟩
    · obtain ⟨raw, htext, hpushed⟩ := ih o (heq ▸ ho) hdelivered
      exact ⟨raw, htext, later hpushed⟩
    · generalize hold : s.outbox T = old at hmove
      rw [ho] at hmove
      cases hmove with
      | keep =>
        obtain ⟨raw, htext, hpushed⟩ := ih o hold hdelivered
        exact ⟨raw, htext, later hpushed⟩
      | insert _ hnone => rw [hnone] at hdelivered; cases hdelivered
      | @claim c o' hclaimable =>
        obtain ⟨raw, htext, hpushed⟩ := ih o' hold hdelivered
        exact ⟨raw, htext, later hpushed⟩
      | @deliver c o' _ hc =>
        obtain ⟨w, rest, hw⟩ := worker_of_mark htx
        obtain ⟨raw, p, htext, hfits, hpushed⟩ := (run_dispatches run w).mark T c rest hw
        have hp : o'.payload = p := hfits.row o' hold hc
        exact ⟨raw, hp ▸ htext, later hpushed⟩
      | @note c exc o' hnone =>
        rw [show (o'.noteError exc).deliveredAt = o'.deliveredAt from rfl, hnone] at hdelivered
        cases hdelivered

/-! ## Claims of one row -/

/-- The row of a task was claimed at a time or later, unless it is delivered or the task is settled. -/
structure ClaimedSince (s : State) (T : Uuid) (t : ℕ) : Prop where
  clock : t ≤ s.clock
  absent : s.outbox T = none → Terminal s T
  claimed : ∀ o, s.outbox T = some o → o.deliveredAt = none →
    Terminal s T ∨ ∃ t', o.deliveryClaimedAt = some t' ∧ t ≤ t'

/-- A step keeps the row claimed since then. -/
theorem ClaimedSince.next {T : Uuid} {t : ℕ} (hs : ClaimedSince s T t) (run : (system env).Run h s)
    (hstep : step env s a = some s') : ClaimedSince s' T t where
  clock := hs.clock.trans (step_clock hstep)
  absent hnone := by
    rcases step_outbox hstep T with heq | ⟨tx, -, hmove⟩
    · exact (hs.absent (heq ▸ hnone)).next run hstep
    · generalize hold : s.outbox T = old at hmove
      rw [hnone] at hmove
      cases hmove with
      | keep => exact (hs.absent hold).next run hstep
      | delete hterminal =>
        obtain ⟨r, hr, hr'⟩ := (Option.any_eq_true _ _).mp hterminal
        exact Terminal.next ⟨r, hr, hr'⟩ run hstep
  claimed o ho hundelivered := by
    rcases step_outbox hstep T with heq | ⟨tx, -, hmove⟩
    · exact (hs.claimed o (heq ▸ ho) hundelivered).imp_left fun hterminal => hterminal.next run hstep
    · generalize hold : s.outbox T = old at hmove
      rw [ho] at hmove
      cases hmove with
      | keep => exact (hs.claimed o hold hundelivered).imp_left fun hterminal => hterminal.next run hstep
      | insert => exact Or.inl ((hs.absent hold).next run hstep)
      | claim => exact Or.inr ⟨s.clock, rfl, hs.clock⟩
      | deliver => cases hundelivered
      | @note c exc o' hnone =>
        exact (hs.claimed o' hold hnone).imp_left fun hterminal => hterminal.next run hstep

/-- Nothing is said any more of a superseded claim: no row is under it. -/
def Superseded (s : State) (T c : Uuid) : Prop := Under s T c fun _ => False

/-- What holds after a claim and survives every step holds at the end of the run. -/
theorem after_claim {P : State → Prop} {mid earlier : History State Action} {s₁ s₁' : State} {a₁ : Action}
    (run : (system env).Run (mid ++ (s₁, a₁) :: earlier) s) (hstep₁ : step env s₁ a₁ = some s₁') (init : P s₁')
    (next : ∀ h s a s', (system env).Run h s → P s → step env s a = some s' → P s') : P s := by
  induction mid generalizing s with
  | nil =>
    cases run with
    | step _ hstep =>
      have hsame : s = s₁' := Option.some.inj (Eq.trans (Eq.symm hstep) hstep₁)
      exact hsame ▸ init
  | cons x mid ih =>
    cases run with
    | step run hstep => exact next _ _ _ _ run (ih run) hstep

/-- After a claim the row is claimed since then. -/
theorem claimedSince_of_claim {mid earlier : History State Action} {s₁ : State} {a₁ : Action} {T c : Uuid} {p : Json}
    (run : (system env).Run (mid ++ (s₁, a₁) :: earlier) s) (hclaim : (T, p, c) ∈ a₁.claims env s₁) :
    ClaimedSince s T s₁.clock := by
  obtain ⟨s₁', -, hstep₁, -⟩ := run.split rfl
  refine after_claim (P := fun s => ClaimedSince s T s₁.clock) run hstep₁ ⟨step_clock hstep₁, ?_, ?_⟩
    fun _ _ _ _ run hs hstep => hs.next run hstep
  · obtain ⟨o, -, -, -, hrow, -⟩ := step_claims hstep₁ hclaim
    intro hnone
    rw [hrow] at hnone
    cases hnone
  · obtain ⟨o, -, -, -, hrow, -⟩ := step_claims hstep₁ hclaim
    intro o' ho' _
    rw [hrow] at ho'
    cases ho'
    exact Or.inr ⟨s₁.clock, rfl, le_rfl⟩

/-- A second claim of a row supersedes the first. -/
theorem superseded_of_claims {later mid earlier : History State Action} {s₁ s₂ : State} {a₁ a₂ : Action}
    {T c₁ c₂ : Uuid} {p₁ p₂ : Json}
    (run : (system env).Run (later ++ (s₂, a₂) :: (mid ++ (s₁, a₁) :: earlier)) s)
    (hclaim₁ : (T, p₁, c₁) ∈ a₁.claims env s₁) (hclaim₂ : (T, p₂, c₂) ∈ a₂.claims env s₂) :
    Superseded s T c₁ := by
  obtain ⟨s₂', run₂, hstep₂, -⟩ := run.split rfl
  obtain ⟨s₁', -, hstep₁, -⟩ := run₂.split rfl
  obtain ⟨-, -, -, -, -, -, hissued₁⟩ := step_claims hstep₁ hclaim₁
  have hissued₂ : c₁ ∈ s₂.issued :=
    after_claim (P := fun s => c₁ ∈ s.issued) run₂ hstep₁ hissued₁ fun _ _ _ _ _ hs hstep =>
      step_issued hstep hs
  obtain ⟨o, -, -, -, hrow, hnew, -⟩ := step_claims hstep₂ hclaim₂
  have hinit : Superseded s₂' T c₁ := by
    refine ⟨step_issued hstep₂ hissued₂, fun o' ho' hc => ?_⟩
    rw [hrow] at ho'
    cases ho'
    have hsame : c₂ = c₁ := Option.some.inj hc
    exact hnew (hsame ▸ hissued₂)
  exact after_claim (P := fun s => Superseded s T c₁) run hstep₂ hinit fun _ _ _ _ _ hs hstep => hs.next hstep

/-- A superseded claim marks nothing. -/
theorem outbox_of_superseded {T c : Uuid} (hs : Superseded s T c) (hstep : step env s a = some s')
    (htx : a.tx? env s = some (.markOutboxDelivered T c)) : s'.outbox T = s.outbox T := by
  rcases step_outbox hstep T with heq | ⟨tx, htx', hmove⟩
  · exact heq
  · rw [htx] at htx'
    cases htx'
    generalize hold : s.outbox T = old at hmove
    generalize s'.outbox T = new at hmove
    cases hmove with
    | keep => rfl
    | @deliver c o _ hc => exact (hs.row o hold hc).elim

/-- **The outbox delivers at least once, under fenced claims.** In every run: a row marked delivered was
pushed before, as a text that decodes to its payload and names its task; two claims of a row are more
than a claim term apart, and the earlier one marks nothing any more; and only the row of a task in a
final state is ever deleted. -/
theorem outbox_delivers_fenced (run : (system env).Run h s) (T : Uuid) :
    (∀ o, s.outbox T = some o → o.deliveredAt.isSome →
      ∃ raw, TextOf env raw T o.payload ∧ Pushed env h raw) ∧
    (∀ later mid earlier s₁ s₂ a₁ a₂ p₁ p₂ c₁ c₂, h = later ++ (s₂, a₂) :: (mid ++ (s₁, a₁) :: earlier) →
      (T, p₁, c₁) ∈ a₁.claims env s₁ → (T, p₂, c₂) ∈ a₂.claims env s₂ →
      s₁.clock + seconds env.config.outboxClaimSeconds < s₂.clock ∧
        ∀ a s', step env s a = some s' → a.tx? env s = some (.markOutboxDelivered T c₁) →
          s'.outbox T = s.outbox T) ∧
    ∀ a s' o, step env s a = some s' → s.outbox T = some o → s'.outbox T = none → Terminal s T := by
  refine ⟨run_delivered run T, ?_, ?_⟩
  · intro later mid earlier s₁ s₂ a₁ a₂ p₁ p₂ c₁ c₂ hsplit hclaim₁ hclaim₂
    subst hsplit
    constructor
    · obtain ⟨s₂', run₂, hstep₂, -⟩ := run.split rfl
      have hsince := claimedSince_of_claim run₂ hclaim₁
      obtain ⟨o, ho, hclaimable, -⟩ := step_claims hstep₂ hclaim₂
      have hid : o.taskId = T := Table.key_of_find? ho
      simp only [claimableOutbox, Bool.and_eq_true, Option.isNone_iff_eq_none, hid] at hclaimable
      obtain ⟨⟨hundelivered, hqueued⟩, hexpired⟩ := hclaimable
      rcases hsince.claimed o ho hundelivered with ⟨r, hr, hterminal⟩ | ⟨t', ht', hle⟩
      · rw [Database.taskMatches, show s₂.store.db.tasks.find? T = some r from hr, Option.any_some, isQueued,
          decide_eq_true_eq] at hqueued
        rw [hqueued] at hterminal
        cases hterminal
      · rw [ht', Option.all_some, decide_eq_true_eq] at hexpired
        omega
    · intro a s' hstep htx
      exact outbox_of_superseded (superseded_of_claims run hclaim₁ hclaim₂) hstep htx
  · intro a s' o hstep ho hnone
    rcases step_outbox hstep T with heq | ⟨tx, -, hmove⟩
    · rw [heq, ho] at hnone
      cases hnone
    · rw [ho, hnone] at hmove
      cases hmove with
      | delete hterminal => exact (Option.any_eq_true _ _).mp hterminal

/-- The delivered row of the sample request was pushed before. -/
theorem outbox_delivers_fenced_dispatched :
    ∃ h s o, (system Sample.env).Run h s ∧ s.outbox Sample.task = some o ∧ o.deliveredAt.isSome ∧
      ∃ raw, TextOf Sample.env raw Sample.task o.payload ∧ Pushed Sample.env h raw := by
  obtain ⟨h, s, run, htest⟩ := System.exists_run (system Sample.env)
    (Sample.submitted ++ Sample.publishing ++ [Sample.go 0 0, Sample.go 0 0])
    (fun _ (s : State) => (s.outbox Sample.task).any fun o : OutboxRow => o.deliveredAt.isSome)
    (by decide +kernel)
  obtain ⟨o, ho, hdelivered⟩ := (Option.any_eq_true _ _).mp htest
  exact ⟨h, s, o, run, ho, hdelivered, (outbox_delivers_fenced run Sample.task).1 o ho hdelivered⟩

/-! ## Rows that can be deleted -/

/-- The tasks whose claimed rows a worker has still to push or to acknowledge. -/
def Pc.holding : Pc → List Uuid
  | publish claimed => claimed.map Prod.fst
  | push id _ _ rest => id :: rest.map Prod.fst
  | mark id _ rest => id :: rest.map Prod.fst
  | noteError _ _ _ rest => rest.map Prod.fst
  | _ => []

/-- Some worker is between the claim of the row of a task and its acknowledgement. -/
def Held (s : State) (T : Uuid) : Prop := ∃ w, T ∈ (s.workers w).holding

/-- The row of a task is not delivered. -/
def Pending (s : State) (T : Uuid) : Prop := ∃ o, s.outbox T = some o ∧ o.deliveredAt = none

/-- If the task is settled and nobody holds its row, the row is delivered. -/
def Deletable (s : State) (T : Uuid) : Prop :=
  Terminal s T → ¬ Held s T → ∀ o, s.outbox T = some o → o.deliveredAt.isSome

theorem deletable_iff (s : State) (T : Uuid) :
    Deletable s T ↔ (Terminal s T → Pending s T → Held s T) := by
  constructor
  · intro hs hterminal hpending
    obtain ⟨o, ho, hnone⟩ := hpending
    by_contra hunheld
    have hsome := hs hterminal hunheld o ho
    rw [hnone] at hsome
    cases hsome
  · intro hs hterminal hunheld o ho
    by_contra hnone
    exact hunheld (hs hterminal ⟨o, ho, Option.not_isSome_iff_eq_none.mp hnone⟩)

/-- What one step must meet so that the row of a task stays deletable: the task is settled while the row
is delivered or held, a row is recorded for a settled task only under somebody who holds it, and the
last holder of an undelivered row of a settled task leaves it only by acknowledging it under its claim. -/
structure Covered (env : Env) (s : State) (a : Action) (T : Uuid) : Prop where
  settles : ∀ s', step env s a = some s' → ¬ Terminal s T → Terminal s' T → Pending s T → Held s T
  records : ∀ payload, a.tx? env s = some (.recordQueuedTask T payload) → s.outbox T = none →
    Terminal s T → Held s T
  leaves : ∀ s' w, step env s a = some s' → Terminal s T → Pending s T → T ∈ (s.workers w).holding →
    T ∉ (s'.workers w).holding → (∀ v, v ≠ w → T ∉ (s.workers v).holding) →
    ∃ c o, a.tx? env s = some (.markOutboxDelivered T c) ∧ s.outbox T = some o ∧ o.deliveryClaimId = some c

theorem holding_eq_nil {pc : Pc} (hidle : pc.dispatching = false) : pc.holding = [] := by
  cases pc <;> first | rfl | cases hidle

/-- The transactions of the dispatch pass on claimed rows. -/
def Tx.dispatches : Tx → Bool
  | claimPendingOutbox _ => true
  | markOutboxDelivered _ _ => true
  | recordOutboxDeliveryError _ _ _ => true
  | _ => false

theorem idle_of_tx {pc : Pc} {fresh : Uuid} {tx : Tx} (hpc : pc.tx? fresh = some tx)
    (htx : tx.dispatches = false) : pc.dispatching = false ∧ pc ≠ .claimOutbox := by
  cases pc <;> first
    | (cases hpc; done)
    | (cases hpc; cases htx; done)
    | exact ⟨rfl, by intro hclaim; cases hclaim⟩

/-- A step that commits another transaction leaves what everybody holds. -/
theorem held_iff_of_tx {tx : Tx} (hstep : step env s a = some s') (htx : a.tx? env s = some tx)
    (hother : tx.dispatches = false) (T : Uuid) : Held s' T ↔ Held s T := by
  have hsame : ∀ v, (s'.workers v).holding = (s.workers v).holding := by
    intro v
    rcases Action.tx?_eq_some htx with ⟨w, fresh, outcome, rfl, hpc⟩ | ⟨r, outcome, rfl, -⟩
    · obtain ⟨hperform, -, -, hothers, -⟩ := step_work hstep
      by_cases hv : v = w
      · subst hv
        obtain ⟨hidle, hclaim⟩ := idle_of_tx hpc hother
        have hidle' : (s'.workers v).dispatching = false :=
          (perform_cases hperform).2.2 (fun _ p => p.dispatching = false)
            ((all_idle hidle hclaim).wp fun _ _ hp => hp)
        rw [holding_eq_nil hidle, holding_eq_nil hidle']
      · rw [hothers v hv]
    · rw [(step_serve hstep).2.2.1]
  exact exists_congr fun v => by rw [hsame v]

/-- The step that settles a task leaves its outbox row, and what everybody holds. -/
theorem step_settles {T : Uuid} (hstep : step env s a = some s') (hbefore : ¬ Terminal s T)
    (hafter : Terminal s' T) : s'.outbox T = s.outbox T ∧ (Held s' T ↔ Held s T) := by
  have settled : ∀ {tx : Tx}, a.tx? env s = some tx → tx.dispatches = false →
      (∀ {old new}, OutboxStep env s.clock s.store.db T tx old new → new = old) →
      s'.outbox T = s.outbox T ∧ (Held s' T ↔ Held s T) := by
    intro tx htx hother hkeeps
    refine ⟨?_, held_iff_of_tx hstep htx hother T⟩
    rcases step_outbox hstep T with heq | ⟨tx', htx', hmove⟩
    · exact heq
    · obtain rfl : tx = tx' := Option.some.inj (htx.symm.trans htx')
      exact hkeeps hmove
  obtain ⟨r', hr', hterminal⟩ := hafter
  rcases step_task hstep T with heq | ⟨tx, htx, hmove⟩
  · exact absurd ⟨r', heq ▸ hr', hterminal⟩ hbefore
  · rw [hr'] at hmove
    generalize hold : s.task T = old at hmove
    cases hmove with
    | keep => exact absurd ⟨r', hold, hterminal⟩ hbefore
    | create unclaimed => rw [unclaimed.queued] at hterminal; cases hterminal
    | lease => cases hterminal
    | release => cases hterminal
    | block => exact settled htx rfl fun hmove => by cases hmove; rfl
    | succeed => exact settled htx rfl fun hmove => by cases hmove; rfl
    | fail => exact settled htx rfl fun hmove => by cases hmove; rfl
    | reap => exact settled htx rfl fun hmove => by cases hmove; rfl

/-- A committed transaction is executed. -/
theorem exec_of_tx {tx : Tx} (hstep : step env s a = some s') (htx : a.tx? env s = some tx) :
    ∃ reply, tx.exec env s.clock s.store.db = some (s'.store.db, reply) := by
  rcases step_db hstep with ⟨tx', reply, htx', hexec⟩ | ⟨hnone, -⟩
  · obtain rfl : tx = tx' := Option.some.inj (htx.symm.trans htx')
    exact ⟨reply, hexec⟩
  · rw [htx] at hnone
    cases hnone

/-- An acknowledgement under the stored claim delivers the row. -/
theorem outbox_of_mark {T c : Uuid} {o : OutboxRow} (hstep : step env s a = some s')
    (htx : a.tx? env s = some (.markOutboxDelivered T c)) (ho : s.outbox T = some o)
    (hnone : o.deliveredAt = none) (hc : o.deliveryClaimId = some c) :
    s'.outbox T = some (o.deliver s.clock) := by
  obtain ⟨reply, hexec⟩ := exec_of_tx hstep htx
  have hdb := (Prod.mk.inj (Option.some.inj hexec)).1
  have hid : o.taskId = T := Table.key_of_find? ho
  rw [State.outbox, ← hdb, markOutboxDelivered, Database.updateClaimedOutbox, Table.find?_update,
    show s.store.db.outbox.find? T = some o from ho, Option.map_some]
  simp [hid, hnone, hc]

/-- A row recorded where there was none is pending. -/
theorem pending_of_record {T : Uuid} {payload : Fields} (hstep : step env s a = some s')
    (htx : a.tx? env s = some (.recordQueuedTask T payload)) (hnone : s.outbox T = none) : Pending s' T := by
  obtain ⟨reply, hexec⟩ := exec_of_tx hstep htx
  obtain ⟨db, hrecord, heq⟩ := Option.map_eq_some_iff.mp hexec
  obtain ⟨row, -, hrest⟩ := Option.bind_eq_some_iff.mp hrecord
  obtain ⟨stored, -, hdb⟩ := Option.bind_eq_some_iff.mp hrest
  cases hdb
  have houtbox := congrArg (fun r : Database × Reply => r.1.outbox.find? T) heq
  simp only [Table.find?_insert, if_true] at houtbox
  rw [show (s.store.db.insertTask row).outbox.find? T = s.outbox T from rfl, hnone, Option.none_or] at houtbox
  exact ⟨_, houtbox.symm, rfl⟩

/-- A pending row was pending, or is recorded in the step. -/
theorem step_pending {T : Uuid} (hstep : step env s a = some s') (hpending : Pending s' T) :
    Pending s T ∨ s.outbox T = none ∧ ∃ payload, a.tx? env s = some (.recordQueuedTask T payload) := by
  obtain ⟨o, ho, hnone⟩ := hpending
  rcases step_outbox hstep T with heq | ⟨tx, htx, hmove⟩
  · exact Or.inl ⟨o, heq ▸ ho, hnone⟩
  · generalize hold : s.outbox T = old at hmove
    rw [ho] at hmove
    cases hmove with
    | keep => exact Or.inl ⟨o, hold, hnone⟩
    | @insert payload => exact Or.inr ⟨rfl, payload, htx⟩
    | @claim c o' hclaimable =>
      simp only [claimableOutbox, Bool.and_eq_true, Option.isNone_iff_eq_none] at hclaimable
      exact Or.inl ⟨o', hold, hclaimable.1.1⟩
    | deliver => cases hnone
    | @note c exc o' hnone' => exact Or.inl ⟨o', hold, hnone'⟩

/-- Of two workers one does not move. -/
theorem stays_or_stays (hstep : step env s a = some s') {v w : ℕ} (hvw : v ≠ w) :
    s'.workers v = s.workers v ∨ s'.workers w = s.workers w := by
  cases step_worker hstep v with
  | stay _ hsame => exact Or.inl hsame
  | start => exact Or.inr (workers_of_rests hstep hvw)
  | crash => exact Or.inr (workers_of_rests hstep hvw)
  | work => exact Or.inr (workers_of_rests hstep hvw)

/-- In one step a row stays deletable exactly if the step meets what it must. -/
theorem deletable_next_iff {T : Uuid} (run : (system env).Run h s) (hs : Deletable s T)
    (hstep : step env s a = some s') : Deletable s' T ↔ Covered env s a T := by
  rw [deletable_iff] at hs ⊢
  constructor
  · intro hs'
    refine ⟨fun s'' hstep' hbefore hafter hpending => ?_, fun payload htx hnone hterminal => ?_,
      fun s'' w hstep' hterminal hpending hholds hleaves hsole => ?_⟩
    · obtain rfl : s' = s'' := Option.some.inj (hstep.symm.trans hstep')
      obtain ⟨houtbox, hheld⟩ := step_settles hstep hbefore hafter
      obtain ⟨o, ho, hnone⟩ := hpending
      exact hheld.mp (hs' hafter ⟨o, houtbox.trans ho, hnone⟩)
    · exact (held_iff_of_tx hstep htx rfl T).mp
        (hs' (hterminal.next run hstep) (pending_of_record hstep htx hnone))
    · obtain rfl : s' = s'' := Option.some.inj (hstep.symm.trans hstep')
      have hunheld : ¬ Held s' T := by
        intro hheld
        obtain ⟨v, hv⟩ := hheld
        by_cases hvw : v = w
        · exact hleaves (hvw ▸ hv)
        · rcases stays_or_stays hstep hvw with hsame | hsame
          · exact hsole v hvw (hsame ▸ hv)
          · exact hleaves (hsame ▸ hholds)
      obtain ⟨o, ho, hnone⟩ := hpending
      rcases step_outbox hstep T with heq | ⟨tx, htx, hmove⟩
      · exact absurd (hs' (hterminal.next run hstep) ⟨o, heq.trans ho, hnone⟩) hunheld
      · have hkept : s'.outbox T ≠ some o := fun ho' =>
          hunheld (hs' (hterminal.next run hstep) ⟨o, ho', hnone⟩)
        have hundelivered : ∀ o', s'.outbox T = some o' → o'.deliveredAt ≠ none := fun o' ho' hnone' =>
          hunheld (hs' (hterminal.next run hstep) ⟨o', ho', hnone'⟩)
        generalize hnew : s'.outbox T = new at hmove hkept hundelivered
        rw [ho] at hmove
        cases hmove with
        | keep => exact absurd rfl hkept
        | claim => exact (hundelivered _ rfl hnone).elim
        | note => exact (hundelivered _ rfl hnone).elim
        | delete _ hdelivered => rw [hnone] at hdelivered; cases hdelivered
        | @deliver c o' _ hc => exact ⟨c, o, htx, ho, hc⟩
  · intro hcovered hterminal' hpending'
    by_cases hterminal : Terminal s T
    · rcases step_pending hstep hpending' with hpending | ⟨hnone, payload, htx⟩
      · obtain ⟨w, hw⟩ := hs hterminal hpending
        by_contra hunheld
        have hothers : ∀ v, v ≠ w → T ∉ (s.workers v).holding := by
          intro v hv hholds
          rcases stays_or_stays hstep hv with hsame | hsame
          · exact hunheld ⟨v, by rwa [hsame]⟩
          · exact hunheld ⟨w, by rwa [hsame]⟩
        obtain ⟨c, o, htx, ho, hc⟩ := hcovered.leaves s' w hstep hterminal hpending hw
          (fun hw' => hunheld ⟨w, hw'⟩) hothers
        obtain ⟨o', ho', hnone'⟩ := hpending
        obtain ⟨o'', ho'', hnone''⟩ := hpending'
        rw [ho] at ho'
        cases ho'
        rw [outbox_of_mark hstep htx ho hnone' hc] at ho''
        cases ho''
        cases hnone''
      · exact (held_iff_of_tx hstep htx rfl T).mpr (hcovered.records payload htx hnone hterminal)
    · obtain ⟨houtbox, hheld⟩ := step_settles hstep hterminal hterminal'
      obtain ⟨o, ho, hnone⟩ := hpending'
      exact hheld.mpr (hcovered.settles s' hstep hterminal hterminal' ⟨o, houtbox ▸ ho, hnone⟩)

/-- The cleanup removes a delivered row of a settled task after the retention. -/
theorem outbox_of_cleanup {T : Uuid} {o : OutboxRow} {t : ℕ} (hstep : step env s a = some s')
    (htx : a.tx? env s = some .cleanupTerminalOutbox) (hterminal : Terminal s T) (ho : s.outbox T = some o)
    (hdelivered : o.deliveredAt = some t) (hold : t + seconds env.config.outboxRetentionSeconds < s.clock) :
    s'.outbox T = none := by
  obtain ⟨reply, hexec⟩ := exec_of_tx hstep htx
  obtain ⟨r, hr, hfinal⟩ := hterminal
  have hdb := (Prod.mk.inj (Option.some.inj hexec)).1
  have hid : o.taskId = T := Table.key_of_find? ho
  rw [State.outbox, ← hdb, cleanupTerminalOutbox, Table.find?_delete,
    show s.store.db.outbox.find? T = some o from ho, Option.filter_some]
  simp [hid, Database.taskMatches, show s.store.db.tasks.find? T = some r from hr, hfinal, hdelivered, hold]

/-- **Which runs leave only deletable rows.** In all states of a run every row of a settled task that no
worker still holds is delivered, exactly when every step meets what it must for every task; and the
cleanup then removes a delivered row of a settled task after the retention. -/
theorem settled_rows_deletable_iff (run : (system env).Run h s) :
    (System.AllStates (fun s => ∀ T, Deletable s T) h s ↔
      System.AllSteps (fun s a => ∀ T, Covered env s a T) h) ∧
    ∀ a s' T o t, step env s a = some s' → a.tx? env s = some .cleanupTerminalOutbox → Terminal s T →
      s.outbox T = some o → o.deliveredAt = some t →
      t + seconds env.config.outboxRetentionSeconds < s.clock → s'.outbox T = none := by
  refine ⟨run.allStates_iff_allSteps ?_ ?_, ?_⟩
  · intro T hterminal
    obtain ⟨r, hr, -⟩ := hterminal
    cases hr
  · intro h s a s' run hs hstep
    exact forall_congr' fun T => deletable_next_iff run (hs T) hstep
  · intro a s' T o t hstep htx hterminal ho hdelivered hold
    exact outbox_of_cleanup hstep htx hterminal ho hdelivered hold

/-- Workers that never move are down. -/
theorem workers_of_never (run : (system env).Run h s) {w : ℕ} (hrests : ∀ x ∈ h, x.2.rests w) :
    s.workers w = .down := by
  induction run with
  | start => rfl
  | @step h s s' a run hstep ih =>
    rw [workers_of_rests hstep (hrests _ List.mem_cons_self)]
    exact ih fun x hx => hrests x (List.mem_cons_of_mem _ hx)

/-- Whether the workers from a number on make no move. -/
def Action.below (n : ℕ) : Action → Bool
  | .start w => decide (w < n)
  | .crash w => decide (w < n)
  | .work w _ _ => decide (w < n)
  | _ => true

theorem Action.rests_of_below {n w : ℕ} {a : Action} (ha : a.below n = true) (hw : n ≤ w) : a.rests w := by
  cases a with
  | start v => exact ((of_decide_eq_true ha).trans_le hw).ne
  | crash v => exact ((of_decide_eq_true ha).trans_le hw).ne
  | work v fresh outcome => exact ((of_decide_eq_true ha).trans_le hw).ne
  | _ => trivial

/-- Worker 0 pushes the payload and crashes; worker 1 executes the delivery. -/
def Sample.unacknowledged : List Action :=
  Sample.submitted ++ Sample.publishing ++ [Sample.go 0 0, .crash 0, .start 1] ++ Sample.turn 1 ++
    [Sample.go 1 2, Sample.go 1 3, Sample.go 1 0, Sample.go 1 0,
      .work 1 0 (.responded (Sample.body (.obj []))), Sample.go 1 0]

/-- A dispatcher that crashes between its push and its acknowledgement leaves an undelivered row behind,
and when the task has succeeded nobody takes it up. -/
theorem Sample.exists_undeletable :
    ∃ h s, (system Sample.env).Run h s ∧ ¬ Deletable s Sample.task := by
  obtain ⟨h, s, run, htest⟩ := System.exists_run (system Sample.env) Sample.unacknowledged
    (fun h (s : State) => h.all (fun x => x.2.below 2) &&
      (decide ((s.workers 0).holding = []) && decide ((s.workers 1).holding = [])) &&
      (s.task Sample.task).any (fun r : TaskRow => r.status.terminal) &&
      (s.outbox Sample.task).any fun o : OutboxRow => decide (o.deliveredAt = none)) (by decide +kernel)
  obtain ⟨hrest, hundelivered⟩ := Bool.and_eq_true_iff.mp htest
  obtain ⟨hrest, hterminal⟩ := Bool.and_eq_true_iff.mp hrest
  obtain ⟨hbelow, hholding⟩ := Bool.and_eq_true_iff.mp hrest
  obtain ⟨hfirst, hsecond⟩ := Bool.and_eq_true_iff.mp hholding
  obtain ⟨r, hr, hfinal⟩ := (Option.any_eq_true _ _).mp hterminal
  obtain ⟨o, ho, hnone⟩ := (Option.any_eq_true _ _).mp hundelivered
  refine ⟨h, s, run, fun deletable => ?_⟩
  have hunheld : ¬ Held s Sample.task := by
    intro hheld
    obtain ⟨w, hw⟩ := hheld
    match w with
    | 0 =>
      rw [of_decide_eq_true hfirst] at hw
      cases hw
    | 1 =>
      rw [of_decide_eq_true hsecond] at hw
      cases hw
    | w + 2 =>
      rw [workers_of_never run fun x hx =>
        Action.rests_of_below (List.all_eq_true.mp hbelow x hx) (Nat.le_add_left 2 w)] at hw
      cases hw
  have hsome := deletable ⟨r, hr, hfinal⟩ hunheld o ho
  rw [of_decide_eq_true hnone] at hsome
  cases hsome

/-- The run of the crashed dispatcher has a step that does not meet what it must. -/
theorem settled_rows_deletable_iff_unacknowledged :
    ∃ h s, (system Sample.env).Run h s ∧
      ¬ System.AllSteps (fun s a => ∀ T, Covered Sample.env s a T) h := by
  obtain ⟨h, s, run, hkept⟩ := Sample.exists_undeletable
  refine ⟨h, s, run, fun hcovered => hkept ?_⟩
  exact ((settled_rows_deletable_iff run).1.mpr hcovered).1 Sample.task

/-- The row of a settled task that nobody holds can stay undelivered. -/
theorem unacknowledged_row_kept : ¬ ∀ h s, (system Sample.env).Run h s → ∀ T, Deletable s T := by
  intro deletable
  obtain ⟨h, s, run, hkept⟩ := Sample.exists_undeletable
  exact hkept (deletable h s run Sample.task)

end NeuroLab.ControlPlane
