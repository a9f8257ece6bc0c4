import NeuroLab.Common.Lease
import NeuroLab.ControlPlane.Sample
import NeuroLab.ControlPlane.Steps

/-!
# The life of a task row

The row of a task is a slot that leases expire on: it is absent, pending while queued,
held by its execution id while running, and closed when it has succeeded or failed. The
control plane implements that slot, so what holds of expiring leases holds of tasks.
-/

namespace NeuroLab.ControlPlane

open Python Common

variable {env : Env} {s s' : State} {a : Action} {h : History State Action}

/-! ## The shape of a row -/

/-- The columns that go with the status of a row. -/
structure RowShape (r : TaskRow) : Prop where
  running : r.status = .running → r.executionId.isSome ∧ r.startedAt.isSome
  queued : r.status = .queued → r.executionId = none
  result : r.result.isSome ↔ r.status = .succeeded

theorem Unclaimed.shape {r : TaskRow} (h : Unclaimed r) : RowShape r where
  running hs := by simp [h.queued] at hs
  queued _ := h.executionId
  result := by simp [h.queued, h.result]

/-- Failing a row that has not succeeded keeps its shape. -/
theorem RowShape.fail {r : TaskRow} (h : RowShape r) (hs : r.status ≠ .succeeded) (now : ℕ)
    (message : Option Str) : RowShape (r.fail now message) where
  running := nofun
  queued := nofun
  result := by
    have hnone : ¬ r.result.isSome := fun hr => hs (h.result.mp hr)
    simp [TaskRow.fail, hnone]

theorem leasedBy_iff {E : Uuid} {r : TaskRow} :
    leasedBy E r = true ↔ r.status = .running ∧ r.executionId = some E := by
  simp [leasedBy]

/-- A row that is queued or running has not succeeded. -/
theorem recoverable_status {config : Config} {now : ℕ} {r : TaskRow} (h : recoverable config now r = true) :
    r.status = .queued ∨ (r.status = .running ∧
      ∃ t, r.startedAt = some t ∧ t + seconds config.taskLeaseSeconds < now) := by
  simp only [recoverable, isQueued, Bool.or_eq_true, Bool.and_eq_true, decide_eq_true_eq] at h
  rcases h with hq | ⟨hr, hexpired⟩
  · exact Or.inl hq
  · cases ht : r.startedAt with
    | none => simp [ht] at hexpired
    | some t => exact Or.inr ⟨hr, t, rfl, by simpa [ht] using hexpired⟩

/-- Every move keeps the shape. -/
theorem TaskStep.shape {now : ℕ} {T : Uuid} {tx : Tx} {old new : Option TaskRow}
    (hmove : TaskStep env now T tx old new) (hold : ∀ r, old = some r → RowShape r) :
    ∀ r, new = some r → RowShape r := by
  have hoffered : ∀ {r}, Offered old r → RowShape r := by
    intro r hoffer
    cases hoffer with
    | stored hr => exact hold r hr
    | created _ unclaimed => exact unclaimed.shape
  intro r' hr'
  cases hmove with
  | keep => exact hold r' hr'
  | create unclaimed =>
    cases hr'
    exact unclaimed.shape
  | lease _ hoffer hq =>
    cases hr'
    have hshape := hoffered hoffer
    exact ⟨fun _ => ⟨rfl, rfl⟩, nofun, by simpa [TaskRow.lease, hq] using hshape.result⟩
  | block hoffer hq =>
    cases hr'
    exact (hoffered hoffer).fail (by simp [hq]) _ _
  | @release payload r hrec =>
    cases hr'
    have hshape := hold r rfl
    refine ⟨nofun, fun _ => rfl, ?_⟩
    rcases recoverable_status hrec with hs | ⟨hs, -⟩ <;>
      simpa [TaskRow.release, hs] using hshape.result
  | succeed model result hlease =>
    cases hr'
    exact ⟨nofun, nofun, by simp [TaskRow.succeed]⟩
  | @fail E exc r message hlease =>
    cases hr'
    exact (hold r rfl).fail (by simp [(leasedBy_iff.mp hlease).1]) _ _
  | @reap observed r horphan _ =>
    cases hr'
    have hq : r.status = .queued := by
      simp only [orphaned, isQueued, Bool.and_eq_true, decide_eq_true_eq] at horphan
      exact horphan.1
    exact (hold r rfl).fail (by simp [hq]) _ _

/-- Every row of every reachable state has its shape. -/
theorem run_shape (run : (system env).Run h s) (T : Uuid) : ∀ r, s.task T = some r → RowShape r := by
  refine run.invariant (P := fun s => ∀ r, s.task T = some r → RowShape r) ?_ ?_
  · intro r hr
    cases hr
  · intro s a s' hs hstep
    rcases step_task hstep T with heq | ⟨tx, -, hmove⟩
    · rw [heq]
      exact hs
    · exact hmove.shape hs

/-! ## The row as a slot -/

/-- The slot a row stands for; a closed slot keeps the whole row. -/
def taskSlot : Option TaskRow → Lease.Slot Uuid TaskRow
  | none => .absent
  | some r => match r.status with
    | .queued => .pending
    | .running => .held (r.executionId.getD 0) (r.startedAt.getD 0)
    | .succeeded => .closed r
    | .failed => .closed r

/-- Which transaction makes which move of the slot. -/
def taskLabel (env : Env) (T : Uuid) (tx? : Option Tx) : Lease.Move Uuid TaskRow → Prop
  | .idle => True
  | .enter => True
  | .acquire E => ∃ taskId payload, tx? = some (.claimTask taskId payload E) ∧
      env.driver.uuid taskId = some T
  | .expire => ∃ payload, tx? = some (.recover T payload)
  | .settle E r => (∃ c, tx? = some (.recordCompletion T E c) ∧ r.status = .succeeded) ∨
      ∃ exc, tx? = some (.recordFailed T E exc) ∧ r.status = .failed
  | .withdraw r => r.status = .failed

theorem taskSlot_of_terminal {r : TaskRow} (h : r.status.terminal = true) :
    taskSlot (some r) = .closed r := by
  obtain ⟨_, _, _, _, status, _⟩ := r
  cases status <;> first | rfl | cases h

theorem taskSlot_of_leasedBy {E : Uuid} {r : TaskRow} (h : leasedBy E r = true) :
    taskSlot (some r) = .held E (r.startedAt.getD 0) := by
  obtain ⟨hs, he⟩ := leasedBy_iff.mp h
  simp [taskSlot, hs, he]

/-- A held slot is a row running under its holder. -/
theorem row_of_held {old : Option TaskRow} {E : Uuid} {t : ℕ} (hslot : taskSlot old = .held E t)
    (hshape : ∀ r, old = some r → RowShape r) :
    ∃ r, old = some r ∧ r.status = .running ∧ r.executionId = some E ∧ r.startedAt = some t := by
  cases old with
  | none => cases hslot
  | some r =>
    simp only [taskSlot] at hslot
    split at hslot
    · cases hslot
    · next hrunning =>
      obtain ⟨hE, ht⟩ := Lease.Slot.held.inj hslot
      obtain ⟨hexecution, hstarted⟩ := (hshape r rfl).running hrunning
      obtain ⟨E', hE'⟩ := Option.isSome_iff_exists.mp hexecution
      obtain ⟨t', ht'⟩ := Option.isSome_iff_exists.mp hstarted
      rw [hE', Option.getD_some] at hE
      rw [ht', Option.getD_some] at ht
      exact ⟨r, rfl, hrunning, hE ▸ hE', ht ▸ ht'⟩
    · cases hslot
    · cases hslot

/-- An offered queued row is a free slot. -/
theorem Offered.free {old : Option TaskRow} {r : TaskRow} (h : Offered old r) (hq : r.status = .queued) :
    (taskSlot old).Free := by
  cases h with
  | stored hr => simp [hr, taskSlot, hq, Lease.Slot.Free]
  | created hr => simp [hr, taskSlot, Lease.Slot.Free]

/-- Every move of the row is a move of the slot, made by the transaction its label allows. -/
theorem TaskStep.slot {now : ℕ} {T : Uuid} {tx : Tx} {old new : Option TaskRow}
    (hmove : TaskStep env now T tx old new) :
    ∃ m, taskLabel env T (some tx) m ∧
      Lease.Step (seconds env.config.taskLeaseSeconds) now (taskSlot old) m (taskSlot new) := by
  cases hmove with
  | keep => exact ⟨.idle, trivial, .idle _⟩
  | @create _ r unclaimed =>
    refine ⟨.enter, trivial, ?_⟩
    have hslot : taskSlot (some r) = .pending := by simp [taskSlot, unclaimed.queued]
    rw [hslot]
    exact .enter
  | @lease taskId payload E _ r hid hoffer hq =>
    exact ⟨.acquire E, ⟨taskId, payload, rfl, hid⟩, .acquire E (hoffer.free hq)⟩
  | @block _ _ _ _ r hoffer hq =>
    exact ⟨.withdraw (r.fail now uncertainMessage), rfl, .withdraw _ (hoffer.free hq)⟩
  | @release payload r hrec =>
    rcases recoverable_status hrec with hs | ⟨hs, t, ht, hlt⟩
    · refine ⟨.idle, trivial, ?_⟩
      have hslot : taskSlot (some r) = taskSlot (some r.release) := by
        simp [taskSlot, hs, TaskRow.release]
      rw [hslot]
      exact .idle _
    · refine ⟨.expire, ⟨payload, rfl⟩, ?_⟩
      have hslot : taskSlot (some r) = .held (r.executionId.getD 0) t := by simp [taskSlot, hs, ht]
      rw [hslot]
      exact .expire hlt
  | @succeed E c r model result hlease =>
    refine ⟨.settle E (r.succeed now model result), Or.inl ⟨c, rfl, rfl⟩, ?_⟩
    rw [taskSlot_of_leasedBy hlease]
    exact .settle E _
  | @fail E exc r message hlease =>
    refine ⟨.settle E (r.fail now message), Or.inr ⟨exc, rfl, rfl⟩, ?_⟩
    rw [taskSlot_of_leasedBy hlease]
    exact .settle E _
  | @reap observed r horphan _ =>
    have hq : r.status = .queued := by
      simp only [orphaned, isQueued, Bool.and_eq_true, decide_eq_true_eq] at horphan
      exact horphan.1
    have hfree : (taskSlot (some r)).Free := by simp [taskSlot, hq, Lease.Slot.Free]
    exact ⟨.withdraw (r.fail now orphanedMessage), rfl, .withdraw _ hfree⟩

/-- The control plane implements the slot of every task. -/
theorem system_implements_lease (env : Env) (T : Uuid) :
    Lease.Implements (system env) (seconds env.config.taskLeaseSeconds) State.clock
      (fun s => taskSlot (s.task T)) fun s a => taskLabel env T (a.tx? env s) where
  monotone hstep := step_clock hstep
  moves := by
    intro s a s' hstep
    rcases step_task hstep T with heq | ⟨tx, htx, hmove⟩
    · refine ⟨.idle, trivial, ?_⟩
      rw [heq]
      exact .idle _
    · rw [htx]
      exact hmove.slot

/-- A row in a final state is the same row in every later state. -/
theorem terminal_row_unchanged {mid earlier : History State Action} {s₁ : State} {T : Uuid} {r : TaskRow}
    (run : (system env).Run (mid ++ (s₁, a) :: earlier) s) (hr : s₁.task T = some r)
    (hterminal : r.status.terminal = true) : s.task T = some r := by
  have hclosed := (system_implements_lease env T).closed_absorbing run
    (by rw [hr]; exact taskSlot_of_terminal hterminal)
  cases hs : s.task T with
  | none => simp [hs, taskSlot] at hclosed
  | some r' =>
    simp only [hs, taskSlot] at hclosed
    split at hclosed <;> cases hclosed <;> rfl

/-- A row found succeeded had succeeded before, unless the step completes it under its lease. -/
theorem step_succeeded (hstep : step env s a = some s') {T : Uuid} {r' : TaskRow}
    (hr' : s'.task T = some r') (hsucceeded : r'.status = .succeeded) :
    s.task T = some r' ∨ ∃ r E c, s.task T = some r ∧ leasedBy E r = true ∧ r'.executionId = some E ∧
      a.tx? env s = some (.recordCompletion T E c) := by
  rcases step_task hstep T with heq | ⟨tx, htx, hmove⟩
  · exact Or.inl (heq ▸ hr')
  · generalize s.task T = old at hmove
    rw [hr'] at hmove
    cases hmove with
    | keep => exact Or.inl rfl
    | create unclaimed => simp [unclaimed.queued] at hsucceeded
    | lease => cases hsucceeded
    | block => cases hsucceeded
    | release => cases hsucceeded
    | @succeed E c r model result hlease =>
      exact Or.inr ⟨r, E, c, rfl, hlease, (leasedBy_iff.mp hlease).2, htx⟩
    | fail => cases hsucceeded
    | reap => cases hsucceeded

/-- **Terminal rows are absorbing and results are fenced.** In every run, a row that was final is
the same row ever after; a row moves to succeeded only in a completion under the lease it stores;
and the lease and result columns go with the status. -/
theorem terminal_absorbing_and_fenced (run : (system env).Run h s) (T : Uuid) :
    (∀ mid earlier s₁ a r, h = mid ++ (s₁, a) :: earlier → s₁.task T = some r →
        r.status.terminal = true → s.task T = some r) ∧
      (∀ a s' r', step env s a = some s' → s'.task T = some r' → r'.status = .succeeded →
        (∀ r, s.task T = some r → r.status ≠ .succeeded) →
        ∃ r E c, s.task T = some r ∧ r.status = .running ∧ r.executionId = some E ∧
          a.tx? env s = some (.recordCompletion T E c)) ∧
      ∀ r, s.task T = some r →
        (r.status = .running → r.executionId.isSome ∧ r.startedAt.isSome) ∧
        (r.status = .queued → r.executionId = none) ∧ (r.result.isSome ↔ r.status = .succeeded) := by
  refine ⟨?_, ?_, ?_⟩
  · intro mid earlier s₁ a r hsplit hr hterminal
    subst hsplit
    exact terminal_row_unchanged run hr hterminal
  · intro a s' r' hstep hr' hsucceeded hbefore
    rcases step_succeeded hstep hr' hsucceeded with hsame | ⟨r, E, c, hr, hlease, -, htx⟩
    · exact absurd hsucceeded (hbefore r' hsame)
    · obtain ⟨hrunning, hexecution⟩ := leasedBy_iff.mp hlease
      exact ⟨r, E, c, hr, hrunning, hexecution, htx⟩
  · intro r hr
    have hshape := run_shape run T r hr
    exact ⟨hshape.running, hshape.queued, hshape.result⟩

/-- A task that is delivered, executed and completed has its result. -/
theorem terminal_absorbing_and_fenced_completed :
    ∃ h s r, (system Sample.env).Run h s ∧ s.task Sample.task = some r ∧ r.status = .succeeded ∧
      r.result.isSome := by
  obtain ⟨h, s, run, htest⟩ := System.exists_run (system Sample.env) Sample.completed
    (Sample.inStatus .succeeded) (by decide +kernel)
  obtain ⟨r, hr, hsucceeded⟩ := Sample.inStatus_iff htest
  have hclaim := terminal_absorbing_and_fenced run Sample.task
  exact ⟨h, s, r, run, hr, hsucceeded, (hclaim.2.2 r hr).2.2.mpr hsucceeded⟩

/-! ## Leases in time -/

/-- **Leases exclude each other in time.** Between two claims that hand out a lease of one task
more than the lease term passes, and a recovery transaction returns the row from the first lease
to the queue; so the two are never unexpired together. -/
theorem leases_exclusive {later mid earlier : History State Action} {s₁ s₂ : State} {a₁ a₂ : Action}
    {T E₁ E₂ : Uuid} (run : (system env).Run (later ++ (s₂, a₂) :: (mid ++ (s₁, a₁) :: earlier)) s)
    (grant₁ : a₁.grant? env s₁ = some (T, E₁)) (grant₂ : a₂.grant? env s₂ = some (T, E₂)) :
    s₁.clock + seconds env.config.taskLeaseSeconds < s₂.clock ∧
      (∃ x ∈ mid, ∃ r x', x.1.task T = some r ∧ r.status = .running ∧ r.executionId = some E₁ ∧
        (∃ payload, x.2.tx? env x.1 = some (.recover T payload)) ∧ step env x.1 x.2 = some x' ∧
        x'.task T = some r.release) ∧
      ¬ (s.clock ≤ s₁.clock + seconds env.config.taskLeaseSeconds ∧
        s.clock ≤ s₂.clock + seconds env.config.taskLeaseSeconds) := by
  have imp := system_implements_lease env T
  obtain ⟨s₂', run₂, hstep₂, -⟩ := run.split rfl
  obtain ⟨s₁', run₁, hstep₁, -⟩ := run₂.split rfl
  obtain ⟨-, -, -, -, -, r₁, -, -, hrow₁⟩ := step_grant hstep₁ grant₁
  obtain ⟨-, -, -, -, -, r₂, hoffer₂, hqueued₂, -⟩ := step_grant hstep₂ grant₂
  have hheld : taskSlot (s₁'.task T) = .held E₁ s₁.clock := by
    rw [State.task, hrow₁]
    rfl
  obtain ⟨hterm, x, hx, hslot, ⟨payload, htx⟩, hexpired⟩ :=
    imp.expired_between run₂ hstep₁ hheld (hoffer₂.free hqueued₂)
  refine ⟨hterm, ⟨x, hx, ?_⟩, ?_⟩
  · obtain ⟨earlier', x', run', hstep⟩ := run₂.step_of_mem (List.mem_append_left _ hx)
    obtain ⟨r, hr, hrunning, hexecution, hstarted⟩ := row_of_held hslot (run_shape run' T)
    refine ⟨r, x', hr, hrunning, hexecution, ⟨payload, htx⟩, hstep, ?_⟩
    have hrecoverable : recoverable env.config x.1.clock r = true := by
      simpa [recoverable, hrunning, hstarted] using Or.inr hexpired
    rcases step_db hstep with ⟨tx, reply, htx', hexec⟩ | ⟨hnone, -⟩
    · rw [htx] at htx'
      cases htx'
      rw [State.task, (exec_recover hexec hr).1, if_pos hrecoverable]
    · rw [htx] at hnone
      cases hnone
  · have hlast := imp.clock_le run (x := (s₂, a₂)) (by simp)
    intro hboth
    have hfirst := hboth.1
    simp only at hlast
    omega

/-- A paused worker's lease is recovered after its term and another one is handed out. -/
theorem leases_exclusive_reclaimed :
    ∃ (later mid earlier : History State Action) (s s₁ s₂ : State) (a₁ a₂ : Action),
      (system Sample.env).Run (later ++ (s₂, a₂) :: (mid ++ (s₁, a₁) :: earlier)) s ∧
      a₁.grant? Sample.env s₁ = some (Sample.task, 2) ∧ a₂.grant? Sample.env s₂ = some (Sample.task, 4) ∧
      s₁.clock + seconds 900 < s₂.clock := by
  obtain ⟨h, s, run, htest⟩ := System.exists_run (system Sample.env) Sample.reclaimed
    (fun h _ => Sample.stepAt 0 (fun s a => decide (a.grant? Sample.env s = some (Sample.task, 4))) h &&
      Sample.stepAt 16 (fun s a => decide (a.grant? Sample.env s = some (Sample.task, 2))) h)
    (by decide +kernel)
  obtain ⟨hsecond, hfirst⟩ := Bool.and_eq_true_iff.mp htest
  obtain ⟨later, s₂, a₂, mid, s₁, a₁, earlier, rfl, grant₂, grant₁⟩ :=
    Sample.split_of_stepAt (by decide) hsecond hfirst
  have grant₁ := of_decide_eq_true grant₁
  have grant₂ := of_decide_eq_true grant₂
  exact ⟨later, mid, earlier, s, s₁, s₂, a₁, a₂, run, grant₁, grant₂, (leases_exclusive run grant₁ grant₂).1⟩

end NeuroLab.ControlPlane
