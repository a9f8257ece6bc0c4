import NeuroLab.Common.Transition

/-!
# Commands that share a store

A command makes calls on a store that other commands use between its calls. What holds under every
schedule is shown one command at a time: each of its calls keeps an invariant and changes the store
only as the guarantee says, and what the command relies on between two calls is stable under the
guarantee. Commands may be started at any time, and end anywhere: killed, refused by the store, or
behind a call whose answer is lost.
-/

namespace NeuroLab.Common

variable {σ κ ρ ε α : Type*}

/-- A command ends with a result, raises, or makes a call and goes on with its answer. -/
inductive Command (κ ρ α : Type*)
  | pure (a : α)
  | raise
  | call (c : κ) (next : ρ → Command κ ρ α)

namespace Command

/-- What becomes of a command at the answer to its call. -/
def resume (next : ρ → Command κ ρ α) : Except ε ρ → Command κ ρ α
  | .ok r => next r
  | .error _ => raise

end Command

/-- The store and the commands started so far. -/
structure Pool (σ κ ρ α : Type*) where
  store : σ
  commands : List (Command κ ρ α)

/-- A move of the environment. -/
inductive Pool.Move (κ ρ α : Type*)
  | start (command : Command κ ρ α)
  | advance (i : ℕ)
  | lose (i : ℕ)
  | kill (i : ℕ)

namespace Pool

variable (run : σ → κ → σ × Except ε ρ)

/-- A move: a command is started, makes its next call and is answered, makes it and is not answered, or is killed. -/
def step (s : Pool σ κ ρ α) : Move κ ρ α → Option (Pool σ κ ρ α)
  | .start command => some { s with commands := s.commands ++ [command] }
  | .advance i =>
    match s.commands[i]? with
    | some (.call c next) =>
      some ⟨(run s.store c).1, s.commands.set i (Command.resume next (run s.store c).2)⟩
    | _ => none
  | .lose i =>
    match s.commands[i]? with
    | some (.call c _) => some ⟨(run s.store c).1, s.commands.set i .raise⟩
    | _ => none
  | .kill i =>
    match s.commands[i]? with
    | some (.call _ _) => some { s with commands := s.commands.set i .raise }
    | _ => none

/-- Commands over a store, under any schedule. -/
def interleaving (init : σ) : System (Pool σ κ ρ α) (Move κ ρ α) where
  init := ⟨init, []⟩
  step := step run

/-- A command is started only if it is one of these. -/
def Starts (admitted : Command κ ρ α → Prop) (_ : Pool σ κ ρ α) : Move κ ρ α → Prop
  | .start command => admitted command
  | _ => True

end Pool

/-- A change that the guarantee allows leaves the predicate true. -/
def Stable (guarantee : σ → σ → Prop) (P : σ → Prop) : Prop := ∀ s s', guarantee s s' → P s → P s'

/-- Under the invariant and from where `P` holds, the calls of a command keep the invariant and meet the guarantee, and
its result meets the postcondition, whatever the guarantee allows others in between. -/
def Assured (run : σ → κ → σ × Except ε ρ) (invariant : σ → Prop) (guarantee : σ → σ → Prop) (Q : α → σ → Prop) :
    Command κ ρ α → (σ → Prop) → Prop
  | .pure a, P => ∀ s, invariant s → P s → Q a s
  | .raise, _ => True
  | .call c next, P =>
    (∀ s, invariant s → P s → invariant (run s c).1 ∧ guarantee s (run s c).1) ∧
      ∃ R : ρ → σ → Prop, (∀ r, Stable guarantee (R r)) ∧
        (∀ s r, invariant s → P s → (run s c).2 = .ok r → R r (run s c).1) ∧
          ∀ r, Assured run invariant guarantee Q (next r) (R r)

/-- All calls of a command and all of its results are of these kinds. -/
def Command.Within (calls : κ → Prop) (results : α → Prop) : Command κ ρ α → Prop
  | .pure a => results a
  | .raise => True
  | .call c next => calls c ∧ ∀ r, (next r).Within calls results

/-- A command that is assured from a predicate which holds and stays. -/
def Standing (run : σ → κ → σ × Except ε ρ) (invariant : σ → Prop) (guarantee : σ → σ → Prop) (Q : α → σ → Prop) (s : σ)
    (command : Command κ ρ α) : Prop :=
  ∃ P, Stable guarantee P ∧ P s ∧ Assured run invariant guarantee Q command P

variable {run : σ → κ → σ × Except ε ρ} {invariant : σ → Prop} {guarantee : σ → σ → Prop} {Q : α → σ → Prop}
  {command : Command κ ρ α} {init : σ} {admitted : Command κ ρ α → Prop}

/-- A command is assured where each call that it may make keeps the invariant and meets the guarantee from anywhere. -/
theorem Command.Within.assured {calls : κ → Prop} {results : α → Prop} (h : command.Within calls results)
    (hcalls : ∀ c, calls c → ∀ s, invariant s → invariant (run s c).1 ∧ guarantee s (run s c).1)
    (hresults : ∀ a, results a → ∀ s, invariant s → Q a s) : Assured run invariant guarantee Q command fun _ => True := by
  induction command with
  | pure a => exact fun s hs _ => hresults a h s hs
  | raise => trivial
  | call c next ih =>
    refine ⟨fun s hs _ => hcalls c h.1 s hs, fun _ _ => True, fun _ _ _ _ h => h, fun _ _ _ _ _ => trivial, fun r => ?_⟩
    exact ih r (h.2 r)

theorem standing_raise (s : σ) : Standing run invariant guarantee Q s (.raise : Command κ ρ α) :=
  ⟨fun _ => True, fun _ _ _ h => h, trivial, trivial⟩

/-- Other commands leave a command standing. -/
theorem Standing.stable {s s' : σ} (h : Standing run invariant guarantee Q s command) (hs : guarantee s s') :
    Standing run invariant guarantee Q s' command := by
  obtain ⟨P, hP, hPs, hassured⟩ := h
  exact ⟨P, hP, hP s s' hs hPs, hassured⟩

/-- A call of a standing command keeps the invariant, meets the guarantee and leaves the rest of the command standing. -/
theorem Standing.call {s : σ} {c : κ} {next : ρ → Command κ ρ α}
    (h : Standing run invariant guarantee Q s (.call c next)) (hs : invariant s) :
    invariant (run s c).1 ∧ guarantee s (run s c).1 ∧
      Standing run invariant guarantee Q (run s c).1 (Command.resume next (run s c).2) := by
  obtain ⟨P, -, hPs, hcall, R, hR, hanswer, hnext⟩ := h
  obtain ⟨hinvariant, hguarantee⟩ := hcall s hs hPs
  refine ⟨hinvariant, hguarantee, ?_⟩
  cases hanswered : (run s c).2 with
  | ok r => exact ⟨R r, hR r, hanswer s r hs hPs hanswered, hnext r⟩
  | error e => exact standing_raise _

namespace Pool

/-- The invariant holds and every command is standing. -/
structure Sound (run : σ → κ → σ × Except ε ρ) (invariant : σ → Prop) (guarantee : σ → σ → Prop) (Q : α → σ → Prop)
    (s : Pool σ κ ρ α) : Prop where
  kept : invariant s.store
  standing : ∀ command ∈ s.commands, Standing run invariant guarantee Q s.store command

/-- Every command stands where the changed one does. -/
theorem Sound.set {s : Pool σ κ ρ α} (h : Sound run invariant guarantee Q s) {store : σ} (i : ℕ)
    (hinvariant : invariant store) (hguarantee : guarantee s.store store)
    (hcommand : Standing run invariant guarantee Q store command) :
    Sound run invariant guarantee Q ⟨store, s.commands.set i command⟩ := by
  refine ⟨hinvariant, fun other hother => ?_⟩
  rcases List.mem_or_eq_of_mem_set hother with hother | rfl
  · exact (h.standing other hother).stable hguarantee
  · exact hcommand

theorem Sound.step {s s' : Pool σ κ ρ α} {move : Move κ ρ α} (h : Sound run invariant guarantee Q s)
    (hrefl : ∀ s, guarantee s s)
    (hadmitted : ∀ command, admitted command → Assured run invariant guarantee Q command fun _ => True)
    (hmove : Starts admitted s move) (hstep : Pool.step run s move = some s') : Sound run invariant guarantee Q s' := by
  have hmem : ∀ (i : ℕ) (command : Command κ ρ α), s.commands[i]? = some command →
      Standing run invariant guarantee Q s.store command :=
    fun i command hi => h.standing command (List.mem_of_getElem? hi)
  cases move with
  | start command =>
    cases hstep
    refine ⟨h.kept, fun other hother => ?_⟩
    rcases List.mem_append.mp hother with hother | hother
    · exact h.standing other hother
    · rw [List.mem_singleton.mp hother]
      exact ⟨fun _ => True, fun _ _ _ h => h, trivial, hadmitted command hmove⟩
  | advance i =>
    simp only [Pool.step] at hstep
    split at hstep
    · next c next hi =>
      cases hstep
      obtain ⟨hinvariant, hguarantee, hstanding⟩ := (hmem i _ hi).call h.kept
      exact h.set i hinvariant hguarantee hstanding
    · cases hstep
  | lose i =>
    simp only [Pool.step] at hstep
    split at hstep
    · next c next hi =>
      cases hstep
      obtain ⟨hinvariant, hguarantee, -⟩ := (hmem i _ hi).call h.kept
      exact h.set i hinvariant hguarantee (standing_raise _)
    · cases hstep
  | kill i =>
    simp only [Pool.step] at hstep
    split at hstep
    · cases hstep
      exact h.set i h.kept (hrefl s.store) (standing_raise _)
    · cases hstep

/-- Where every command that may be started is assured from nowhere in particular, the invariant holds under every
schedule, and whatever a command has ended with meets the postcondition from then on. -/
theorem sound_of_run (hrefl : ∀ s, guarantee s s) (hinit : invariant init)
    (hadmitted : ∀ command, admitted command → Assured run invariant guarantee Q command fun _ => True)
    {h : History (Pool σ κ ρ α) (Move κ ρ α)} {s : Pool σ κ ρ α} (hrun : (interleaving run init).Run h s)
    (hstarts : System.AllSteps (Starts admitted) h) : Sound run invariant guarantee Q s :=
  hrun.guarded_invariant ⟨hinit, List.forall_mem_nil _⟩
    (fun _ _ _ hs hmove hstep => hs.step hrefl hadmitted hmove hstep) hstarts

/-- What a command has ended with. -/
theorem Sound.result {s : Pool σ κ ρ α} (h : Sound run invariant guarantee Q s) {a : α}
    (ha : Command.pure a ∈ s.commands) : Q a s.store := by
  obtain ⟨P, -, hPs, hassured⟩ := h.standing _ ha
  exact hassured s.store h.kept hPs

end Pool

end NeuroLab.Common
