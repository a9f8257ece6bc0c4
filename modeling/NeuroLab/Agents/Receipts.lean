import NeuroLab.Python.Escapes
import NeuroLab.Python.Sha256

/-!
# Receipts of role hand-offs

A receipt holds a state, the hand-offs that led to it and a digest of both. Verification
replays the hand-offs from the initial state, so what it accepts is what can be built: the
digest is a function of the rest, and the replay is the same step that appending takes.
-/

namespace NeuroLab.Agents

open Python

/-! ## Roles -/

/-- `^[a-z][a-z0-9_.-]{2,127}$`. -/
def isAction (s : Str) : Bool :=
  let isLower (c : ℕ) : Bool := 0x61 ≤ c && c ≤ 0x7A
  match s with
  | c :: rest => isLower c && spans 2 127 (fun d => isLower d || isDigit d || d ∈ lit "_.-") rest
  | [] => false

/-- `_ROLE_ACTIONS`. -/
def roleActions : List (Str × List Str) :=
  [(lit "supervisor", [lit "workflow.plan", lit "workflow.route", lit "workflow.cancel", lit "workflow.report"]),
    (lit "researcher", [lit "research.evidence.inspect"]),
    (lit "developer", [lit "engineering.worktree.edit"]),
    (lit "tester", [lit "engineering.worktree.test", lit "policy.validate"]),
    (lit "reviewer", [lit "engineering.diff.review"]),
    (lit "synthesizer", [lit "report.compose"])]

/-- `allowed_actions`, or the text of its `AgentRolePolicyError`. -/
def allowedActions (role : Str) : Except Str (List Str) :=
  match roleActions.find? fun entry => entry.1 = role with
  | some entry => .ok entry.2
  | none => .error (lit "unknown agent role")

/-- `require_allowed_action`. -/
def requireAllowedAction (role action : Str) : Except Str Unit :=
  if !isAction action then .error (lit "action name is malformed")
  else do
    let actions ← allowedActions role
    if action ∉ actions then .error (lit "action is outside the role allowlist")
    else .ok ()

/-! ## Transitions -/

/-- `RoleTransition`. -/
structure RoleTransition where
  fromState : Str
  toState : Str
  role : Str
  action : Str
deriving DecidableEq

/-- `_MINIMAL_TRANSITIONS`. -/
def minimalTransitions : List RoleTransition :=
  [⟨lit "planned", lit "routed", lit "supervisor", lit "workflow.route"⟩,
    ⟨lit "routed", lit "worktree_edited", lit "developer", lit "engineering.worktree.edit"⟩,
    ⟨lit "worktree_edited", lit "tested", lit "tester", lit "engineering.worktree.test"⟩,
    ⟨lit "tested", lit "reviewed", lit "reviewer", lit "engineering.diff.review"⟩,
    ⟨lit "reviewed", lit "reported", lit "synthesizer", lit "report.compose"⟩]

/-- `require_allowed_transition`, or the text of its `AgentTransitionPolicyError`. -/
def requireAllowedTransition (requested : RoleTransition) : Except Str Unit :=
  match requireAllowedAction requested.role requested.action with
  | .error _ => .error (lit "role action is not allowed")
  | .ok () =>
    if requested ∉ minimalTransitions then .error (lit "state transition is outside the approved graph")
    else .ok ()

/-! ## Receipts -/

/-- `TransitionReceipt`. -/
structure TransitionReceipt where
  state : Str
  transitions : List RoleTransition
  integrity : Str
deriving DecidableEq

/-- `_integrity`. -/
@[irreducible] def integrity (state : Str) (transitions : List RoleTransition) : Str :=
  let payload : Json :=
    .obj [(lit "state", .str state),
      (lit "transitions", .arr (transitions.map fun item =>
        .obj [(lit "from_state", .str item.fromState), (lit "to_state", .str item.toState),
          (lit "role", .str item.role), (lit "action", .str item.action)]))]
  sha256 (ensureAscii (dumpsSorted PyFloat.text payload))

/-- `new_transition_receipt`. -/
def newTransitionReceipt : TransitionReceipt := ⟨lit "planned", [], integrity (lit "planned") []⟩

/-- The loop of `verify_transition_receipt`, from a current state to the last one. -/
def replay (currentState : Str) : List RoleTransition → Except Str Str
  | [] => .ok currentState
  | transition :: transitions =>
    if transition.fromState ≠ currentState then .error (lit "receipt transition continuity failed")
    else match requireAllowedTransition transition with
      | .error _ => .error (lit "receipt contains an unapproved transition")
      | .ok () => replay transition.toState transitions

/-- `verify_transition_receipt`, or the text of its `AgentReceiptPolicyError`. -/
def verifyTransitionReceipt (receipt : TransitionReceipt) : Except Str Unit :=
  if receipt.integrity ≠ integrity receipt.state receipt.transitions then
    .error (lit "receipt integrity check failed")
  else do
    let currentState ← replay (lit "planned") receipt.transitions
    if receipt.state ≠ currentState then .error (lit "receipt terminal state does not match transitions")
    else .ok ()

/-- `require_completed_transition_receipt`. -/
def requireCompletedTransitionReceipt (receipt : TransitionReceipt) : Except Str Unit := do
  verifyTransitionReceipt receipt
  if receipt.state ≠ lit "reported" then .error (lit "receipt has not reached the terminal state")
  else .ok ()

/-- The receipt with a transition more, under its own digest. -/
def TransitionReceipt.extend (receipt : TransitionReceipt) (transition : RoleTransition) : TransitionReceipt :=
  let transitions := receipt.transitions ++ [transition]
  ⟨transition.toState, transitions, Agents.integrity transition.toState transitions⟩

/-- `append_transition`. -/
def appendTransition (receipt : TransitionReceipt) (transition : RoleTransition) : Except Str TransitionReceipt := do
  verifyTransitionReceipt receipt
  if transition.fromState ≠ receipt.state then .error (lit "transition does not start at receipt state")
  else match requireAllowedTransition transition with
    | .error _ => .error (lit "transition is outside the approved graph")
    | .ok () => .ok (receipt.extend transition)

/-- What can be built by appending. -/
inductive Built : TransitionReceipt → Prop
  | new : Built newTransitionReceipt
  | append {receipt receipt' : TransitionReceipt} (transition : RoleTransition) :
    Built receipt → appendTransition receipt transition = .ok receipt' → Built receipt'

variable {receipt receipt' : TransitionReceipt} {transition : RoleTransition} {transitions : List RoleTransition}
  {state state' : Str}

/-- The role check of an approved transition passes. -/
theorem requireAllowedTransition_eq_ok_iff :
    requireAllowedTransition transition = .ok () ↔ transition ∈ minimalTransitions := by
  have happroved : ∀ t ∈ minimalTransitions, requireAllowedAction t.role t.action = .ok () := by decide +kernel
  unfold requireAllowedTransition
  constructor
  · intro h
    split at h
    · cases h
    · split at h
      · cases h
      next hmem => exact not_not.mp hmem
  · intro hmem
    rw [happroved _ hmem]
    exact if_neg (not_not.mpr hmem)

theorem replay_cons_eq_ok_iff :
    replay state (transition :: transitions) = .ok state' ↔
      transition.fromState = state ∧ transition ∈ minimalTransitions ∧ replay transition.toState transitions = .ok state' := by
  rw [replay, ← requireAllowedTransition_eq_ok_iff]
  split
  next hstate => exact ⟨nofun, fun h => absurd h.1 hstate⟩
  next hstate =>
    rw [not_not] at hstate
    cases requireAllowedTransition transition with
    | error e => exact ⟨nofun, nofun⟩
    | ok u => exact ⟨fun h => ⟨hstate, rfl, h⟩, fun h => h.2.2⟩

/-- A replay goes on where another stopped. -/
theorem replay_append (more : List RoleTransition) :
    replay state (transitions ++ more) = (replay state transitions).bind fun current => replay current more := by
  induction transitions generalizing state with
  | nil => rfl
  | cons transition transitions ih =>
    rw [List.cons_append, replay, replay]
    split
    · rfl
    · cases requireAllowedTransition transition with
      | error e => rfl
      | ok u => exact ih

theorem verifyTransitionReceipt_eq_ok_iff :
    verifyTransitionReceipt receipt = .ok () ↔
      receipt.integrity = integrity receipt.state receipt.transitions ∧
        replay (lit "planned") receipt.transitions = .ok receipt.state := by
  unfold verifyTransitionReceipt
  split
  next h => exact ⟨nofun, fun h' => absurd h'.1 h⟩
  next h =>
    rw [not_not] at h
    cases hreplay : replay (lit "planned") receipt.transitions with
    | error e => exact ⟨nofun, nofun⟩
    | ok current =>
      simp only [bind, Except.bind, Except.ok.injEq]
      by_cases hstate : receipt.state = current
      · simp [h, hstate]
      · simp [hstate, Ne.symm hstate]

/-- A transition is appended to what verifies, if it is approved and starts at the state. -/
theorem appendTransition_eq_ok_iff :
    appendTransition receipt transition = .ok receipt' ↔
      verifyTransitionReceipt receipt = .ok () ∧ transition.fromState = receipt.state ∧
        transition ∈ minimalTransitions ∧ receipt.extend transition = receipt' := by
  rw [← requireAllowedTransition_eq_ok_iff]
  unfold appendTransition
  cases verifyTransitionReceipt receipt with
  | error e => exact ⟨nofun, nofun⟩
  | ok u =>
    simp only [bind, Except.bind]
    split
    next hstate => exact ⟨nofun, fun h => absurd h.2.1 hstate⟩
    next hstate =>
      rw [not_not] at hstate
      cases requireAllowedTransition transition with
      | error e => exact ⟨nofun, nofun⟩
      | ok u => simp [hstate]

/-- A receipt under its own digest is determined by the rest. -/
theorem eq_of_integrity (h : receipt.integrity = integrity receipt.state receipt.transitions) :
    receipt = ⟨receipt.state, receipt.transitions, integrity receipt.state receipt.transitions⟩ := by
  rw [← h]

/-- The replay of an extended receipt is one step more. -/
theorem verify_extend_iff :
    verifyTransitionReceipt (receipt.extend transition) = .ok () ↔
      replay (lit "planned") receipt.transitions = .ok transition.fromState ∧ transition ∈ minimalTransitions := by
  have hdigest : (receipt.extend transition).integrity =
      integrity (receipt.extend transition).state (receipt.extend transition).transitions := rfl
  have hreplay : replay (lit "planned") (receipt.extend transition).transitions =
      (replay (lit "planned") receipt.transitions).bind fun current => replay current [transition] := replay_append _
  have hlast (current : Str) : replay current [transition] = .ok (receipt.extend transition).state ↔
      transition.fromState = current ∧ transition ∈ minimalTransitions :=
    replay_cons_eq_ok_iff.trans ⟨fun h => ⟨h.1, h.2.1⟩, fun h => ⟨h.1, h.2, rfl⟩⟩
  rw [verifyTransitionReceipt_eq_ok_iff, hreplay]
  cases replay (lit "planned") receipt.transitions with
  | error e => exact ⟨fun h => (nomatch h.2), fun h => (nomatch h.1)⟩
  | ok current =>
    have hstate : (.ok current : Except Str Str) = .ok transition.fromState ↔ transition.fromState = current :=
      ⟨fun h => (Except.ok.inj h).symm, fun h => h ▸ rfl⟩
    rw [hstate, ← hlast current]
    exact ⟨fun h => h.2, fun h => ⟨hdigest, h⟩⟩

/-- A successful append returns what the replay would accept. -/
theorem appendTransition_verifies (h : appendTransition receipt transition = .ok receipt') :
    verifyTransitionReceipt receipt' = .ok () := by
  obtain ⟨hverified, hstate, hmem, rfl⟩ := appendTransition_eq_ok_iff.mp h
  rw [verify_extend_iff, hstate]
  exact ⟨(verifyTransitionReceipt_eq_ok_iff.mp hverified).2, hmem⟩

theorem verify_of_built (h : Built receipt) : verifyTransitionReceipt receipt = .ok () := by
  cases h with
  | new => exact verifyTransitionReceipt_eq_ok_iff.mpr ⟨rfl, rfl⟩
  | append transition _ happend => exact appendTransition_verifies happend

/-- Every chain that replays can be built, by induction from its end. -/
theorem built_of_replay (h : replay (lit "planned") transitions = .ok state) :
    Built ⟨state, transitions, integrity state transitions⟩ := by
  induction transitions using List.reverseRecOn generalizing state with
  | nil =>
    cases h
    exact .new
  | append_singleton transitions transition ih =>
    rw [replay_append] at h
    cases hreplay : replay (lit "planned") transitions with
    | error e => rw [hreplay] at h; cases h
    | ok current =>
      rw [hreplay] at h
      obtain ⟨hstate, hmem, hlast⟩ := replay_cons_eq_ok_iff.mp h
      cases hlast
      refine .append transition (ih hreplay) (appendTransition_eq_ok_iff.mpr ⟨?_, hstate, hmem, rfl⟩)
      exact verifyTransitionReceipt_eq_ok_iff.mpr ⟨rfl, hreplay⟩

/-- The approved transitions from a state on. -/
def remaining (state : Str) : List RoleTransition := minimalTransitions.dropWhile fun t => t.fromState ≠ state

/-- A replay that ends in the terminal state takes all of the remaining transitions. -/
theorem eq_remaining_of_replay (h : replay state transitions = .ok (lit "reported")) : transitions = remaining state := by
  induction transitions generalizing state with
  | nil =>
    cases h
    decide
  | cons transition transitions ih =>
    have hremaining : ∀ t ∈ minimalTransitions, remaining t.fromState = t :: remaining t.toState := by decide
    obtain ⟨rfl, hmem, hrest⟩ := replay_cons_eq_ok_iff.mp h
    rw [hremaining _ hmem, ← ih hrest]

theorem requireCompleted_eq_ok_iff :
    requireCompletedTransitionReceipt receipt = .ok () ↔
      receipt = ⟨lit "reported", minimalTransitions, integrity (lit "reported") minimalTransitions⟩ := by
  have hcompleted : requireCompletedTransitionReceipt receipt = .ok () ↔
      verifyTransitionReceipt receipt = .ok () ∧ receipt.state = lit "reported" := by
    unfold requireCompletedTransitionReceipt
    cases verifyTransitionReceipt receipt with
    | error e => exact ⟨nofun, nofun⟩
    | ok u => simp [bind, Except.bind]
  rw [hcompleted, verifyTransitionReceipt_eq_ok_iff]
  constructor
  · rintro ⟨⟨hintegrity, hreplay⟩, hstate⟩
    have htransitions : receipt.transitions = minimalTransitions := eq_remaining_of_replay (hstate ▸ hreplay)
    rw [eq_of_integrity hintegrity, htransitions, hstate]
  · rintro rfl
    have hreplay : replay (lit "planned") minimalTransitions = .ok (lit "reported") := by decide +kernel
    exact ⟨⟨rfl, hreplay⟩, rfl⟩

/-- Verification accepts exactly what can be built. A transition is appended exactly to a receipt that verifies and
whose extension verifies, and the extension is what is returned. A receipt is completed exactly by all the approved
transitions in their order. -/
theorem receipts_reachable :
    (∀ receipt, verifyTransitionReceipt receipt = .ok () ↔ Built receipt) ∧
      (∀ receipt transition receipt', appendTransition receipt transition = .ok receipt' ↔
        verifyTransitionReceipt receipt = .ok () ∧ receipt' = receipt.extend transition ∧
          verifyTransitionReceipt receipt' = .ok ()) ∧
      ∀ receipt, requireCompletedTransitionReceipt receipt = .ok () ↔
        receipt = ⟨lit "reported", minimalTransitions, integrity (lit "reported") minimalTransitions⟩ := by
  refine ⟨fun receipt => ⟨fun h => ?_, verify_of_built⟩, fun receipt transition receipt' => ?_,
    fun receipt => requireCompleted_eq_ok_iff⟩
  · obtain ⟨hintegrity, hreplay⟩ := verifyTransitionReceipt_eq_ok_iff.mp h
    rw [eq_of_integrity hintegrity]
    exact built_of_replay hreplay
  · constructor
    · intro h
      obtain ⟨hverified, -, -, hresult⟩ := appendTransition_eq_ok_iff.mp h
      exact ⟨hverified, hresult.symm, appendTransition_verifies h⟩
    · rintro ⟨hverified, rfl, hextended⟩
      obtain ⟨hreplay, hmem⟩ := verify_extend_iff.mp hextended
      have hstate := hreplay.symm.trans (verifyTransitionReceipt_eq_ok_iff.mp hverified).2
      exact appendTransition_eq_ok_iff.mpr ⟨hverified, Except.ok.inj hstate, hmem, rfl⟩

/-- A receipt with another digest is refused, though what the transition would make of it verifies. -/
theorem altered_receipt_not_extended :
    let receipt : TransitionReceipt := ⟨lit "planned", [], []⟩
    let transition : RoleTransition := ⟨lit "planned", lit "routed", lit "supervisor", lit "workflow.route"⟩
    verifyTransitionReceipt (receipt.extend transition) = .ok () ∧
      appendTransition receipt transition = .error (lit "receipt integrity check failed") := by
  intro receipt transition
  refine ⟨verify_extend_iff.mpr ⟨rfl, by decide⟩, ?_⟩
  have hdigest : receipt.integrity ≠ integrity receipt.state receipt.transitions := fun h =>
    absurd (congrArg isDigest h) (by rw [integrity, isDigest_sha256]; decide)
  have hverify : verifyTransitionReceipt receipt = .error (lit "receipt integrity check failed") := if_pos hdigest
  rw [appendTransition, hverify]
  rfl

end NeuroLab.Agents
