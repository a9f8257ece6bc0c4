import Mathlib.Data.Nat.Notation

/-!
# Shell commands

Commands of a shell function on a state and the status of the last command, `$?`. A command goes
on, continues the loop it stands in or returns from its function. The status that a compound
leaves is that of the last command it ran: an `if` whose condition fails and that has no other
branch leaves zero.
-/

namespace NeuroLab.Common.Shell

/-- Where a command leads. -/
inductive Flow
  | next
  | continued
  | returned
deriving DecidableEq

/-- What a command leaves: where it leads, the state and `$?`. -/
structure Left (σ : Type) where
  flow : Flow
  state : σ
  status : ℕ

/-- A command, from a state and `$?`. -/
abbrev Command (σ : Type) := σ → ℕ → Left σ

variable {σ α : Type}

/-! ## Commands -/

/-- A program that may change the state and exits with a status. -/
def program (run : σ → σ × ℕ) : Command σ := fun s _ => ⟨.next, (run s).1, (run s).2⟩

/-- An assignment, or another command that does not fail. -/
def assign (set : σ → σ) : Command σ := fun s _ => ⟨.next, set s, 0⟩

/-- `[[ ... ]]`. -/
def test (holds : σ → Bool) : Command σ := fun s _ => ⟨.next, s, if holds s then 0 else 1⟩

/-- `name=$?`. -/
def saveStatus (set : ℕ → σ → σ) : Command σ := fun s status => ⟨.next, set status s, 0⟩

/-- `return ...`, of a status computed from the state and `$?`. -/
def leave (status : σ → ℕ → ℕ) : Command σ := fun s last => ⟨.returned, s, status s last⟩

/-- `continue`. -/
def proceed : Command σ := fun s _ => ⟨.continued, s, 0⟩

/-! ## Compounds -/

/-- Commands one after the other, as long as they go on. -/
def block : List (Command σ) → σ → ℕ → Left σ
  | [], s, status => ⟨.next, s, status⟩
  | c :: cs, s, status =>
    match c s status with
    | ⟨.next, s, status⟩ => block cs s status
    | left => left

/-- `! ...`. -/
def negated (c : Command σ) : Command σ := fun s status =>
  match c s status with
  | ⟨.next, s, status⟩ => ⟨.next, s, if status = 0 then 1 else 0⟩
  | left => left

/-- `if ...; then ...; fi`. -/
def ifThen (c d : Command σ) : Command σ := fun s status =>
  match c s status with
  | ⟨.next, s, 0⟩ => d s 0
  | ⟨.next, s, _ + 1⟩ => ⟨.next, s, 0⟩
  | left => left

/-- `... || ...`. -/
def orElse (c d : Command σ) : Command σ := fun s status =>
  match c s status with
  | ⟨.next, s, 0⟩ => ⟨.next, s, 0⟩
  | ⟨.next, s, status + 1⟩ => d s (status + 1)
  | left => left

/-- The rounds of `for ... in ...`. -/
def forEach : List α → (α → Command σ) → σ → ℕ → Left σ
  | [], _, s, status => ⟨.next, s, status⟩
  | word :: words, body, s, status =>
    match body word s status with
    | ⟨.returned, s, status⟩ => ⟨.returned, s, status⟩
    | ⟨_, s, status⟩ => forEach words body s status

/-- A call of a function. -/
def function (body : Command σ) : Command σ := fun s status => ⟨.next, (body s status).state, (body s status).status⟩

/-! ## Rules -/

variable {c d : Command σ} {cs : List (Command σ)} {s s' : σ} {status status' : ℕ} {flow : Flow}

theorem block_of_next (h : c s status = ⟨.next, s', status'⟩) : block (c :: cs) s status = block cs s' status' := by
  rw [block, h]

theorem block_of_left (h : c s status = ⟨flow, s', status'⟩) (hflow : flow ≠ .next) :
    block (c :: cs) s status = ⟨flow, s', status'⟩ := by
  rw [block, h]
  cases flow with
  | next => exact absurd rfl hflow
  | _ => rfl

theorem block_single : block [c] s status = c s status := by
  rw [block]
  rcases c s status with ⟨_ | _ | _, s', status'⟩
  · rfl
  · rfl
  · rfl

theorem ifThen_of_zero (h : c s status = ⟨.next, s', 0⟩) : ifThen c d s status = d s' 0 := by
  rw [ifThen, h]

/-- An `if` whose condition fails leaves the status zero, whatever the status of the condition. -/
theorem ifThen_of_ne_zero (h : c s status = ⟨.next, s', status'⟩) (hstatus : status' ≠ 0) :
    ifThen c d s status = ⟨.next, s', 0⟩ := by
  rw [ifThen, h]
  cases status' with
  | zero => exact absurd rfl hstatus
  | succ _ => rfl

theorem orElse_of_zero (h : c s status = ⟨.next, s', 0⟩) : orElse c d s status = ⟨.next, s', 0⟩ := by
  rw [orElse, h]

variable {word : α} {words : List α} {body : α → Command σ}

theorem forEach_of_returned (h : body word s status = ⟨.returned, s', status'⟩) :
    forEach (word :: words) body s status = ⟨.returned, s', status'⟩ := by
  rw [forEach, h]

theorem forEach_of_left (h : body word s status = ⟨flow, s', status'⟩) (hflow : flow ≠ .returned) :
    forEach (word :: words) body s status = forEach words body s' status' := by
  rw [forEach, h]
  cases flow with
  | returned => exact absurd rfl hflow
  | _ => rfl

end NeuroLab.Common.Shell
