import NeuroLab.Python.Interpreter

/-!
# Transactions of the storage modules

A storage operation opens one connection: its `with` block commits at the end, or rolls
back when something is raised inside, and an exception that is not the module's own is
raised again under the module's text. What a statement returned may be checked after the
commit.
-/

namespace NeuroLab.Postgres

open Python

/-- What a call raises: the error of its storage module, or an exception outside its `try`. -/
inductive Raised
  | storage (message : Str)
  | uncaught (exc : PyExc)
deriving DecidableEq

/-- The tables a call leaves behind, and what it returns or raises. -/
abbrev Outcome (σ α : Type) := σ × Except Raised α

/-- A block of statements: a refusal of the program carries its text, a failed statement none. -/
abbrev Block := Except (Option Str)

/-- A statement that may fail. -/
def statement {α : Type} (o : Option α) : Block α :=
  match o with
  | some a => .ok a
  | none => .error none

/-- Commit, or roll back and raise the refusal or the text of a failed statement. -/
def transaction {σ α : Type} (db : σ) (failed : String) (block : Block (σ × α)) : Outcome σ α :=
  match block with
  | .ok (db', a) => (db', .ok a)
  | .error refusal => (db, .error (.storage (refusal.getD (lit failed))))

/-- A check made after the commit. -/
def afterwards {σ α β : Type} (outcome : Outcome σ α) (check : α → Except Raised β) : Outcome σ β :=
  match outcome with
  | (db, .ok a) => (db, check a)
  | (db, .error raised) => (db, .error raised)

variable {σ α : Type} {db db' : σ}

@[simp] theorem statement_eq_ok_iff {o : Option α} {a : α} : statement o = .ok a ↔ o = some a := by
  cases o <;> simp [statement]

/-- A block without a refusal is committed. -/
theorem transaction_of_ok {failed : String} {block : Block (σ × α)} {a : α} (h : block = .ok (db', a)) :
    transaction db failed block = (db', .ok a) := by
  rw [h]
  rfl

/-- A transaction raises and rolls back, or commits what its block computed. -/
theorem transaction_cases {failed : String} {block : Block (σ × α)} {Q : Outcome σ α → Prop}
    (raised : ∀ e, Q (db, .error e)) (committed : ∀ db' a, block = .ok (db', a) → Q (db', .ok a)) :
    Q (transaction db failed block) := by
  unfold transaction
  split
  · next db' a => exact committed db' a rfl
  · exact raised _

/-- A check after the commit leaves the tables alone. -/
@[simp] theorem afterwards_fst {β : Type} (outcome : Outcome σ α) (check : α → Except Raised β) :
    (afterwards outcome check).1 = outcome.1 := by
  obtain ⟨db, _ | a⟩ := outcome <;> rfl

/-- A call that returned passed its check after the commit. -/
theorem afterwards_eq_ok_iff {β : Type} {outcome : Outcome σ α} {check : α → Except Raised β} {b : β} :
    afterwards outcome check = (db', .ok b) ↔ ∃ a, outcome = (db', .ok a) ∧ check a = .ok b := by
  obtain ⟨db, _ | a⟩ := outcome <;> simp [afterwards]

/-- A transaction that returned committed what its block computed. -/
theorem transaction_eq_ok_iff {failed : String} {block : Block (σ × α)} {a : α} :
    transaction db failed block = (db', .ok a) ↔ block = .ok (db', a) := by
  obtain _ | ⟨db₁, a₁⟩ := block <;> simp [transaction]

/-- A transaction returns exactly what its block computes. -/
theorem transaction_returns_iff {failed : String} {block : Block (σ × α)} {a : α} :
    (transaction db failed block).2 = .ok a ↔ ∃ db', block = .ok (db', a) := by
  obtain _ | ⟨db₁, a₁⟩ := block <;> simp [transaction]

/-- What every statement of a loop preserves, the whole loop preserves. -/
theorem foldlM_invariant {β : Type} {f : β → α → Option β} {P : β → Prop} {xs : List α} {b b' : β}
    (h : xs.foldlM f b = some b') (init : P b) (next : ∀ b a b', a ∈ xs → P b → f b a = some b' → P b') : P b' := by
  induction xs generalizing b with
  | nil =>
    cases h
    exact init
  | cons a xs ih =>
    rw [List.foldlM_cons, Option.bind_eq_bind, Option.bind_eq_some_iff] at h
    obtain ⟨b₁, ha, hrest⟩ := h
    exact ih hrest (next b a b₁ List.mem_cons_self init ha) fun b a b' hmem =>
      next b a b' (List.mem_cons_of_mem _ hmem)

/-- A loop whose statements pass exactly on good rows, under what they preserve, passes exactly on good rows. -/
theorem isSome_foldlM_iff {β : Type} {f : β → α → Option β} {P : β → Prop} {good : α → Prop} {xs : List α} {b : β}
    (init : P b) (next : ∀ b a b', a ∈ xs → P b → f b a = some b' → P b')
    (passes : ∀ b a, a ∈ xs → P b → ((f b a).isSome ↔ good a)) : (xs.foldlM f b).isSome ↔ ∀ a ∈ xs, good a := by
  induction xs generalizing b with
  | nil => simp
  | cons a xs ih =>
    have hpasses := passes b a List.mem_cons_self init
    rw [List.foldlM_cons, List.forall_mem_cons]
    cases ha : f b a with
    | none =>
      rw [ha] at hpasses
      exact ⟨nofun, fun h => nomatch hpasses.mpr h.1⟩
    | some b₁ =>
      rw [ha] at hpasses
      have hrest := ih (next b a b₁ List.mem_cons_self init ha) (fun b a b' hmem => next b a b' (List.mem_cons_of_mem _ hmem))
        fun b a hmem => passes b a (List.mem_cons_of_mem _ hmem)
      exact hrest.trans ⟨fun h => ⟨hpasses.mp rfl, h⟩, fun h => h.2⟩

end NeuroLab.Postgres
