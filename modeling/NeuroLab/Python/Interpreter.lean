import NeuroLab.Python.Uuid

/-!
# The running interpreter

What the program meets of the interpreter it runs in: how deep values may nest before
a `RecursionError`, how floats and strings are shown, and the exceptions it tells
apart in its `except` clauses.
-/

namespace NeuroLab.Python

/-- A sequence of statements returns if each of them does. -/
theorem bind_eq_ok_iff {ε : Type*} {α β : Type} {x : Except ε α} {f : α → Except ε β} {b : β} :
    x >>= f = .ok b ↔ ∃ a, x = .ok a ∧ f a = .ok b := by
  cases x with
  | error e => exact ⟨(nomatch ·), fun ⟨_, h, _⟩ => (nomatch h)⟩
  | ok a => exact ⟨fun h => ⟨a, rfl, h⟩, fun ⟨_, ha, h⟩ => Except.ok.inj ha ▸ h⟩

/-- What a statement returns whose exception was wrapped. -/
theorem mapError_eq_ok_iff {ε ε' α : Type} {f : ε → ε'} {x : Except ε α} {a : α} :
    x.mapError f = .ok a ↔ x = .ok a := by
  cases x <;> simp [Except.mapError]

/-- A traversal is a list of what its steps return. -/
theorem mapM_eq_ok_iff {ε α β : Type} {f : α → Except ε β} {xs : List α} {ys : List β} :
    xs.mapM f = .ok ys ↔ xs.map f = ys.map .ok := by
  induction xs generalizing ys with
  | nil =>
    cases ys with
    | nil => exact iff_of_true rfl rfl
    | cons y ys => exact iff_of_false nofun nofun
  | cons x xs ih =>
    rw [List.mapM_cons, List.map_cons]
    simp only [bind_eq_ok_iff, ih]
    constructor
    · rintro ⟨y, hy, ys', hys, heq⟩
      cases heq
      rw [hy, hys, List.map_cons]
    · intro h
      cases ys with
      | nil => cases h
      | cons y ys =>
        rw [List.map_cons, List.cons.injEq] at h
        exact ⟨y, h.1, ys, h.2, rfl⟩

/-- What a list of readers accepts was accepted one by one. -/
theorem exists_of_mapM_ok {ε α β : Type} {f : α → Except ε β} {xs : List α} {ys : List β} (h : xs.mapM f = .ok ys) :
    ∀ y ∈ ys, ∃ x ∈ xs, f x = .ok y := by
  intro y hy
  have hmem : .ok y ∈ xs.map f := mapM_eq_ok_iff.mp h ▸ List.mem_map_of_mem hy
  exact List.mem_map.mp hmem

/-- A traversal that returned, element by element. -/
theorem forall₂_of_mapM_ok {ε α β : Type} {f : α → Except ε β} {xs : List α} {ys : List β} (h : xs.mapM f = .ok ys) :
    List.Forall₂ (fun x y => f x = .ok y) xs ys := by
  rw [← List.forall₂_map_right_iff (R := fun x z => f x = z) (f := .ok), ← mapM_eq_ok_iff.mp h, List.forall₂_map_right_iff]
  exact List.forall₂_same.mpr fun _ _ => rfl

/-- A traversal whose steps return. -/
theorem mapM_eq_ok_of_forall {ε α β : Type} {f : α → Except ε β} {g : α → β} {xs : List α}
    (h : ∀ x ∈ xs, f x = .ok (g x)) : xs.mapM f = .ok (xs.map g) := by
  rw [mapM_eq_ok_iff, List.map_map]
  exact List.map_congr_left h

/-- A traversal returns exactly if each of its steps does. -/
theorem exists_mapM_ok_iff {ε α β : Type} {f : α → Except ε β} {xs : List α} :
    (∃ ys, xs.mapM f = .ok ys) ↔ ∀ x ∈ xs, ∃ y, f x = .ok y := by
  induction xs with
  | nil => exact ⟨fun _ _ hx => (nomatch hx), fun _ => ⟨[], rfl⟩⟩
  | cons x xs ih =>
    rw [List.forall_mem_cons, ← ih]
    simp only [List.mapM_cons, bind_eq_ok_iff]
    constructor
    · rintro ⟨_, y, hy, ys, hys, -⟩
      exact ⟨⟨y, hy⟩, ys, hys⟩
    · rintro ⟨⟨y, hy⟩, ys, hys⟩
      exact ⟨y :: ys, y, hy, ys, hys, rfl⟩

/-- A traversal of options whose steps return. -/
theorem isSome_mapM_iff {α β : Type} {f : α → Option β} {xs : List α} :
    (xs.mapM f).isSome ↔ ∀ x ∈ xs, (f x).isSome := by
  induction xs with
  | nil => simp
  | cons x xs ih =>
    rw [List.mapM_cons, List.forall_mem_cons, ← ih]
    cases f x with
    | none => simp
    | some y => cases xs.mapM f <;> simp

/-- A traversal of options is a list of what its steps return. -/
theorem mapM_eq_some_iff {α β : Type} {f : α → Option β} {xs : List α} {ys : List β} :
    xs.mapM f = some ys ↔ xs.map f = ys.map some := by
  induction xs generalizing ys with
  | nil => cases ys <;> simp
  | cons x xs ih =>
    rw [List.mapM_cons, List.map_cons]
    simp only [Option.bind_eq_bind, Option.bind_eq_some_iff, ih]
    constructor
    · rintro ⟨y, hy, ys', hys, heq⟩
      cases heq
      rw [hy, hys, List.map_cons]
    · intro h
      cases ys with
      | nil => cases h
      | cons y ys =>
        rw [List.map_cons, List.cons.injEq] at h
        exact ⟨y, h.1, ys, h.2, rfl⟩

/-- What a traversal of options returns was returned by its steps. -/
theorem exists_of_mapM_some {α β : Type} {f : α → Option β} {xs : List α} {ys : List β} (h : xs.mapM f = some ys) :
    ∀ y ∈ ys, ∃ x ∈ xs, f x = some y := by
  intro y hy
  have hmem : some y ∈ xs.map f := mapM_eq_some_iff.mp h ▸ List.mem_map_of_mem hy
  exact List.mem_map.mp hmem

/-- The nesting every interpreter admits, far below the default limits. -/
def leastNesting : ℕ := 16

/-- The parameters of an interpreter. The two texts are those of `float.__repr__` and
`str.__repr__`; the limits are those of the `json` scanner and encoder and of `repr`. -/
structure Interpreter where
  recursionLimit : ℕ
  reprLimit : ℕ
  floatRepr : PyFloat → Str
  strRepr : Str → Str
  leastNesting_le_recursionLimit : leastNesting ≤ recursionLimit
  leastNesting_le_reprLimit : leastNesting ≤ reprLimit

/-- The exceptions that cross the program's `except` clauses, by class. The `RuntimeError`
of a provider carries the one text that may be stored. -/
inductive PyExc
  | provider (message : Str)
  | psycopg (cls : Str)
  | redis (cls : Str)
  | value (cls : Str)
  | type
  | key
  | recursion
  | other (cls : Str)
deriving DecidableEq

namespace PyExc

/-- `type(exc).__name__`. -/
def className : PyExc → Str
  | provider _ => lit "ProviderError"
  | psycopg cls => cls
  | redis cls => cls
  | value cls => cls
  | type => lit "TypeError"
  | key => lit "KeyError"
  | recursion => lit "RecursionError"
  | other cls => cls

/-- `isinstance(exc, psycopg.Error)`. -/
def isPsycopg : PyExc → Bool
  | psycopg _ => true
  | _ => false

/-- `isinstance(exc, redis.RedisError)`. -/
def isRedis : PyExc → Bool
  | redis _ => true
  | _ => false

/-- `isinstance(exc, (TypeError, ValueError, json.JSONDecodeError))`. -/
def isTypeOrValue : PyExc → Bool
  | value _ => true
  | type => true
  | _ => false

/-- `isinstance(exc, KeyError)`. -/
def isKey : PyExc → Bool
  | key => true
  | _ => false

end PyExc

namespace Interpreter

variable (py : Interpreter)

mutual

/-- `repr` of a decoded value. -/
def repr : Json → Str
  | .null => lit "None"
  | .bool true => lit "True"
  | .bool false => lit "False"
  | .int n => decimalInt n
  | .float x => py.floatRepr x
  | .str s => py.strRepr s
  | .arr vs => 0x5B :: reprItems vs ++ [0x5D]
  | .obj fs => 0x7B :: reprFields fs ++ [0x7D]

/-- The items of a list, joined by a comma and a space. -/
def reprItems : List Json → Str
  | [] => []
  | [v] => repr v
  | v :: vs => repr v ++ lit ", " ++ reprItems vs

/-- The members of a `dict`, joined by a comma and a space. -/
def reprFields : List (Str × Json) → Str
  | [] => []
  | [(k, v)] => py.strRepr k ++ lit ": " ++ repr v
  | (k, v) :: fs => py.strRepr k ++ lit ": " ++ repr v ++ lit ", " ++ reprFields fs

end

/-- `str(value)`, or the `RecursionError` of a value nested too deeply. -/
def str (v : Json) : Except PyExc Str :=
  if py.reprLimit < v.depth then .error .recursion
  else match v with
    | .str s => .ok s
    | v => .ok (py.repr v)

/-- `json.loads(text)`. -/
def loads (text : Str) : Except PyExc Json :=
  match Python.loads py.recursionLimit text with
  | .ok v => .ok v
  | .error .valueError => .error (.value (lit "JSONDecodeError"))
  | .error .digitLimit => .error (.value (lit "ValueError"))
  | .error .recursionError => .error .recursion

/-- `json.dumps(value, ensure_ascii=False)`. -/
def dumps (v : Json) : Except PyExc Str :=
  if py.recursionLimit < v.depth then .error .recursion else .ok (Python.dumps py.floatRepr v)

variable {py}

@[simp] theorem str_str (s : Str) : py.str (.str s) = .ok s :=
  if_neg (Nat.not_lt.mpr (Nat.zero_le _))

end Interpreter

end NeuroLab.Python
