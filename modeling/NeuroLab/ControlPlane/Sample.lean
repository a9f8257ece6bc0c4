import Mathlib.Data.List.Sort
import NeuroLab.ControlPlane.Steps

/-!
# A concrete environment

The default configuration, an interpreter with the default limits and a driver that
stores what psycopg and PostgreSQL store for strings, integers, `None` and canonical
ids, and gives objects back in `jsonb` order: shorter keys first, then by code point.
The laws of a driver hold of it, so the runs of the system are not empty of meaning.
-/

namespace NeuroLab.ControlPlane.Sample

open Python Common

/-- Text a column can hold: no NUL and no surrogate. -/
def storable (s : Str) : Bool := s.all fun c => c != 0 && !(0xD800 ≤ c && c ≤ 0xDFFF)

/-- Code point order. -/
def lexLe : Str → Str → Bool
  | [], _ => true
  | _ :: _, [] => false
  | c :: s, d :: t => decide (c < d) || (decide (c = d) && lexLe s t)

/-- The order of `jsonb` on members. -/
def memberLe (f g : Str × Json) : Bool :=
  decide (f.1.length < g.1.length) || (decide (f.1.length = g.1.length) && lexLe f.1 g.1)

mutual

/-- A value as `jsonb` gives it back. -/
def jsonbOrder : Json → Json
  | .arr vs => .arr (jsonbOrderItems vs)
  | .obj fs => .obj ((jsonbOrderFields fs).insertionSort fun f g => memberLe f g = true)
  | v => v

/-- Item by item. -/
def jsonbOrderItems : List Json → List Json
  | [] => []
  | v :: vs => jsonbOrder v :: jsonbOrderItems vs

/-- Member by member. -/
def jsonbOrderFields : List (Str × Json) → List (Str × Json)
  | [] => []
  | (k, v) :: fs => (k, jsonbOrder v) :: jsonbOrderFields fs

end

mutual

/-- Whether every text in a value is storable, and the numbers are those `jsonb` knows. -/
def jsonbAccepts : Json → Bool
  | .str s => storable s
  | .float (.finite ..) => true
  | .float _ => false
  | .arr vs => jsonbAcceptsItems vs
  | .obj fs => jsonbAcceptsFields fs
  | _ => true

/-- Item by item. -/
def jsonbAcceptsItems : List Json → Bool
  | [] => true
  | v :: vs => jsonbAccepts v && jsonbAcceptsItems vs

/-- Member by member. -/
def jsonbAcceptsFields : List (Str × Json) → Bool
  | [] => true
  | (k, v) :: fs => storable k && jsonbAccepts v && jsonbAcceptsFields fs

end

mutual

/-- Sorting members is a rearrangement. -/
theorem jsonbOrder_reordered : ∀ v : Json, v.Reordered (jsonbOrder v)
  | .null => by
    rw [jsonbOrder]
    · exact .same _
    all_goals exact fun _ => nofun
  | .bool b => by
    rw [jsonbOrder]
    · exact .same _
    all_goals exact fun _ => nofun
  | .int n => by
    rw [jsonbOrder]
    · exact .same _
    all_goals exact fun _ => nofun
  | .float x => by
    rw [jsonbOrder]
    · exact .same _
    all_goals exact fun _ => nofun
  | .str s => by
    rw [jsonbOrder]
    · exact .same _
    all_goals exact fun _ => nofun
  | .arr vs => by
    rw [jsonbOrder]
    exact .arr (jsonbOrderItems_reordered vs)
  | .obj fs => by
    rw [jsonbOrder]
    exact .obj (jsonbOrderFields_reordered fs) (List.perm_insertionSort _ _).symm

theorem jsonbOrderItems_reordered : ∀ vs : List Json, Json.ReorderedItems vs (jsonbOrderItems vs)
  | [] => .nil
  | v :: vs => .cons (jsonbOrder_reordered v) (jsonbOrderItems_reordered vs)

theorem jsonbOrderFields_reordered : ∀ fs : List (Str × Json),
    Json.ReorderedFields fs (jsonbOrderFields fs)
  | [] => .nil
  | (k, v) :: fs => .cons k (jsonbOrder_reordered v) (jsonbOrderFields_reordered fs)

end

/-- An interpreter with a recursion limit of a thousand; it shows strings in plain quotes. -/
def py : Interpreter where
  recursionLimit := 1000
  reprLimit := 1000
  floatRepr := fun
    | .finite negative m e => decimalInt (if negative then -(m : ℤ) else m) ++ lit "e" ++ decimalInt e
    | .infinite negative => if negative then lit "-inf" else lit "inf"
    | .nan => lit "nan"
  strRepr := fun s => 0x27 :: s ++ [0x27]
  leastNesting_le_recursionLimit := by decide
  leastNesting_le_reprLimit := by decide

/-- A text parameter. -/
def text : Json → Option (Option Str)
  | .null => some none
  | .str s => if storable s then some (some s) else none
  | .int n => some (some (decimalInt n))
  | .bool b => some (some (lit (if b then "true" else "false")))
  | _ => none

/-- An id parameter: its canonical text. -/
def uuid : Json → Option Uuid
  | .str s => (parseUuid s).filter fun u => uuidText u = s
  | _ => none

/-- An `INTEGER` parameter. -/
def integer : Json → Option (Option ℤ)
  | .null => some none
  | .int n => if -2147483648 ≤ n ∧ n ≤ 2147483647 then some (some n) else none
  | _ => none

/-- A `NUMERIC(12, 6)` parameter. -/
def numeric : Json → Option (Option ℤ)
  | .null => some none
  | .int n => if -1000000 < n ∧ n < 1000000 then some (some (n * 1000000)) else none
  | _ => none

/-- The driver. -/
def driver : Driver py where
  text := text
  uuid := uuid
  integer := integer
  numeric := numeric
  jsonb := fun v => if jsonbAccepts v then some (jsonbOrder v) else none
  uuid_agrees := by
    intro v t u u' hu ht hu'
    cases v with
    | str s =>
      obtain ⟨hparse, -⟩ := Option.filter_eq_some_iff.mp hu
      rw [Interpreter.str_str] at ht
      cases ht
      rw [hparse] at hu'
      exact Option.some.inj hu'
    | null => cases hu
    | bool b => cases hu
    | int n => cases hu
    | float x => cases hu
    | arr vs => cases hu
    | obj fs => cases hu
  uuid_uuidText := fun u => by
    rw [uuid, parseUuid_uuidText]
    simp
  jsonb_reordered := by
    intro v v' _ hv
    split at hv
    · cases hv
      exact jsonbOrder_reordered v
    · cases hv

/-- The environment of a default installation. -/
def env : Env where
  config := Config.ofEnv none none none none none none none none none
  py := py
  driver := driver

/-- A delivery as another producer may push it, without a task id. -/
def unnamed : Fields :=
  [(lit "provider", .str (lit "gigachat")), (lit "credential_lane", .str (lit "primary")),
    (lit "messages", .arr [.obj [(lit "role", .str (lit "user")), (lit "content", .str (lit "hi"))]])]

/-- A delivery for a task. -/
def payload (id : Uuid) (extra : Fields) : Fields :=
  (lit "task_id", .str (uuidText id)) :: unnamed ++ extra

/-- The text of that delivery. -/
def raw (id : Uuid) (extra : Fields) : Str := dumps py.floatRepr (.obj (payload id extra))

/-- A worker's step that takes effect and is answered; `fresh` is used where it draws an id. -/
def go (w : ℕ) (fresh : Uuid) : Action := .work w fresh .done

/-- The body of a response, with its usage object. -/
def body (usage : Json) : Option Str :=
  some (dumps py.floatRepr (.obj [(lit "choices", .arr [.obj [(lit "message",
    .obj [(lit "content", .str (lit "ok"))])]]), (lit "usage", usage)]))

/-- One turn of `run_worker` up to `BLMOVE`, in which no pass is due. -/
def turn (w : ℕ) : List Action :=
  [.work w 0 (.due false), .work w 0 (.due false), .work w 0 (.due false), go w 0]

/-- A task of the sample runs. -/
def task : Uuid := 0xA

/-- Worker 0 takes a delivery, claims it and enters the provider call. -/
def called : List Action :=
  [.enqueue (raw task []), .start 0] ++ turn 0 ++ [go 0 1, go 0 2, go 0 0, go 0 0]

/-- Worker 0 completes the call and acknowledges the delivery. -/
def completed : List Action :=
  called ++ [.work 0 0 (.responded (body (.obj []))), go 0 0, go 0 0]

/-- The delivery is pushed once more, and worker 1 takes it. -/
def duplicate : List Action := [.enqueue (raw task []), .start 1] ++ turn 1

/-- One turn of `run_worker` in which recovery requeues one delivery, up to `BLMOVE`. -/
def recoveringTurn (w : ℕ) : List Action :=
  [.work w 0 (.due false), .work w 0 (.due false), .work w 0 (.due true)] ++ List.replicate 9 (go w 0)

/-- Worker 0 claims a delivery and pauses; after the lease term worker 1 recovers and claims it. -/
def reclaimed : List Action :=
  [.enqueue (raw task []), .start 0] ++ turn 0 ++ [go 0 1, go 0 2, .tick (seconds 901), .start 1] ++
    recoveringTurn 1 ++ [go 1 3, go 1 4]

/-- A request to the dashboard. -/
def request : TaskRequest where
  prompt := lit "hi"
  model := lit "GigaChat-2"
  credentialLane := lit "primary"
  maxTokens := 16
  prompt_bounds := by decide
  credentialLane_mem := by decide
  maxTokens_bounds := by decide

/-- The request is accepted, and the task waits in the outbox. -/
def submitted : List Action :=
  [.submit 0 request task 0, .serve 0 .done, .serve 0 .done, .serve 0 .done]

/-- Worker 0 claims the outbox row and comes to its push. -/
def publishing : List Action := [.start 0, .work 0 0 (.due true), go 0 1, go 0 0]

/-- After the outbox pass, worker 0 comes to the transaction of the reaper. -/
def reaping : List Action :=
  [.work 0 0 (.due false), .work 0 0 (.due true), go 0 0, go 0 0, go 0 0, go 0 0]

/-- Whether the sample task is in a status. -/
def inStatus (status : TaskStatus) (_ : History State Action) (s : State) : Bool :=
  (s.task task).any fun r => decide (r.status = status)

theorem inStatus_iff {status : TaskStatus} {h : History State Action} {s : State}
    (hs : inStatus status h s = true) : ∃ r, s.task task = some r ∧ r.status = status := by
  obtain ⟨r, hr, hstatus⟩ := (Option.any_eq_true _ _).mp hs
  exact ⟨r, hr, of_decide_eq_true hstatus⟩

/-- Whether the step at a position of a history satisfies a test. -/
def stepAt (i : ℕ) (test : State → Action → Bool) (h : History State Action) : Bool :=
  h[i]?.any fun x => test x.1 x.2

/-- Whether the last two steps of a history are taken by worker 0 from two states of a kind. -/
def lastTwo (p : State → State → Bool) : History State Action → Bool
  | (s₂, .work 0 _ .done) :: (s₁, .work 0 _ .done) :: _ => p s₁ s₂
  | _ => false

theorem lastTwo_eq_true {p : State → State → Bool} {h : History State Action} (hlast : lastTwo p h = true) :
    ∃ s₂ f₂ s₁ f₁ earlier, h = (s₂, .work 0 f₂ .done) :: (s₁, .work 0 f₁ .done) :: earlier ∧ p s₁ s₂ = true := by
  unfold lastTwo at hlast
  split at hlast
  · exact ⟨_, _, _, _, _, rfl, hlast⟩
  · cases hlast

/-- Two positions of a history split it around their steps. -/
theorem split_of_stepAt {i j : ℕ} {p q : State → Action → Bool} {h : History State Action} (hij : i < j)
    (hp : stepAt i p h = true) (hq : stepAt j q h = true) :
    ∃ later s₂ a₂ mid s₁ a₁ earlier, h = later ++ (s₂, a₂) :: (mid ++ (s₁, a₁) :: earlier) ∧
      p s₂ a₂ = true ∧ q s₁ a₁ = true := by
  obtain ⟨x, hx, hpx⟩ := (Option.any_eq_true _ _).mp hp
  obtain ⟨y, hy, hqy⟩ := (Option.any_eq_true _ _).mp hq
  obtain ⟨hi, rfl⟩ := List.getElem?_eq_some_iff.mp hx
  obtain ⟨hj, rfl⟩ := List.getElem?_eq_some_iff.mp hy
  exact ⟨_, _, _, _, _, _, _, h.around hij hj, hpx, hqy⟩

end NeuroLab.ControlPlane.Sample
