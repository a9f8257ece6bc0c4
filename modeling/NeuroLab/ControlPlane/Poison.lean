import NeuroLab.ControlPlane.Recovery
import NeuroLab.Postgres.Columns

/-!
# Payloads that the `tasks` table refuses

`validate_payload` checks the lane and that the task id is the text of a uuid. The insertions
of `claim_task` and of recovery also take the provider, the model and the request reference,
which nothing has checked, and the one of `claim_task` takes the task id as the payload
spells it. A delivery whose insertion is refused stays in processing at every pass.
-/

namespace NeuroLab.ControlPlane

open Python Common

/-! ## The columns -/

/-- What psycopg and PostgreSQL do with a parameter of a `TEXT` column. -/
structure TextLaws {py : Interpreter} (driver : Driver py) : Prop where
  null : driver.text .null = some none
  bool : ∀ b, (driver.text (.bool b)).isSome = true
  int : ∀ n, (driver.text (.int n)).isSome = true
  float : ∀ x, (driver.text (.float x)).isSome = true
  str : ∀ s, Postgres.storable s = true → driver.text (.str s) = some (some s)
  nul : ∀ s, 0 ∈ s → driver.text (.str s) = none
  obj : ∀ fields, driver.text (.obj fields) = none

/-- The values that a `TEXT` column takes. A text with a surrogate and an array are left to the driver. -/
def TextColumn {py : Interpreter} (driver : Driver py) : Json → Prop
  | .str s => 0 ∉ s ∧ (Postgres.storable s = false → (driver.text (.str s)).isSome = true)
  | .arr vs => (driver.text (.arr vs)).isSome = true
  | .obj _ => False
  | _ => True

/-- The members that the insertion takes unchecked. -/
def uncheckedNames : List Str := [lit "provider", lit "model", lit "request_ref"]

/-- The insertions take the unchecked members and the task id as the payload spells it. -/
structure FitsColumns {py : Interpreter} (driver : Driver py) (fields : Fields) : Prop where
  texts : ∀ name ∈ uncheckedNames, TextColumn driver (getD fields name .null)
  id : truthy (getD fields (lit "task_id") .null) = true → (driver.uuid (getD fields (lit "task_id") .null)).isSome = true

variable {env : Env} {fields : Fields} {id : Uuid} {payload : Json} {store : Store} {raw : Str} {now : ℕ}
  {taskId : Json}

theorem TextLaws.isSome_iff {py : Interpreter} {driver : Driver py} (hlaws : TextLaws driver) (v : Json) :
    (driver.text v).isSome = true ↔ TextColumn driver v := by
  cases v with
  | null => simp [TextColumn, hlaws.null]
  | bool b => simp [TextColumn, hlaws.bool]
  | int n => simp [TextColumn, hlaws.int]
  | float x => simp [TextColumn, hlaws.float]
  | arr vs => rfl
  | obj fields => simp [TextColumn, hlaws.obj]
  | str s =>
    rw [TextColumn]
    constructor
    · intro h
      refine ⟨fun hnul => ?_, fun _ => h⟩
      rw [hlaws.nul s hnul] at h
      cases h
    · rintro ⟨-, hdriver⟩
      by_cases hstorable : Postgres.storable s = true
      · rw [hlaws.str s hstorable]
        rfl
      · exact hdriver (Bool.not_eq_true _ ▸ hstorable)

/-! ## The insertion -/

/-- A lane that passes the check is stored as it is. -/
theorem TextLaws.lane {py : Interpreter} {driver : Driver py} (hlaws : TextLaws driver) {v : Json}
    (h : checkLane v = .ok ()) : ∃ lane, driver.text v = some lane ∧ ∀ l ∈ lane, l ∈ validCredentialLanes := by
  cases v with
  | null => exact ⟨none, hlaws.null, nofun⟩
  | str s =>
    rw [checkLane] at h
    split at h
    next hmem =>
      have hstorable : ∀ s ∈ validCredentialLanes, Postgres.storable s = true := by decide
      exact ⟨some s, hlaws.str s (hstorable s hmem), fun l hl => Option.some.inj hl ▸ hmem⟩
    next => cases h
  | bool b => cases h
  | int n => cases h
  | float x => cases h
  | arr vs => cases h
  | obj fields => cases h

/-- With a lane that passed the check, the insertion succeeds exactly when the columns take the other members. -/
theorem newTask_isSome_iff (hlaws : TextLaws env.driver)
    (hlane : checkLane (getD fields (lit "credential_lane") .null) = .ok ()) :
    (newTask env now taskId fields).isSome = true ↔
      (env.driver.uuid taskId).isSome = true ∧ ∀ name ∈ uncheckedNames, TextColumn env.driver (getD fields name .null) := by
  obtain ⟨lane, htext, hmem⟩ := hlaws.lane hlane
  simp only [uncheckedNames, List.forall_mem_cons, List.not_mem_nil, false_implies, implies_true, and_true,
    ← hlaws.isSome_iff]
  constructor
  · intro h
    obtain ⟨row, hrow⟩ := Option.isSome_iff_exists.mp h
    simp only [newTask, Option.bind_eq_bind, Option.bind_eq_some_iff] at hrow
    obtain ⟨id, hid, provider, hprovider, model, hmodel, -, -, ref, href, -⟩ := hrow
    simp [hid, hprovider, hmodel, href]
  · rintro ⟨hid, hprovider, hmodel, href⟩
    obtain ⟨id, hid⟩ := Option.isSome_iff_exists.mp hid
    obtain ⟨provider, hprovider⟩ := Option.isSome_iff_exists.mp hprovider
    obtain ⟨model, hmodel⟩ := Option.isSome_iff_exists.mp hmodel
    obtain ⟨ref, href⟩ := Option.isSome_iff_exists.mp href
    simp only [newTask, hid, hprovider, hmodel, href, htext, Option.bind_eq_bind, Option.bind_some, if_pos hmem,
      Option.isSome_some]

/-- The strict validator checks the lane. -/
theorem checkLane_of_valid (h : validatePayloadWithTaskId env.py payload = .ok (fields, id)) :
    checkLane (getD fields (lit "credential_lane") .null) = .ok () := by
  obtain ⟨fields', hfields, h⟩ := bind_eq_ok_iff.mp h
  obtain ⟨fields'', -, hlane⟩ := bind_eq_ok_iff.mp hfields
  obtain ⟨_, hlane, heq⟩ := bind_eq_ok_iff.mp hlane
  obtain ⟨_, -, hpair⟩ := bind_eq_ok_iff.mp h
  cases heq
  cases hpair
  exact hlane

/-- `claim_task` passes the task id as the payload spells it, unless that is falsy. -/
theorem claimedId_isSome_iff :
    (∀ fresh, (env.driver.uuid (claimedId fresh fields)).isSome = true) ↔
      (truthy (getD fields (lit "task_id") .null) = true →
        (env.driver.uuid (getD fields (lit "task_id") .null)).isSome = true) := by
  unfold claimedId
  constructor
  · intro h htruthy
    simpa only [htruthy, if_true] using h 0
  · intro h fresh
    simp only
    split
    next htruthy => exact h htruthy
    next => rw [env.driver.uuid_uuidText]; rfl

/-! ## The delivery -/

/-- A delivery whose insertion is refused is left where it is, however the steps of the pass end: an exception is
raised, which fails the delivery or ends the pass. -/
theorem recoverDelivery_of_refused (hnamed : identifyDelivery env.py raw = .ok (fields, id))
    (hrefused : ∀ now, newTask env now (.str (uuidText id)) fields = none) (ends : EntryEnds) :
    ∃ exc, ends.raised false = some exc ∧
      recoverDelivery env store raw ends = (store, if exc.isPsycopg then .ok .failed else .error exc) := by
  have htransaction : ∃ exc, ends.raised false = some exc ∧
      runTransaction env id fields store.db ends = (store.db, .error exc) := by
    unfold runTransaction recover EntryEnds.raised
    rw [hrefused]
    cases ends.transaction with
    | done => exact ⟨ends.rejection, rfl, rfl⟩
    | refused exc => exact ⟨exc, rfl, rfl⟩
    | lost exc => exact ⟨ends.rejection, rfl, rfl⟩
  obtain ⟨exc, hraised, hran⟩ := htransaction
  exact ⟨exc, hraised, by simp only [recoverDelivery, hnamed, hran]⟩

theorem fateWith_done_ne_failed (answers : Bool × Bool) : fateWith answers .done ≠ .failed := by
  obtain ⟨recovered, terminal⟩ := answers
  cases recovered <;> cases terminal <;> decide

/-- The database path of a payload: its claim and its recovery are not refused, and some pass takes its delivery on. -/
structure Persists (env : Env) (payload : Json) (fields : Fields) (id : Uuid) : Prop where
  claimed : ∀ now fresh executionId db, (claimTask env now (claimedId fresh fields) fields executionId db).isSome = true
  recovered : ∀ now db, (recover env now id fields db).isSome = true
  takenOn : ∀ raw store, env.py.loads raw = .ok payload → raw ∈ store.redis.processing →
    ∃ ends fate, (recoverDelivery env store raw ends).2 = .ok fate ∧ fate ≠ .failed

/-- A validated payload persists exactly when the columns take the members that nothing has checked. -/
theorem persists_iff (hlaws : TextLaws env.driver)
    (hvalid : validatePayloadWithTaskId env.py payload = .ok (fields, id)) :
    Persists env payload fields id ↔ FitsColumns env.driver fields := by
  have hrow : ∀ now taskId, (newTask env now taskId fields).isSome = true ↔ _ := fun now taskId =>
    newTask_isSome_iff hlaws (checkLane_of_valid hvalid)
  constructor
  · intro h
    have hclaimed : ∀ fresh, (newTask env 0 (claimedId fresh fields) fields).isSome = true := fun fresh => by
      simpa only [claimTask, Option.isSome_map] using h.claimed 0 fresh 0 .empty
    exact ⟨((hrow _ _).mp (hclaimed 0)).2, claimedId_isSome_iff.mp fun fresh => ((hrow _ _).mp (hclaimed fresh)).1⟩
  · intro h
    have hrecovered : ∀ now, (newTask env now (.str (uuidText id)) fields).isSome = true := fun now =>
      (hrow now _).mpr ⟨by rw [env.driver.uuid_uuidText]; rfl, h.texts⟩
    constructor
    · intro now fresh executionId db
      rw [claimTask, Option.isSome_map]
      exact (hrow now _).mpr ⟨claimedId_isSome_iff.mpr h.id fresh, h.texts⟩
    · intro now db
      rw [recover, Option.isSome_map]
      exact hrecovered now
    · intro raw store hloads hmem
      have hnamed : identifyDelivery env.py raw = .ok (fields, id) := by
        rw [identifyDelivery, hloads]
        exact hvalid
      refine ⟨⟨0, .done, .type, .done⟩, _, ?_, fateWith_done_ne_failed (answersOf env.config 0 (store.db.tasks.find? id))⟩
      rw [recoverDelivery_result hmem]
      simp only [resultOf, hnamed, EntryEnds.raised, accepts, hrecovered 0, if_true]

namespace Sample

/-- The driver of the sample environment, which also stores floats. -/
def floatDriver : Driver py :=
  { driver with
    text := fun
      | .float x => some (some (py.floatRepr x))
      | v => text v }

/-- The sample environment under that driver. -/
def floatEnv : Env := ⟨Sample.env.config, py, floatDriver⟩

theorem floatDriver_laws : TextLaws floatDriver where
  null := rfl
  bool := fun _ => rfl
  int := fun _ => rfl
  float := fun _ => rfl
  str := fun s hs => by
    have hstorable : storable s = true := by
      rw [Postgres.storable, List.all_eq_true] at hs
      refine List.all_eq_true.mpr fun c hc => ?_
      have hchar := hs c hc
      simp only [Bool.and_eq_true, bne_iff_ne, ne_eq, decide_eq_true_eq] at hchar ⊢
      exact hchar.1
    change (if storable s then some (some s) else none) = _
    rw [if_pos hstorable]
  nul := fun s hs => by
    have hstorable : storable s = false := List.all_eq_false.mpr ⟨0, hs, by decide⟩
    change (if storable s then some (some s) else none) = _
    rw [hstorable]
    rfl
  obj := fun _ => rfl

end Sample

theorem persists_sample :
    Persists Sample.floatEnv (.obj (Sample.payload Sample.task [])) (Sample.payload Sample.task []) Sample.task := by
  have htexts : ∀ name ∈ uncheckedNames,
      (Sample.floatDriver.text (getD (Sample.payload Sample.task []) name .null)).isSome = true := by
    decide +kernel
  exact (persists_iff Sample.floatDriver_laws (by decide +kernel)).mpr
    ⟨fun name hname => (Sample.floatDriver_laws.isSome_iff _).mp (htexts name hname), fun _ => by decide +kernel⟩

/-- A payload whose model is an object passes the strict validator; its task is never created, and its delivery is
never taken on: psycopg rejects it at every pass. -/
theorem object_model_poisons :
    let fields := Sample.payload Sample.task [(lit "model", .obj [])]
    validatePayloadWithTaskId Sample.floatEnv.py (.obj fields) = .ok (fields, Sample.task) ∧
      ¬Persists Sample.floatEnv (.obj fields) fields Sample.task ∧
      ∀ store ends, ∃ exc, ends.raised false = some exc ∧
        recoverDelivery Sample.floatEnv store (Sample.raw Sample.task [(lit "model", .obj [])]) ends =
          (store, if exc.isPsycopg then .ok .failed else .error exc) := by
  intro fields
  have hvalid : validatePayloadWithTaskId Sample.floatEnv.py (.obj fields) = .ok (fields, Sample.task) := by
    decide +kernel
  have hmodel : getD fields (lit "model") .null = .obj [] := by decide +kernel
  have hrefused (now : ℕ) : newTask Sample.floatEnv now (.str (uuidText Sample.task)) fields = none := by
    refine Option.not_isSome_iff_eq_none.mp fun hsome => ?_
    obtain ⟨-, htexts⟩ := (newTask_isSome_iff Sample.floatDriver_laws (checkLane_of_valid hvalid)).mp hsome
    have hcolumn := htexts (lit "model") (by decide)
    rw [hmodel] at hcolumn
    exact hcolumn
  refine ⟨hvalid, fun h => ?_, fun store ends => recoverDelivery_of_refused (by decide +kernel) hrefused ends⟩
  have hrecovered := h.recovered 0 .empty
  rw [recover, hrefused] at hrecovered
  cases hrecovered

end NeuroLab.ControlPlane
