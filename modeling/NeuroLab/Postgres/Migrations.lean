import Mathlib.Logic.Function.Basic
import NeuroLab.Common.Transition
import NeuroLab.Python.Text

/-!
# Migrations

`scripts/apply_migrations.sh` under any number of runs at once. A run is the shell, which goes
through the words of its loop, and the `psql` it waits for; the environment decides how a `psql`
ends. The shell may be killed at any time, which leaves its `psql` to commit or not on its own. The
schema is of any type, and a script either takes it to the next or fails.

A script is given the schema it found when its transaction began and its commit installs what it made
of that one, so that a commit between the two would be overwritten: that none is, is proved and not
built in. Files are deployed and never changed or removed.
-/

namespace NeuroLab.Postgres.Migrations

open Python Common

variable {σ : Type}

/-! ## The script -/

/-- An entry of `postgres/migrations` that `*.sql` matches. -/
structure Migration (σ : Type) where
  name : Str
  isFile : Bool
  script : σ → Option σ

/-- The regular files. -/
def files (entries : List (Migration σ)) : List (Migration σ) := entries.filter (·.isFile)

/-- `[A-Za-z0-9_.-]`. -/
def isNameCharacter (c : ℕ) : Bool :=
  isDigit c || (0x41 ≤ c && c ≤ 0x5A) || (0x61 ≤ c && c ≤ 0x7A) || decide (c ∈ lit "_.-")

/-- `^[0-9]{8}_[0-9]{2}_[A-Za-z0-9_.-]+\.sql$`. -/
def isMigrationName (name : Str) : Bool :=
  decide (17 ≤ name.length) && (name.take 8).all isDigit && decide ((name.drop 8).take 1 = lit "_") &&
    ((name.drop 9).take 2).all isDigit && decide ((name.drop 11).take 1 = lit "_") &&
    (name.drop 12).all isNameCharacter && (lit ".sql").isSuffixOf name

/-- The lines printed for a file. -/
inductive Line
  | applied (filename : Str)
  | pending (filename : Str)
deriving DecidableEq

/-- Where a run stands: before and behind its first `psql`, at the head of the loop with the words left, waiting for
the answer about a file, before and behind the `BEGIN` of a file, with the schema found there, or at its end. -/
inductive Stage (σ : Type)
  | starting
  | prepared
  | looping (rest : List (Migration σ))
  | asked (migration : Migration σ) (rest : List (Migration σ))
  | applying (migration : Migration σ) (rest : List (Migration σ))
  | opened (migration : Migration σ) (rest : List (Migration σ)) (base : σ)
  | exited (status : ℕ)

/-- A run: `$apply`, whether the shell lives, the words of its loop and the lines it printed, last first. -/
structure Run (σ : Type) where
  apply : Bool
  alive : Bool
  words : List (Migration σ)
  stage : Stage σ
  printed : List Line

/-- The directory in the order of its names, the schema, and the rows of `schema_migrations`, if it exists. -/
structure State (σ : Type) where
  directory : List (Migration σ)
  schema : σ
  ledger : Option (List Str)
  runs : ℕ → Option (Run σ)

/-- How a `psql` ends: it does what it was told; it does not, and exits with a status other than zero; it does, and
exits with one; or its statement fails and it exits with zero, as one without `ON_ERROR_STOP` does. -/
inductive Answer
  | done
  | refused (status : ℕ)
  | lost (status : ℕ)
  | blank
deriving DecidableEq

/-- The moves of the environment: a file is deployed, a run starts, its shell is killed or goes on, and the `psql` of
its first command, of its query, and at the two ends of the transaction of a file. -/
inductive Action (σ : Type)
  | deploy (migration : Migration σ)
  | start (r : ℕ) (apply : Bool)
  | kill (r : ℕ)
  | advance (r : ℕ)
  | prepare (r : ℕ) (answer : Answer)
  | query (r : ℕ) (answer : Answer)
  | begin (r : ℕ)
  | commit (r : ℕ) (answer : Answer)

namespace State

variable (s : State σ)

/-- The names that `schema_migrations` holds. -/
def recorded : List Str := s.ledger.getD []

def put (r : ℕ) (run : Run σ) : State σ := { s with runs := Function.update s.runs r (some run) }

/-- The run goes on in a stage, or its killed shell does not. -/
def goOn (r : ℕ) (run : Run σ) (stage : Stage σ) : State σ :=
  s.put r { run with stage := if run.alive then stage else .exited 137 }

end State

/-- A line is printed by a shell that lives. -/
def Run.print (run : Run σ) (line : Line) : Run σ :=
  { run with printed := if run.alive then line :: run.printed else run.printed }

/-- `CREATE TABLE IF NOT EXISTS schema_migrations`. -/
def prepare (s : State σ) (r : ℕ) (run : Run σ) : Answer → Option (State σ)
  | .done => some ({ s with ledger := some s.recorded }.goOn r run .prepared)
  | .refused n => some (s.goOn r run (.exited (n + 1)))
  | .lost n => some ({ s with ledger := some s.recorded }.goOn r run (.exited (n + 1)))
  | .blank => none

/-- The head of the loop. -/
def advance (s : State σ) (r : ℕ) (run : Run σ) : List (Migration σ) → State σ
  | [] => s.goOn r run (.exited 0)
  | migration :: rest =>
    if !migration.isFile then s.goOn r run (.looping rest)
    else if !isMigrationName migration.name then s.goOn r run (.exited 1)
    else s.goOn r run (.asked migration rest)

/-- The end of an iteration whose file is taken to be pending. -/
def pending (s : State σ) (r : ℕ) (run : Run σ) (migration : Migration σ) (rest : List (Migration σ)) : State σ :=
  s.goOn r (run.print (.pending migration.name)) (if run.apply then .applying migration rest else .looping rest)

/-- The answer of `SELECT 1 FROM schema_migrations WHERE filename = ...`. -/
def query (s : State σ) (r : ℕ) (run : Run σ) (migration : Migration σ) (rest : List (Migration σ)) :
    Answer → Option (State σ)
  | .done =>
    if migration.name ∈ s.recorded then some (s.goOn r (run.print (.applied migration.name)) (.looping rest))
    else some (pending s r run migration rest)
  | .blank => some (pending s r run migration rest)
  | .refused n => some (s.goOn r run (.exited (n + 1)))
  | .lost _ => none

/-- The statements of a file with its row, which the primary key refuses if the file has one already. -/
def record (s : State σ) (migration : Migration σ) (base : σ) : Option (State σ) :=
  if migration.name ∈ s.recorded then none
  else (migration.script base).map fun schema => { s with schema, ledger := some (s.recorded ++ [migration.name]) }

/-- `COMMIT` and what follows it. -/
def commit (s : State σ) (r : ℕ) (run : Run σ) (migration : Migration σ) (rest : List (Migration σ)) (base : σ) :
    Answer → Option (State σ)
  | .done => (record s migration base).map fun s => s.goOn r (run.print (.applied migration.name)) (.looping rest)
  | .lost n => (record s migration base).map fun s => s.goOn r run (.exited (n + 1))
  | .refused n => some (s.goOn r run (.exited (n + 1)))
  | .blank => none

/-- A new file takes its place in the order of the names. -/
def deploy (sortsBefore : Str → Str → Bool) (migration : Migration σ) : List (Migration σ) → List (Migration σ)
  | [] => [migration]
  | m :: rest =>
    if sortsBefore migration.name m.name then migration :: m :: rest else m :: deploy sortsBefore migration rest

/-- One move. -/
def step (sortsBefore : Str → Str → Bool) (s : State σ) : Action σ → Option (State σ)
  | .deploy migration =>
    if migration.name ∈ s.directory.map (·.name) then none
    else some { s with directory := deploy sortsBefore migration s.directory }
  | .start r apply =>
    match s.runs r with
    | some _ => none
    | none => some (s.put r ⟨apply, true, [], .starting, []⟩)
  | .kill r => (s.runs r).map fun run => s.put r { run with alive := false }
  | .advance r => (s.runs r).bind fun run =>
    match run.alive, run.stage with
    | true, .prepared => some (s.goOn r { run with words := s.directory } (.looping s.directory))
    | true, .looping rest => some (advance s r run rest)
    | _, _ => none
  | .prepare r answer => (s.runs r).bind fun run =>
    match run.stage with
    | .starting => prepare s r run answer
    | _ => none
  | .query r answer => (s.runs r).bind fun run =>
    match run.stage with
    | .asked m rest => query s r run m rest answer
    | _ => none
  | .begin r => (s.runs r).bind fun run =>
    match run.stage with
    | .applying m rest => some (s.put r { run with stage := .opened m rest s.schema })
    | _ => none
  | .commit r answer => (s.runs r).bind fun run =>
    match run.stage with
    | .opened m rest base => commit s r run m rest base answer
    | _ => none

/-- No table, no run, and the files deployed so far. -/
def State.initial (directory : List (Migration σ)) (schema : σ) : State σ := ⟨directory, schema, none, fun _ => none⟩

/-- All runs of the script on one database. -/
def system (sortsBefore : Str → Str → Bool) (directory : List (Migration σ)) (schema : σ) :
    System (State σ) (Action σ) :=
  ⟨.initial directory schema, step sortsBefore⟩

namespace Sample

/-- A file whose script adds a number to the schema. -/
def migration (filename : String) (n : ℕ) : Migration (List ℕ) := ⟨lit filename, true, fun schema => some (schema ++ [n])⟩

def corpus : Migration (List ℕ) := migration "20260915_01_it_research_corpus.sql" 1

def claims : Migration (List ℕ) := migration "20260915_02_fulltext_claims.sql" 2

def sortsBefore (a b : Str) : Bool := decide (a < b)

/-- Two runs apply the first file at once. The shell of one is killed, its `psql` commits nevertheless, the other one
is refused, and a second file is deployed. -/
def contended : List (Action (List ℕ)) :=
  [.start 0 true, .start 1 true, .prepare 0 .done, .prepare 1 .done, .advance 0, .advance 1, .advance 0, .advance 1,
    .query 0 .done, .query 1 .done, .begin 0, .begin 1, .kill 0, .commit 0 .done, .commit 1 (.refused 2), .deploy claims]

theorem nodup_names : ([corpus].map (·.name)).Nodup := List.nodup_singleton _

end Sample

/-! ## What a move does -/

/-- What a run that moves makes of the state, which it is then put back into, and of itself. -/
inductive Move (s : State σ) (run : Run σ) : State σ → Run σ → Prop
  | kill : Move s run s { run with alive := false }
  | gaveUp (n : ℕ) : Move s run s { run with stage := .exited (n + 1) }
  | created (stage : Stage σ) : run.stage = .starting → (stage = .prepared ∨ ∃ n, stage = .exited (n + 1)) →
      Move s run { s with ledger := some s.recorded } { run with stage }
  | expanded : run.stage = .prepared →
      Move s run s { run with words := s.directory, stage := .looping s.directory }
  | finished : run.stage = .looping [] → Move s run s { run with stage := .exited 0 }
  | skipped (m : Migration σ) (rest : List (Migration σ)) : run.stage = .looping (m :: rest) → m.isFile = false →
      Move s run s { run with stage := .looping rest }
  | asked (m : Migration σ) (rest : List (Migration σ)) : run.stage = .looping (m :: rest) → m.isFile = true →
      isMigrationName m.name = true → Move s run s { run with stage := .asked m rest }
  | found (m : Migration σ) (rest : List (Migration σ)) : run.stage = .asked m rest → m.name ∈ s.recorded →
      Move s run s { run with stage := .looping rest, printed := .applied m.name :: run.printed }
  | pending (m : Migration σ) (rest : List (Migration σ)) : run.stage = .asked m rest →
      Move s run s { run with
        stage := if run.apply then .applying m rest else .looping rest
        printed := .pending m.name :: run.printed }
  | began (m : Migration σ) (rest : List (Migration σ)) : run.stage = .applying m rest →
      Move s run s { run with stage := .opened m rest s.schema }
  | committed (m : Migration σ) (rest : List (Migration σ)) (base schema : σ) (run' : Run σ) :
      run.stage = .opened m rest base → m.name ∉ s.recorded → m.script base = some schema →
      (run' = { run with stage := .looping rest, printed := .applied m.name :: run.printed } ∨
        ∃ n, run' = { run with stage := .exited (n + 1) }) →
      Move s run { s with schema, ledger := some (s.recorded ++ [m.name]) } run'

section Moves

variable {sortsBefore : Str → Str → Bool} {s s' t : State σ} {run run' : Run σ} {stage : Stage σ} {r n : ℕ}
  {answer : Answer} {m : Migration σ} {rest : List (Migration σ)} {base : σ}

theorem goOn_of_alive (h : run.alive = true) : s.goOn r run stage = s.put r { run with stage } := by
  rw [State.goOn, h, if_pos rfl]

theorem goOn_of_killed (h : run.alive = false) : s.goOn r run stage = s.put r { run with stage := .exited 137 } := by
  rw [State.goOn, h, if_neg Bool.false_ne_true]

theorem goOn_print_of_alive {line : Line} (h : run.alive = true) :
    s.goOn r (run.print line) stage = s.put r { run with stage, printed := line :: run.printed } := by
  rw [goOn_of_alive (show (run.print line).alive = true from h), Run.print, if_pos h]

theorem goOn_print_of_killed {line : Line} (h : run.alive = false) :
    s.goOn r (run.print line) stage = s.put r { run with stage := .exited 137 } := by
  rw [goOn_of_killed (show (run.print line).alive = false from h), Run.print, h, if_neg Bool.false_ne_true]

/-- A run that gives up exits with a status other than zero, killed or not. -/
theorem goOn_exited (s : State σ) (r : ℕ) (run : Run σ) (n : ℕ) : ∃ k, s.goOn r run (.exited (n + 1)) = s.put r { run with stage := .exited (k + 1) } := by
  by_cases halive : run.alive = true
  · exact ⟨n, goOn_of_alive halive⟩
  · exact ⟨136, goOn_of_killed (Bool.eq_false_of_not_eq_true halive)⟩

theorem move_of_prepare (hstage : run.stage = .starting) (h : prepare s r run answer = some s') :
    ∃ t run', Move s run t run' ∧ s' = t.put r run' := by
  cases answer with
  | done =>
    cases h
    by_cases halive : run.alive = true
    · exact ⟨_, _, .created _ hstage (.inl rfl), goOn_of_alive halive⟩
    · exact ⟨_, _, .created _ hstage (.inr ⟨136, rfl⟩), goOn_of_killed (Bool.eq_false_of_not_eq_true halive)⟩
  | refused n =>
    cases h
    obtain ⟨k, hk⟩ := goOn_exited s r run n
    exact ⟨_, _, .gaveUp k, hk⟩
  | lost n =>
    cases h
    obtain ⟨k, hk⟩ := goOn_exited { s with ledger := some s.recorded } r run n
    exact ⟨_, _, .created _ hstage (.inr ⟨k, rfl⟩), hk⟩
  | blank => cases h

theorem move_of_advance (halive : run.alive = true) {left : List (Migration σ)} (hstage : run.stage = .looping left) :
    ∃ t run', Move s run t run' ∧ advance s r run left = t.put r run' := by
  cases left with
  | nil => exact ⟨_, _, .finished hstage, goOn_of_alive halive⟩
  | cons m rest =>
    rw [advance]
    split
    · next hfile => exact ⟨_, _, .skipped m rest hstage (Bool.not_eq_true' _ |>.mp hfile), goOn_of_alive halive⟩
    · next hfile =>
      rw [Bool.not_eq_true, Bool.not_eq_false'] at hfile
      split
      · exact ⟨_, _, .gaveUp 0, goOn_of_alive halive⟩
      · next hname =>
        rw [Bool.not_eq_true, Bool.not_eq_false'] at hname
        exact ⟨_, _, .asked m rest hstage hfile hname, goOn_of_alive halive⟩

theorem move_of_pending (hstage : run.stage = .asked m rest) :
    ∃ t run', Move s run t run' ∧ pending s r run m rest = t.put r run' := by
  by_cases halive : run.alive = true
  · exact ⟨_, _, .pending m rest hstage, goOn_print_of_alive halive⟩
  · exact ⟨_, _, .gaveUp 136, goOn_print_of_killed (Bool.eq_false_of_not_eq_true halive)⟩

theorem move_of_query (hstage : run.stage = .asked m rest) (h : query s r run m rest answer = some s') :
    ∃ t run', Move s run t run' ∧ s' = t.put r run' := by
  cases answer with
  | done =>
    rw [query] at h
    split at h
    · next hrecorded =>
      cases h
      by_cases halive : run.alive = true
      · exact ⟨_, _, .found m rest hstage hrecorded, goOn_print_of_alive halive⟩
      · exact ⟨_, _, .gaveUp 136, goOn_print_of_killed (Bool.eq_false_of_not_eq_true halive)⟩
    · cases h
      exact move_of_pending hstage
  | refused n =>
    cases h
    obtain ⟨k, hk⟩ := goOn_exited s r run n
    exact ⟨_, _, .gaveUp k, hk⟩
  | lost n => cases h
  | blank =>
    cases h
    exact move_of_pending hstage

theorem record_eq_some (h : record s m base = some t) :
    m.name ∉ s.recorded ∧ ∃ schema, m.script base = some schema ∧
      t = { s with schema, ledger := some (s.recorded ++ [m.name]) } := by
  unfold record at h
  split at h
  · cases h
  · next hfresh =>
    obtain ⟨schema, hschema, rfl⟩ := Option.map_eq_some_iff.mp h
    exact ⟨hfresh, schema, hschema, rfl⟩

theorem move_of_commit (hstage : run.stage = .opened m rest base) (h : commit s r run m rest base answer = some s') :
    ∃ t run', Move s run t run' ∧ s' = t.put r run' := by
  cases answer with
  | done =>
    obtain ⟨t, hrecord, rfl⟩ := Option.map_eq_some_iff.mp h
    obtain ⟨hfresh, schema, hschema, rfl⟩ := record_eq_some hrecord
    by_cases halive : run.alive = true
    · exact ⟨_, _, .committed m rest base schema _ hstage hfresh hschema (.inl rfl), goOn_print_of_alive halive⟩
    · exact ⟨_, _, .committed m rest base schema _ hstage hfresh hschema (.inr ⟨136, rfl⟩),
        goOn_print_of_killed (Bool.eq_false_of_not_eq_true halive)⟩
  | refused n =>
    cases h
    obtain ⟨k, hk⟩ := goOn_exited s r run n
    exact ⟨_, _, .gaveUp k, hk⟩
  | lost n =>
    obtain ⟨t, hrecord, rfl⟩ := Option.map_eq_some_iff.mp h
    obtain ⟨hfresh, schema, hschema, rfl⟩ := record_eq_some hrecord
    obtain ⟨k, hk⟩ := goOn_exited { s with schema, ledger := some (s.recorded ++ [m.name]) } r run n
    exact ⟨_, _, .committed m rest base schema _ hstage hfresh hschema (.inr ⟨k, rfl⟩), hk⟩
  | blank => cases h

/-- A step deploys a file, starts a run, or is the move of one run. -/
theorem step_cases {a : Action σ} (h : step sortsBefore s a = some s') :
    (∃ m, a = .deploy m ∧ m.name ∉ s.directory.map (·.name) ∧
      s' = { s with directory := deploy sortsBefore m s.directory }) ∨
    (∃ r apply, s.runs r = none ∧ s' = s.put r ⟨apply, true, [], .starting, []⟩) ∨
    ∃ r run t run', s.runs r = some run ∧ Move s run t run' ∧ s' = t.put r run' := by
  cases a with
  | deploy m =>
    rw [step] at h
    split at h
    · cases h
    · next hfresh => exact .inl ⟨m, rfl, hfresh, (Option.some.inj h).symm⟩
  | start r apply =>
    rw [step] at h
    split at h
    · cases h
    · next hnone => exact .inr (.inl ⟨r, apply, hnone, (Option.some.inj h).symm⟩)
  | kill r =>
    obtain ⟨run, hrun, rfl⟩ := Option.map_eq_some_iff.mp h
    exact .inr (.inr ⟨r, run, s, _, hrun, .kill, rfl⟩)
  | advance r =>
    obtain ⟨run, hrun, h⟩ := Option.bind_eq_some_iff.mp h
    split at h
    · next halive hstage =>
      cases h
      exact .inr (.inr ⟨r, run, s, _, hrun, .expanded hstage, goOn_of_alive halive⟩)
    · next halive hstage =>
      obtain ⟨t, run', hmove, hput⟩ := move_of_advance (s := s) (r := r) halive hstage
      exact .inr (.inr ⟨r, run, t, run', hrun, hmove, (Option.some.inj h).symm.trans hput⟩)
    · cases h
  | prepare r answer =>
    obtain ⟨run, hrun, h⟩ := Option.bind_eq_some_iff.mp h
    split at h
    · next hstage =>
      obtain ⟨t, run', hmove, hput⟩ := move_of_prepare hstage h
      exact .inr (.inr ⟨r, run, t, run', hrun, hmove, hput⟩)
    · cases h
  | query r answer =>
    obtain ⟨run, hrun, h⟩ := Option.bind_eq_some_iff.mp h
    split at h
    · next hstage =>
      obtain ⟨t, run', hmove, hput⟩ := move_of_query hstage h
      exact .inr (.inr ⟨r, run, t, run', hrun, hmove, hput⟩)
    · cases h
  | begin r =>
    obtain ⟨run, hrun, h⟩ := Option.bind_eq_some_iff.mp h
    split at h
    · next hstage =>
      cases h
      exact .inr (.inr ⟨r, run, s, _, hrun, .began _ _ hstage, rfl⟩)
    · cases h
  | commit r answer =>
    obtain ⟨run, hrun, h⟩ := Option.bind_eq_some_iff.mp h
    split at h
    · next hstage =>
      obtain ⟨t, run', hmove, hput⟩ := move_of_commit hstage h
      exact .inr (.inr ⟨r, run, t, run', hrun, hmove, hput⟩)
    · cases h

end Moves

/-! ## What a run knows -/

/-- The words of its loop that a run has not passed; one that gave up keeps none. -/
def Stage.left : Stage σ → Option (List (Migration σ))
  | .looping rest => some rest
  | .asked m rest => some (m :: rest)
  | .applying m rest => some (m :: rest)
  | .opened m rest _ => some (m :: rest)
  | .exited 0 => some []
  | _ => none

/-- The file of an iteration. -/
def Stage.file? : Stage σ → Option (Migration σ)
  | .asked m _ => some m
  | .applying m _ => some m
  | .opened m _ _ => some m
  | _ => none

/-- Whether a file is being applied. -/
def Stage.writes : Stage σ → Bool
  | .applying _ _ => true
  | .opened _ _ _ => true
  | _ => false

/-- A run that applies has passed recorded files only, and no run prints that a file is applied unless it is. -/
structure Run.Sound (s : State σ) (run : Run σ) : Prop where
  passed : ∀ rest, run.stage.left = some rest →
    ∃ passed, run.words = passed ++ rest ∧ (run.apply = true → ∀ m ∈ files passed, m.name ∈ s.recorded)
  file : ∀ m, run.stage.file? = some m → m.isFile = true
  applies : run.stage.writes = true → run.apply = true
  printed : ∀ filename, Line.applied filename ∈ run.printed → filename ∈ s.recorded

section Sound

variable {sortsBefore : Str → Str → Bool} {s s' t : State σ} {run run' : Run σ} {r : ℕ}

theorem files_append (entries entries' : List (Migration σ)) :
    files (entries ++ entries') = files entries ++ files entries' :=
  List.filter_append entries entries'

theorem files_cons_of_file {m : Migration σ} (h : m.isFile = true) (rest : List (Migration σ)) :
    files (m :: rest) = m :: files rest :=
  List.filter_cons_of_pos h

/-- A move leaves the directory and all runs to the step it is part of. -/
theorem Move.frame (h : Move s run t run') : t.runs = s.runs ∧ t.directory = s.directory := by
  cases h <;> exact ⟨rfl, rfl⟩

theorem Move.recorded_subset (h : Move s run t run') : s.recorded ⊆ t.recorded := by
  cases h with
  | committed m => exact List.subset_append_left s.recorded [m.name]
  | _ => exact fun _ hname => hname

theorem Run.Sound.mono (h : run.Sound s) (hsubset : s.recorded ⊆ t.recorded) : run.Sound t where
  passed rest hrest := by
    obtain ⟨passed, hwords, hpassed⟩ := h.passed rest hrest
    exact ⟨passed, hwords, fun happly m hm => hsubset (hpassed happly m hm)⟩
  file := h.file
  applies := h.applies
  printed filename hfilename := hsubset (h.printed filename hfilename)

/-- A run that is not at a file. -/
theorem Run.Sound.between
    (hpassed : ∀ rest, run.stage.left = some rest →
      ∃ passed, run.words = passed ++ rest ∧ (run.apply = true → ∀ m ∈ files passed, m.name ∈ s.recorded))
    (hprinted : ∀ filename, Line.applied filename ∈ run.printed → filename ∈ s.recorded)
    (hfile : run.stage.file? = none) (hwrites : run.stage.writes = false) : run.Sound s where
  passed := hpassed
  file m hm := absurd (hfile.symm.trans hm) (Option.some_ne_none m).symm
  applies h := absurd (hwrites.symm.trans h) Bool.false_ne_true
  printed := hprinted

/-- A run that gave up knows nothing of its words. -/
theorem Run.Sound.gaveUp (h : run.Sound s) (n : ℕ) : ({ run with stage := .exited (n + 1) } : Run σ).Sound s :=
  .between (fun rest hrest => by cases hrest) h.printed rfl rfl

/-- A word is passed where it is no file, or where it is recorded if the run applies. -/
theorem Run.Sound.pass {m : Migration σ} {rest : List (Migration σ)} (h : run.Sound s)
    (hleft : run.stage.left = some (m :: rest)) (hm : run.apply = true → m.isFile = true → m.name ∈ s.recorded) :
    ∃ passed, run.words = passed ++ rest ∧ (run.apply = true → ∀ m' ∈ files passed, m'.name ∈ s.recorded) := by
  obtain ⟨passed, hwords, hpassed⟩ := h.passed _ hleft
  refine ⟨passed ++ [m], by rw [hwords, List.append_assoc, List.singleton_append], fun happly m' hm' => ?_⟩
  rw [files_append, List.mem_append] at hm'
  rcases hm' with hm' | hm'
  · exact hpassed happly m' hm'
  · obtain ⟨hmem, hfile⟩ := List.mem_filter.mp hm'
    rw [List.mem_singleton.mp hmem] at hfile ⊢
    exact hm happly hfile

/-- A further line that is true, if it says that a file is applied. -/
theorem Run.Sound.print (h : run.Sound s) {line : Line}
    (hline : ∀ filename, line = .applied filename → filename ∈ s.recorded) :
    ∀ filename, Line.applied filename ∈ line :: run.printed → filename ∈ s.recorded := by
  intro filename hfilename
  rcases List.mem_cons.mp hfilename with heq | hmem
  · exact hline filename heq.symm
  · exact h.printed filename hmem

/-- What a run knows, it knows behind its next move. -/
theorem Run.Sound.move (h : run.Sound s) (hmove : Move s run t run') : run'.Sound t := by
  cases hmove with
  | kill => exact ⟨h.passed, h.file, h.applies, h.printed⟩
  | gaveUp n => exact h.gaveUp n
  | created stage _ hstage =>
    rcases hstage with rfl | ⟨n, rfl⟩
    · exact .between (fun rest hrest => by cases hrest) h.printed rfl rfl
    · exact (h.gaveUp n).mono fun _ hname => hname
  | expanded =>
    refine .between (fun rest hrest => ⟨[], Option.some.inj hrest, fun _ m hm => ?_⟩) h.printed rfl rfl
    exact absurd hm List.not_mem_nil
  | finished hstage => exact .between (fun rest hrest => h.passed rest (by rw [hstage]; exact hrest)) h.printed rfl rfl
  | skipped m rest hstage hfile =>
    refine .between (fun left hleft => ?_) h.printed rfl rfl
    cases hleft
    exact h.pass (m := m) (by rw [hstage]; rfl) fun _ hfile' => absurd (hfile.symm.trans hfile') Bool.false_ne_true
  | asked m rest hstage hfile hname =>
    refine ⟨fun left hleft => ?_, fun m' hm' => ?_, fun hwrites => absurd hwrites Bool.false_ne_true, h.printed⟩
    · exact h.passed left (by rw [hstage]; exact hleft)
    · exact Option.some.inj hm' ▸ hfile
  | found m rest hstage hrecorded =>
    refine .between (fun left hleft => ?_) (h.print fun filename hline => ?_) rfl rfl
    · cases hleft
      exact h.pass (m := m) (by rw [hstage]; rfl) fun _ _ => hrecorded
    · exact Line.applied.inj hline ▸ hrecorded
  | pending m rest hstage =>
    have hprinted := h.print (fun filename (hline : Line.pending m.name = _) => by cases hline)
    have hleft : run.stage.left = some (m :: rest) := by rw [hstage]; rfl
    split
    · next happly =>
      refine ⟨fun left heq => h.passed left (hleft.trans heq), fun m' hm' => ?_, fun _ => happly, hprinted⟩
      exact Option.some.inj hm' ▸ h.file m (by rw [hstage]; rfl)
    · next happly =>
      refine .between (fun left heq => ?_) hprinted rfl rfl
      cases heq
      exact h.pass hleft fun hyes => absurd hyes happly
  | began m rest hstage =>
    refine ⟨fun left hleft => h.passed left (by rw [hstage]; exact hleft), fun m' hm' => ?_,
      fun _ => h.applies (by rw [hstage]; rfl), h.printed⟩
    exact h.file m' (by rw [hstage]; exact hm')
  | committed m rest base schema run' hstage hfresh hscript hrun' =>
    have hmono := h.mono (t := { s with schema, ledger := some (s.recorded ++ [m.name]) })
      (List.subset_append_left s.recorded [m.name])
    have hrecorded : m.name ∈ s.recorded ++ [m.name] := List.mem_append_right _ List.mem_cons_self
    rcases hrun' with rfl | ⟨n, rfl⟩
    · refine .between (fun left hleft => ?_) (hmono.print fun filename hline => ?_) rfl rfl
      · cases hleft
        exact hmono.pass (m := m) (by rw [hstage]; rfl) fun _ _ => hrecorded
      · exact Line.applied.inj hline ▸ hrecorded
    · exact hmono.gaveUp n

/-- Every run knows what it should. -/
def Informed (s : State σ) : Prop := ∀ r run, s.runs r = some run → run.Sound s

theorem runs_put (s : State σ) (r : ℕ) (run : Run σ) (q : ℕ) :
    (s.put r run).runs q = if q = r then some run else s.runs q :=
  Function.update_apply s.runs r (some run) q

/-- A step keeps what it does not record anew, and what all runs know. -/
theorem Informed.step {a : Action σ} (h : Informed s) (hstep : step sortsBefore s a = some s') : Informed s' := by
  rcases step_cases hstep with ⟨m, rfl, -, rfl⟩ | ⟨r, apply, hnone, rfl⟩ | ⟨r, run, t, run', hrun, hmove, rfl⟩
  · exact fun q runq hrunq => (h q runq hrunq).mono fun _ hname => hname
  · intro q runq hrunq
    rw [runs_put] at hrunq
    split at hrunq
    · cases hrunq
      exact .between (fun rest hrest => by cases hrest) (fun filename hfilename => absurd hfilename List.not_mem_nil) rfl rfl
    · exact (h q runq hrunq).mono fun _ hname => hname
  · intro q runq hrunq
    rw [runs_put] at hrunq
    split at hrunq
    · cases hrunq
      exact ((h r run hrun).move hmove).mono fun _ hname => hname
    · rw [hmove.frame.1] at hrunq
      exact (h q runq hrunq).mono hmove.recorded_subset

/-- However runs start, are killed and wait for one another's transactions, no line says that a file is applied
before it is, a run that exits with zero leaves none of the files it set out to apply, and one that was not told
to apply never opens a transaction. -/
theorem exit_status_truthful {directory : List (Migration σ)} {schema : σ} {h : History (State σ) (Action σ)}
    (hrun : (system sortsBefore directory schema).Run h s) (hr : s.runs r = some run) :
    (∀ filename, Line.applied filename ∈ run.printed → filename ∈ s.recorded) ∧
      (run.apply = true → run.stage = .exited 0 → ∀ m ∈ files run.words, m.name ∈ s.recorded) ∧
      (run.apply = false → run.stage.writes = false) := by
  have hinformed : Informed s := hrun.invariant (P := Informed) (fun _ _ hnone => by cases hnone) fun _ _ _ hs =>
    Informed.step hs
  have hsound := hinformed r run hr
  refine ⟨hsound.printed, fun happly hstage => ?_, fun happly => ?_⟩
  · obtain ⟨passed, hwords, hpassed⟩ := hsound.passed [] (by rw [hstage]; rfl)
    rw [hwords, List.append_nil]
    exact hpassed happly
  · exact Bool.eq_false_iff.mpr fun hwrites => absurd (happly.symm.trans (hsound.applies hwrites)) Bool.false_ne_true

/-- The run that was refused. -/
theorem exit_status_truthful_contended :
    ∃ (h : History (State (List ℕ)) (Action (List ℕ))) (s : State (List ℕ)) (run : Run (List ℕ)),
      (system Sample.sortsBefore [Sample.corpus] []).Run h s ∧ s.runs 1 = some run ∧
      ((∀ filename, Line.applied filename ∈ run.printed → filename ∈ s.recorded) ∧
        (run.apply = true → run.stage = .exited 0 → ∀ m ∈ files run.words, m.name ∈ s.recorded) ∧
        (run.apply = false → run.stage.writes = false)) := by
  obtain ⟨h, s, hrun, htest⟩ := System.exists_run (system Sample.sortsBefore [Sample.corpus] []) Sample.contended
    (fun _ s => (s.runs 1).isSome) (by decide +kernel)
  obtain ⟨run, hr⟩ := Option.isSome_iff_exists.mp htest
  exact ⟨h, s, run, hrun, hr, exit_status_truthful hrun hr⟩

end Sound

end NeuroLab.Postgres.Migrations
