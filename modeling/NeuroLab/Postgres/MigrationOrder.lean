import NeuroLab.Common.Journal
import NeuroLab.Common.Schedule
import NeuroLab.Postgres.Migrations

/-!
# Migrations in order

Where files are deployed in the order of their names, what the runs of `scripts/apply_migrations.sh`
leave behind is always the replay of the first files of the directory. A script that may still be
recorded is the next one of the directory, so that no two of them can differ, and none is given a
schema that another one has changed since. What interrupted runs leave undone, one further run does.
-/

namespace NeuroLab.Postgres.Migrations

open Python Common

variable {σ : Type}

/-! ## The order of the files -/

/-- A deployed file sorts behind all files that are there. -/
def Appended (sortsBefore : Str → Str → Bool) (s : State σ) : Action σ → Prop
  | .deploy m => ∀ m' ∈ s.directory, sortsBefore m.name m'.name = false
  | _ => True

instance (sortsBefore : Str → Str → Bool) (s : State σ) : ∀ a, Decidable (Appended sortsBefore s a)
  | .deploy m => inferInstanceAs (Decidable (∀ m' ∈ s.directory, sortsBefore m.name m'.name = false))
  | .start _ _ => isTrue trivial
  | .kill _ => isTrue trivial
  | .advance _ => isTrue trivial
  | .prepare _ _ => isTrue trivial
  | .query _ _ => isTrue trivial
  | .begin _ => isTrue trivial
  | .commit _ _ => isTrue trivial

/-- The recorded files are the first ones of the directory, the schema is their replay on the first one, and a script
that may still be recorded was given the schema there is. -/
structure Ordered (schema : σ) (s : State σ) : Prop where
  names : (s.directory.map (·.name)).Nodup
  informed : Informed s
  done : ∃ done, s.recorded = done.map (·.name) ∧ Progress Migration.script (files s.directory) schema done s.schema
  words : ∀ r run, s.runs r = some run → run.words <+: s.directory
  base : ∀ r run m rest base, s.runs r = some run → run.stage = .opened m rest base → m.name ∉ s.recorded →
    base = s.schema

section Order

variable {sortsBefore : Str → Str → Bool} {s s' t : State σ} {run run' : Run σ} {r : ℕ} {m : Migration σ}
  {rest : List (Migration σ)} {schema : σ}

/-- The names of the files are among those of the entries. -/
theorem nodup_files {entries : List (Migration σ)} (h : (entries.map (·.name)).Nodup) :
    ((files entries).map (·.name)).Nodup :=
  h.sublist (List.filter_sublist.map _)

theorem deploy_eq_append {entries : List (Migration σ)} (h : ∀ m' ∈ entries, sortsBefore m.name m'.name = false) :
    deploy sortsBefore m entries = entries ++ [m] := by
  induction entries with
  | nil => rfl
  | cons m' entries ih =>
    rw [List.forall_mem_cons] at h
    rw [deploy, h.1, if_neg Bool.false_ne_true, ih h.2, List.cons_append]

/-- The file that a run applies and that is not recorded is the next one of the directory. -/
theorem Ordered.next (h : Ordered schema s) (hr : s.runs r = some run) (hwrites : run.stage.writes = true)
    (hleft : run.stage.left = some (m :: rest)) (hfile : run.stage.file? = some m) (hfresh : m.name ∉ s.recorded) :
    ∃ done later, s.recorded = done.map (·.name) ∧ files s.directory = done ++ m :: later ∧
      Progress Migration.script (files s.directory) schema done s.schema := by
  have hsound := h.informed r run hr
  obtain ⟨done, hdone, hprogress⟩ := h.done
  obtain ⟨passed, hwords, hpassed⟩ := hsound.passed _ hleft
  obtain ⟨more, hmore⟩ := h.words r run hr
  have hfiles : files s.directory = files passed ++ m :: (files rest ++ files more) := by
    rw [← hmore, hwords, files_append, files_append, files_cons_of_file (hsound.file m hfile), List.append_assoc,
      List.cons_append]
  have hbefore : done = files passed :=
    hprogress.eq_of_next (·.name) (nodup_files h.names) hfiles
      (fun m' hm' => hdone ▸ hpassed (hsound.applies hwrites) m' hm') (hdone ▸ hfresh)
  exact ⟨done, files rest ++ files more, hdone, hbefore ▸ hfiles, hprogress⟩

/-- Two files that are being applied and not recorded are the same one. -/
theorem Ordered.next_unique (h : Ordered schema s) {q : ℕ} {runq : Run σ} {m' : Migration σ} {rest' : List (Migration σ)}
    {base base' : σ} (hr : s.runs r = some run) (hstage : run.stage = .opened m rest base) (hfresh : m.name ∉ s.recorded)
    (hq : s.runs q = some runq) (hstage' : runq.stage = .opened m' rest' base') (hfresh' : m'.name ∉ s.recorded) :
    m = m' := by
  obtain ⟨done, later, hdone, hfiles, -⟩ :=
    h.next hr (m := m) (by rw [hstage]; rfl) (by rw [hstage]; rfl) (by rw [hstage]; rfl) hfresh
  obtain ⟨done', later', hdone', hfiles', -⟩ :=
    h.next hq (m := m') (by rw [hstage']; rfl) (by rw [hstage']; rfl) (by rw [hstage']; rfl) hfresh'
  have hlength : done.length = done'.length := by
    rw [← List.length_map (f := fun m : Migration σ => m.name), ← hdone, hdone', List.length_map]
  obtain ⟨-, htail⟩ := List.append_inj (hfiles.symm.trans hfiles') hlength
  exact (List.cons.inj htail).1

/-- A file goes to the end of the directory. -/
theorem Ordered.deploy (h : Ordered schema s) (hfresh : m.name ∉ s.directory.map (·.name))
    (happended : ∀ m' ∈ s.directory, sortsBefore m.name m'.name = false) :
    Ordered schema { s with directory := deploy sortsBefore m s.directory } := by
  rw [deploy_eq_append happended]
  obtain ⟨done, hdone, hprogress⟩ := h.done
  refine ⟨?_, fun q runq hq => (h.informed q runq hq).mono fun _ hname => hname, ⟨done, hdone, ?_⟩,
    fun q runq hq => (h.words q runq hq).trans (List.prefix_append _ _), h.base⟩
  · rw [List.map_append, List.map_singleton, ← List.concat_eq_append]
    exact List.nodup_concat _ _ |>.mpr ⟨hfresh, h.names⟩
  · rw [files_append]
    exact hprogress.grow _

theorem Move.words (h : Move s run t run') : run'.words = run.words ∨ run'.words = s.directory := by
  cases h with
  | expanded => exact .inr rfl
  | committed m rest base schema run' _ _ _ hrun' => rcases hrun' with rfl | ⟨n, rfl⟩ <;> exact .inl rfl
  | _ => exact .inl rfl

/-- An opened transaction was open before, or was opened on the schema there is. -/
theorem Move.base {base : σ} (h : Move s run t run') (hstage : run'.stage = .opened m rest base) :
    run.stage = .opened m rest base ∨ base = s.schema := by
  cases h with
  | kill => exact .inl hstage
  | began => cases hstage; exact .inr rfl
  | created stage _ hprepared =>
    rcases hprepared with rfl | ⟨n, rfl⟩ <;> cases hstage
  | pending m' rest' _ =>
    dsimp only at hstage
    split at hstage <;> cases hstage
  | committed m' rest' base' schema run' _ _ _ hrun' => rcases hrun' with rfl | ⟨n, rfl⟩ <;> cases hstage
  | _ => cases hstage

/-- A move records nothing, or the file whose transaction the run had open. -/
theorem Move.records (h : Move s run t run') :
    (t.recorded = s.recorded ∧ t.schema = s.schema) ∨
      ∃ m rest base, run.stage = .opened m rest base ∧ m.name ∉ s.recorded ∧ m.script base = some t.schema ∧
        t.recorded = s.recorded ++ [m.name] ∧ run'.stage.writes = false := by
  cases h with
  | committed m rest base schema run' hstage hfresh hscript hrun' =>
    refine .inr ⟨m, rest, base, hstage, hfresh, hscript, rfl, ?_⟩
    rcases hrun' with rfl | ⟨n, rfl⟩ <;> rfl
  | _ => exact .inl ⟨rfl, rfl⟩

/-- A move of a run keeps the order: where it records a file, all others that may be recorded are the same one. -/
theorem Ordered.move (h : Ordered schema s) (hr : s.runs r = some run) (hmove : Move s run t run') :
    Ordered schema (t.put r run') := by
  obtain ⟨hruns, hdirectory⟩ := hmove.frame
  have hothers : ∀ q runq, q ≠ r → (t.put r run').runs q = some runq → s.runs q = some runq := by
    intro q runq hne hq
    rw [runs_put, if_neg hne, hruns] at hq
    exact hq
  have hself : ∀ runq, (t.put r run').runs r = some runq → runq = run' := by
    intro runq hq
    rw [runs_put, if_pos rfl] at hq
    exact (Option.some.inj hq).symm
  have hdone : ∃ done, t.recorded = done.map (·.name) ∧
      Progress Migration.script (files s.directory) schema done t.schema := by
    rcases hmove.records with ⟨hrecorded, hschema⟩ | ⟨m, rest, base, hstage, hfresh, hscript, hrecorded, -⟩
    · rw [hrecorded, hschema]
      exact h.done
    · obtain ⟨done, later, hdone, hfiles, hprogress⟩ :=
        h.next hr (m := m) (by rw [hstage]; rfl) (by rw [hstage]; rfl) (by rw [hstage]; rfl) hfresh
      rw [h.base r run m rest base hr hstage hfresh] at hscript
      refine ⟨done ++ [m], ?_, hprogress.advance hfiles hscript⟩
      rw [hrecorded, hdone, List.map_append, List.map_singleton]
  refine ⟨hdirectory.symm ▸ h.names, fun q runq hq => ?_, hdirectory.symm ▸ hdone, fun q runq hq => ?_,
    fun q runq m rest base hq hstage hfresh => ?_⟩
  · by_cases hqr : q = r
    · subst hqr
      rw [hself runq hq]
      exact ((h.informed q run hr).move hmove).mono fun _ hname => hname
    · exact (h.informed q runq (hothers q runq hqr hq)).mono hmove.recorded_subset
  · show runq.words <+: t.directory
    rw [hdirectory]
    by_cases hqr : q = r
    · subst hqr
      rw [hself runq hq]
      rcases hmove.words with hwords | hwords
      · exact hwords ▸ h.words q run hr
      · exact hwords ▸ List.prefix_rfl
    · exact h.words q runq (hothers q runq hqr hq)
  · show base = t.schema
    replace hfresh : m.name ∉ t.recorded := hfresh
    rcases hmove.records with ⟨hrecorded, hschema⟩ | ⟨m', rest', base', hstage', hfresh', -, hrecorded, hwrites⟩
    · rw [hrecorded] at hfresh
      rw [hschema]
      by_cases hqr : q = r
      · subst hqr
        rw [hself runq hq] at hstage
        rcases hmove.base hstage with hbefore | hbase
        · exact h.base q run m rest base hr hbefore hfresh
        · exact hbase
      · exact h.base q runq m rest base (hothers q runq hqr hq) hstage hfresh
    · -- Another transaction that is not recorded would be one of the file recorded here.
      rw [hrecorded, List.mem_append, not_or, List.mem_singleton] at hfresh
      by_cases hqr : q = r
      · subst hqr
        rw [hself runq hq] at hstage
        rw [hstage] at hwrites
        cases hwrites
      · have hsame := h.next_unique hr hstage' hfresh' (hothers q runq hqr hq) hstage hfresh.1
        exact absurd (congrArg Migration.name hsame.symm) hfresh.2

theorem Ordered.step {a : Action σ} (h : Ordered schema s) (happended : Appended sortsBefore s a)
    (hstep : step sortsBefore s a = some s') : Ordered schema s' := by
  rcases step_cases hstep with ⟨m, rfl, hfresh, rfl⟩ | ⟨r, apply, hnone, rfl⟩ | ⟨r, run, t, run', hrun, hmove, rfl⟩
  · exact h.deploy hfresh happended
  · have hruns : ∀ q runq, (s.put r ⟨apply, true, [], .starting, []⟩).runs q = some runq →
        runq = ⟨apply, true, [], .starting, []⟩ ∨ s.runs q = some runq := by
      intro q runq hq
      rw [runs_put] at hq
      split at hq
      · exact .inl (Option.some.inj hq).symm
      · exact .inr hq
    refine ⟨h.names, h.informed.step hstep, h.done, fun q runq hq => ?_, fun q runq m rest base hq hstage hfresh => ?_⟩
    · rcases hruns q runq hq with rfl | hq
      · exact List.nil_prefix
      · exact h.words q runq hq
    · rcases hruns q runq hq with rfl | hq
      · cases hstage
      · exact h.base q runq m rest base hq hstage hfresh
  · exact h.move hrun hmove

variable {directory : List (Migration σ)} {h : History (State σ) (Action σ)}

theorem ordered_of_run (hnames : (directory.map (·.name)).Nodup) (hrun : (system sortsBefore directory schema).Run h s)
    (happended : System.AllSteps (Appended sortsBefore) h) : Ordered schema s := by
  refine hrun.guarded_invariant (G := Appended sortsBefore) ?_ (fun s a s' hs hG => Ordered.step hs hG) happended
  have hnone : ∀ r run, (State.initial directory schema).runs r ≠ some run := fun r run => (Option.some_ne_none run).symm
  exact ⟨hnames, fun r run hr => absurd hr (hnone r run), ⟨[], rfl, .start _ _⟩, fun r run hr => absurd hr (hnone r run),
    fun r run _ _ _ hr => absurd hr (hnone r run)⟩

/-- Where files are deployed in the order of their names, the files recorded in the end are the first ones of the
directory, each recorded once and in order, and the schema is what exactly these scripts make of the first one, run
one after the other: no run, killed or not, applies one twice, skips one or overwrites what another one did. -/
theorem migrated_in_order (hnames : (directory.map (·.name)).Nodup)
    (hrun : (system sortsBefore directory schema).Run h s) (happended : System.AllSteps (Appended sortsBefore) h) :
    ∃ done, done <+: files s.directory ∧ s.recorded = done.map (·.name) ∧ s.recorded.Nodup ∧
      replay Migration.script done schema = some s.schema := by
  have hordered := ordered_of_run hnames hrun happended
  obtain ⟨done, hdone, hprogress⟩ := hordered.done
  refine ⟨done, hprogress.head, hdone, ?_, hprogress.replayed⟩
  rw [hdone]
  exact (nodup_files hordered.names).sublist (hprogress.head.sublist.map _)

/-- What the two runs at once leave behind. -/
theorem migrated_in_order_contended :
    ∃ (h : History (State (List ℕ)) (Action (List ℕ))) (s : State (List ℕ)),
      (system Sample.sortsBefore [Sample.corpus] []).Run h s ∧ System.AllSteps (Appended Sample.sortsBefore) h ∧
      s.recorded = [Sample.corpus.name] ∧
      ∃ done, done <+: files s.directory ∧ s.recorded = done.map (·.name) ∧ s.recorded.Nodup ∧
        replay Migration.script done [] = some s.schema := by
  obtain ⟨h, s, hrun, htest⟩ := System.exists_run (system Sample.sortsBefore [Sample.corpus] []) Sample.contended
    (fun h s => decide (System.AllSteps (Appended Sample.sortsBefore) h ∧ s.recorded = [Sample.corpus.name]))
    (by decide +kernel)
  obtain ⟨happended, hrecorded⟩ := of_decide_eq_true htest
  exact ⟨h, s, hrun, happended, hrecorded, migrated_in_order Sample.nodup_names hrun happended⟩

end Order

/-! ## A run that nothing disturbs -/

/-- The actions of an iteration in which nothing fails, given the files recorded before the run. -/
def iteration (r : ℕ) (recorded : List Str) (m : Migration σ) : List (Action σ) :=
  if !m.isFile then [.advance r]
  else if m.name ∈ recorded then [.advance r, .query r .done]
  else [.advance r, .query r .done, .begin r, .commit r .done]

/-- The loop and what follows it. -/
def iterations (r : ℕ) (recorded : List Str) (words : List (Migration σ)) : List (Action σ) :=
  words.flatMap (iteration r recorded) ++ [.advance r]

/-- A run that applies, from its start to its end. -/
def undisturbed (r : ℕ) (recorded : List Str) (words : List (Migration σ)) : List (Action σ) :=
  [.start r true, .prepare r .done, .advance r] ++ iterations r recorded words

/-- The files without a row. -/
def unrecorded (recorded : List Str) (words : List (Migration σ)) : List (Migration σ) :=
  (files words).filter fun m => decide (m.name ∉ recorded)

section Undisturbed

variable {sortsBefore : Str → Str → Bool} {directory : List (Migration σ)} {schema final : σ} {s s' : State σ}
  {run : Run σ} {r : ℕ} {m : Migration σ} {rest words : List (Migration σ)} {recorded : List Str}

theorem system_step (s : State σ) (a : Action σ) :
    (system sortsBefore directory schema).step s a = step sortsBefore s a := rfl

theorem runs_put_self (s : State σ) (r : ℕ) (run : Run σ) : (s.put r run).runs r = some run := by
  rw [runs_put, if_pos rfl]

theorem step_advance (hr : s.runs r = some run) (halive : run.alive = true) (hstage : run.stage = .looping words) :
    (system sortsBefore directory schema).step s (.advance r) = some (advance s r run words) := by
  rw [system_step, step, hr, Option.bind_some, halive, hstage]

theorem step_query (hr : s.runs r = some run) (hstage : run.stage = .asked m rest) (answer : Answer) :
    (system sortsBefore directory schema).step s (.query r answer) = query s r run m rest answer := by
  rw [system_step, step, hr, Option.bind_some, hstage]

theorem step_begin (hr : s.runs r = some run) (hstage : run.stage = .applying m rest) :
    (system sortsBefore directory schema).step s (.begin r) = some (s.put r { run with stage := .opened m rest s.schema }) := by
  rw [system_step, step, hr, Option.bind_some, hstage]

theorem step_commit {base : σ} (hr : s.runs r = some run) (hstage : run.stage = .opened m rest base) (answer : Answer) :
    (system sortsBefore directory schema).step s (.commit r answer) = commit s r run m rest base answer := by
  rw [system_step, step, hr, Option.bind_some, hstage]

/-- A state in which a living run that applies is at the head of its loop. -/
def AtHead (s : State σ) (r : ℕ) (words : List (Migration σ)) : Prop :=
  ∃ run, s.runs r = some run ∧ run.alive = true ∧ run.apply = true ∧ run.stage = .looping words

theorem atHead_put (halive : run.alive = true) (happly : run.apply = true) (hstage : run.stage = .looping words) :
    AtHead (s.put r run) r words :=
  ⟨run, runs_put_self s r run, halive, happly, hstage⟩

theorem leads_other (h : AtHead s r (m :: rest)) (hfile : m.isFile = false) :
    ∃ t, (system sortsBefore directory schema).Leads s (iteration r recorded m) t ∧ AtHead t r rest ∧
      t.schema = s.schema ∧ t.recorded = s.recorded ∧ t.directory = s.directory := by
  obtain ⟨run, hr, halive, happly, hstage⟩ := h
  have hadvance : advance s r run (m :: rest) = s.put r { run with stage := .looping rest } := by
    rw [advance, hfile, Bool.not_false, if_pos rfl, goOn_of_alive halive]
  refine ⟨s.put r { run with stage := .looping rest }, ?_, atHead_put halive happly rfl, rfl, rfl, rfl⟩
  rw [iteration, hfile, Bool.not_false, if_pos rfl, ← hadvance]
  exact .single (step_advance hr halive hstage)

/-- A valid file is asked for. -/
theorem leads_asked (h : AtHead s r (m :: rest)) (hfile : m.isFile = true) (hname : isMigrationName m.name = true) :
    ∃ run, run.alive = true ∧ run.apply = true ∧ run.stage = .asked m rest ∧
      (system sortsBefore directory schema).step s (.advance r) = some (s.put r run) := by
  obtain ⟨run, hr, halive, happly, hstage⟩ := h
  refine ⟨{ run with stage := .asked m rest }, halive, happly, rfl, ?_⟩
  rw [step_advance hr halive hstage, advance, hfile, if_neg (by decide), hname, if_neg (by decide), goOn_of_alive halive]

theorem leads_recorded (h : AtHead s r (m :: rest)) (hfile : m.isFile = true) (hname : isMigrationName m.name = true)
    (hrecorded : m.name ∈ s.recorded) (hbefore : m.name ∈ recorded) :
    ∃ t, (system sortsBefore directory schema).Leads s (iteration r recorded m) t ∧ AtHead t r rest ∧
      t.schema = s.schema ∧ t.recorded = s.recorded ∧ t.directory = s.directory := by
  obtain ⟨run, halive, happly, hstage, hasked⟩ := leads_asked h hfile hname
  let found : Run σ := { run with stage := .looping rest, printed := .applied m.name :: run.printed }
  have hquery : query (s.put r run) r run m rest .done = some ((s.put r run).put r found) := by
    rw [query, if_pos (show m.name ∈ (s.put r run).recorded from hrecorded), goOn_print_of_alive halive]
  refine ⟨(s.put r run).put r found, ?_, atHead_put halive happly rfl, rfl, rfl, rfl⟩
  rw [iteration, hfile, if_neg (by decide), if_pos hbefore]
  exact .next hasked (.single ((step_query (runs_put_self s r run) hstage .done).trans hquery))

theorem leads_unrecorded {schema' : σ} (h : AtHead s r (m :: rest)) (hfile : m.isFile = true)
    (hname : isMigrationName m.name = true) (hfresh : m.name ∉ s.recorded) (hbefore : m.name ∉ recorded)
    (hscript : m.script s.schema = some schema') :
    ∃ t, (system sortsBefore directory schema).Leads s (iteration r recorded m) t ∧ AtHead t r rest ∧
      t.schema = schema' ∧ t.recorded = s.recorded ++ [m.name] ∧ t.directory = s.directory := by
  obtain ⟨run, halive, happly, hstage, hasked⟩ := leads_asked h hfile hname
  -- The states behind the query and behind the `BEGIN`.
  let applying : Run σ := { run with stage := .applying m rest, printed := .pending m.name :: run.printed }
  let opened : Run σ := { applying with stage := .opened m rest s.schema }
  have hquery : query (s.put r run) r run m rest .done = some ((s.put r run).put r applying) := by
    rw [query, if_neg (show m.name ∉ (s.put r run).recorded from hfresh), pending, happly, if_pos rfl,
      goOn_print_of_alive halive]
  let committed : Run σ := { opened with stage := .looping rest, printed := .applied m.name :: opened.printed }
  let before : State σ := ((s.put r run).put r applying).put r opened
  have hcommit : commit before r opened m rest s.schema .done =
      some ({ before with schema := schema', ledger := some (s.recorded ++ [m.name]) }.put r committed) := by
    have hrecord : record before m s.schema =
        some { before with schema := schema', ledger := some (s.recorded ++ [m.name]) } := by
      rw [record, if_neg (show m.name ∉ before.recorded from hfresh), hscript]
      rfl
    rw [commit, hrecord, Option.map_some, goOn_print_of_alive (show opened.alive = true from halive)]
  refine ⟨{ before with schema := schema', ledger := some (s.recorded ++ [m.name]) }.put r committed, ?_,
    atHead_put (show committed.alive = true from halive) happly rfl, rfl, rfl, rfl⟩
  rw [iteration, hfile, if_neg (by decide), if_neg hbefore]
  refine .next hasked (.next ((step_query (runs_put_self s r run) hstage .done).trans hquery) ?_)
  refine .next (step_begin (runs_put_self _ r applying) rfl) (.single ?_)
  exact (step_commit (runs_put_self _ r opened) rfl .done).trans hcommit

theorem unrecorded_cons (m : Migration σ) (rest : List (Migration σ)) :
    unrecorded recorded (m :: rest) =
      if m.isFile = true ∧ m.name ∉ recorded then m :: unrecorded recorded rest else unrecorded recorded rest := by
  unfold unrecorded files
  rw [List.filter_cons]
  by_cases hfile : m.isFile = true
  · rw [if_pos hfile, List.filter_cons]
    simp only [hfile, true_and, decide_eq_true_eq]
  · rw [if_neg hfile, if_neg fun h => hfile h.1]

/-- The rest of the loop, of which `iteration` is one round. -/
theorem leads_iterations (h : AtHead s r words) (hvalid : ∀ m ∈ files words, isMigrationName m.name = true)
    (hnodup : (words.map (·.name)).Nodup) (hsame : ∀ m ∈ words, m.name ∈ s.recorded ↔ m.name ∈ recorded)
    (hscripts : replay Migration.script (unrecorded recorded words) s.schema = some final) :
    ∃ t, (system sortsBefore directory schema).Leads s (iterations r recorded words) t ∧ t.schema = final ∧
      t.recorded = s.recorded ++ (unrecorded recorded words).map (·.name) ∧
      ∃ run, t.runs r = some run ∧ run.stage = .exited 0 := by
  induction words generalizing s with
  | nil =>
    obtain ⟨run, hr, halive, -, hstage⟩ := h
    refine ⟨s.put r { run with stage := .exited 0 }, ?_, Option.some.inj hscripts, (List.append_nil _).symm,
      _, runs_put_self s r _, rfl⟩
    refine .single ?_
    rw [step_advance hr halive hstage, advance, goOn_of_alive halive]
  | cons m rest ih =>
    rw [List.map_cons, List.nodup_cons] at hnodup
    rw [List.forall_mem_cons] at hsame
    have hvalidRest : ∀ m' ∈ files rest, isMigrationName m'.name = true := fun m' hm' =>
      hvalid m' (List.mem_filter.mpr ⟨List.mem_cons_of_mem m (List.mem_filter.mp hm').1, (List.mem_filter.mp hm').2⟩)
    -- The rounds behind this one, from a state that has recorded so much more.
    have hrest : ∀ (t : State σ) (more : List Str), AtHead t r rest → t.recorded = s.recorded ++ more →
        (∀ m' ∈ rest, m'.name ∉ more) → replay Migration.script (unrecorded recorded rest) t.schema = some final →
        (system sortsBefore directory schema).Leads s (iteration r recorded m) t →
        ∃ u, (system sortsBefore directory schema).Leads s (iterations r recorded (m :: rest)) u ∧ u.schema = final ∧
          u.recorded = s.recorded ++ more ++ (unrecorded recorded rest).map (·.name) ∧
          ∃ run, u.runs r = some run ∧ run.stage = .exited 0 := by
      intro t more hhead hrecorded hmore hreplay hleads
      have hsameRest : ∀ m' ∈ rest, m'.name ∈ t.recorded ↔ m'.name ∈ recorded := by
        intro m' hm'
        rw [hrecorded, List.mem_append, or_iff_left (hmore m' hm')]
        exact hsame.2 m' hm'
      obtain ⟨u, hu, hfinal, hall, hexit⟩ := ih hhead hvalidRest hnodup.2 hsameRest hreplay
      refine ⟨u, ?_, hfinal, hrecorded ▸ hall, hexit⟩
      rw [iterations, List.flatMap_cons, List.append_assoc]
      exact hleads.append hu
    rw [unrecorded_cons] at hscripts ⊢
    by_cases hfile : m.isFile = true
    · have hname := hvalid m (List.mem_filter.mpr ⟨List.mem_cons_self, hfile⟩)
      by_cases hrecorded : m.name ∈ recorded
      · rw [if_neg fun hm => hm.2 hrecorded] at hscripts ⊢
        obtain ⟨t, hleads, hhead, hschema, hsaved, -⟩ := leads_recorded h hfile hname (hsame.1.mpr hrecorded) hrecorded
        obtain ⟨u, hu⟩ := hrest t [] hhead (hsaved.trans (List.append_nil _).symm) (fun _ _ => List.not_mem_nil)
          (hschema ▸ hscripts) hleads
        exact ⟨u, by rw [List.append_nil] at hu; exact hu⟩
      · rw [if_pos ⟨hfile, hrecorded⟩] at hscripts ⊢
        rw [replay_cons, Option.bind_eq_some_iff] at hscripts
        obtain ⟨schema', hscript, hscripts⟩ := hscripts
        obtain ⟨t, hleads, hhead, hschema, hsaved, -⟩ :=
          leads_unrecorded h hfile hname (mt hsame.1.mp hrecorded) hrecorded hscript
        have hmore : ∀ m' ∈ rest, m'.name ∉ [m.name] := by
          intro m' hm' hmem
          exact hnodup.1 (List.mem_map.mpr ⟨m', hm', List.mem_singleton.mp hmem⟩)
        obtain ⟨u, hu, hfinal, hall, hexit⟩ := hrest t [m.name] hhead hsaved hmore (hschema ▸ hscripts) hleads
        refine ⟨u, hu, hfinal, ?_, hexit⟩
        rw [hall, List.append_assoc, List.map_cons, List.singleton_append]
    · rw [if_neg fun hm => hfile hm.1] at hscripts ⊢
      obtain ⟨t, hleads, hhead, hschema, hsaved, -⟩ := leads_other h (Bool.eq_false_of_not_eq_true hfile)
      obtain ⟨u, hu⟩ := hrest t [] hhead (hsaved.trans (List.append_nil _).symm) (fun _ _ => List.not_mem_nil)
        (hschema ▸ hscripts) hleads
      exact ⟨u, by rw [List.append_nil] at hu; exact hu⟩

/-- The head of the loop of a new run. -/
theorem leads_head (sortsBefore : Str → Str → Bool) (directory : List (Migration σ)) (schema : σ)
    (hr : s.runs r = none) :
    ∃ t, (system sortsBefore directory schema).Leads s [.start r true, .prepare r .done, .advance r] t ∧
      AtHead t r s.directory ∧ t.schema = s.schema ∧ t.recorded = s.recorded := by
  let starting : Run σ := ⟨true, true, [], .starting, []⟩
  let prepared : Run σ := { starting with stage := .prepared }
  let head : Run σ := { prepared with words := s.directory, stage := .looping s.directory }
  let before : State σ := { s.put r starting with ledger := some s.recorded }.put r prepared
  have hstart : (system sortsBefore directory schema).step s (.start r true) = some (s.put r starting) := by
    rw [system_step, step, hr]
  have hprepare : (system sortsBefore directory schema).step (s.put r starting) (.prepare r .done) = some before := by
    rw [system_step, step, runs_put_self]
    rfl
  have hadvance : (system sortsBefore directory schema).step before (.advance r) = some (before.put r head) := by
    rw [system_step, step, runs_put_self]
    rfl
  exact ⟨before.put r head, .next hstart (.next hprepare (.single hadvance)), atHead_put rfl rfl rfl, rfl, rfl⟩

/-- From any state that runs, killed wherever they were, can leave behind, one further run that nothing disturbs ends
with zero, at exactly the schema that all files make of the first one, provided that they make one. -/
theorem rerun_completes {h : History (State σ) (Action σ)} (hnames : (directory.map (·.name)).Nodup)
    (hrun : (system sortsBefore directory schema).Run h s) (happended : System.AllSteps (Appended sortsBefore) h)
    (hfresh : s.runs r = none) (hvalid : ∀ m ∈ files s.directory, isMigrationName m.name = true)
    (hscripts : replay Migration.script (files s.directory) schema = some final) :
    ∃ t, (system sortsBefore directory schema).Leads s (undisturbed r s.recorded s.directory) t ∧ t.schema = final ∧
      t.recorded = (files s.directory).map (·.name) ∧ ∃ run, t.runs r = some run ∧ run.stage = .exited 0 := by
  have hordered := ordered_of_run hnames hrun happended
  obtain ⟨done, hdone, hprogress⟩ := hordered.done
  obtain ⟨undone, hfiles, hundone⟩ := hprogress.remaining hscripts
  have hunrecorded : unrecorded s.recorded s.directory = undone := by
    rw [unrecorded, hdone, hfiles]
    exact filter_undone (hfiles ▸ nodup_files hordered.names)
  obtain ⟨t, hleads, hhead, hschema, hrecorded⟩ := leads_head sortsBefore directory schema hfresh
  have hsame : ∀ m ∈ s.directory, m.name ∈ t.recorded ↔ m.name ∈ s.recorded := fun m _ => by rw [hrecorded]
  obtain ⟨u, hiterations, hfinal, hall, hexit⟩ :=
    leads_iterations hhead hvalid hordered.names hsame (by rw [hunrecorded, hschema]; exact hundone)
  refine ⟨u, hleads.append hiterations, hfinal, ?_, hexit⟩
  rw [hall, hunrecorded, hrecorded, hdone, hfiles, List.map_append]

/-- A third run, behind the two. -/
theorem rerun_completes_contended :
    ∃ (h : History (State (List ℕ)) (Action (List ℕ))) (s t : State (List ℕ)),
      (system Sample.sortsBefore [Sample.corpus] []).Run h s ∧
      (system Sample.sortsBefore [Sample.corpus] []).Leads s (undisturbed 2 s.recorded s.directory) t ∧
      t.schema = [1, 2] ∧ t.recorded = (files s.directory).map (·.name) ∧
      ∃ run, t.runs 2 = some run ∧ run.stage = .exited 0 := by
  obtain ⟨h, s, hrun, htest⟩ := System.exists_run (system Sample.sortsBefore [Sample.corpus] []) Sample.contended
    (fun h s => decide (System.AllSteps (Appended Sample.sortsBefore) h ∧ (s.runs 2).isNone ∧
      (∀ m ∈ files s.directory, isMigrationName m.name = true) ∧
      replay Migration.script (files s.directory) [] = some [1, 2])) (by decide +kernel)
  obtain ⟨happended, hfresh, hvalid, hscripts⟩ := of_decide_eq_true htest
  obtain ⟨t, ht⟩ := rerun_completes Sample.nodup_names hrun happended (Option.isNone_iff_eq_none.mp hfresh) hvalid
    hscripts
  exact ⟨h, s, t, hrun, ht⟩

end Undisturbed

end NeuroLab.Postgres.Migrations
