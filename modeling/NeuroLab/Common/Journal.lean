import Mathlib.Data.List.Nodup
import Mathlib.Data.List.Infix

/-!
# Journals

A plan lists jobs that each take a store to the next, or fail. A journal keeps the keys of the jobs
that were done. It is in order if they are a head of the plan and the store is what these jobs, run
one after the other, make of the first one: then only one job of the plan can be next.
-/

namespace NeuroLab.Common

variable {σ J κ : Type}

/-- The store behind the jobs, run in order, if none of them fails. -/
def replay (run : J → σ → Option σ) (jobs : List J) (s : σ) : Option σ := jobs.foldlM (fun s job => run job s) s

/-- The jobs done are a head of the plan, and the store is their replay. -/
structure Progress (run : J → σ → Option σ) (plan : List J) (s₀ : σ) (done : List J) (s : σ) : Prop where
  head : done <+: plan
  replayed : replay run done s₀ = some s

section Replay

variable (run : J → σ → Option σ) (jobs jobs' : List J) (job : J) (s : σ)

@[simp] theorem replay_nil : replay run [] s = some s := rfl

@[simp] theorem replay_cons : replay run (job :: jobs) s = (run job s).bind (replay run jobs) := by
  rw [replay, List.foldlM_cons]
  rfl

theorem replay_append : replay run (jobs ++ jobs') s = (replay run jobs s).bind (replay run jobs') := by
  rw [replay, List.foldlM_append]
  rfl

end Replay

namespace Progress

variable {run : J → σ → Option σ} {plan later done before rest : List J} {s₀ s s' : σ} {job : J}

/-- Before the first job. -/
theorem start (plan : List J) (s : σ) : Progress run plan s [] s := ⟨List.nil_prefix, rfl⟩

/-- A plan may grow at its end. -/
theorem grow (h : Progress run plan s₀ done s) (later : List J) : Progress run (plan ++ later) s₀ done s :=
  ⟨h.head.trans (List.prefix_append plan later), h.replayed⟩

/-- The next job of the plan. -/
theorem advance (h : Progress run plan s₀ done s) (hplan : plan = done ++ job :: rest) (hjob : run job s = some s') :
    Progress run plan s₀ (done ++ [job]) s' := by
  refine ⟨⟨rest, ?_⟩, ?_⟩
  · rw [hplan, List.append_assoc, List.singleton_append]
  · rw [replay_append, h.replayed, Option.bind_some, replay_cons, hjob, Option.bind_some, replay_nil]

/-- A job that is not done, where all jobs of the plan before it are, is the next one. -/
theorem eq_of_next (h : Progress run plan s₀ done s) (key : J → κ) (hnodup : (plan.map key).Nodup)
    (hplan : plan = before ++ job :: rest) (hbefore : ∀ j ∈ before, key j ∈ done.map key)
    (hjob : key job ∉ done.map key) : done = before := by
  obtain ⟨undone, hundone⟩ := h.head
  have hsame : done ++ undone = before ++ job :: rest := hundone.trans hplan
  rcases List.append_eq_append_iff.mp hsame with ⟨more, hmore, -⟩ | ⟨more, hdone, hmore⟩
  · -- A job of `before` that is not done would be done under the key of an earlier one.
    cases more with
    | nil => rw [hmore, List.append_nil]
    | cons j more =>
      have hkey : key j ∈ done.map key := hbefore j (hmore ▸ List.mem_append_right done List.mem_cons_self)
      rw [hplan, hmore, List.append_assoc, List.map_append, List.nodup_append'] at hnodup
      exact absurd (List.mem_map_of_mem List.mem_cons_self) (hnodup.2.2 hkey)
  · cases more with
    | nil => rw [hdone, List.append_nil]
    | cons j more =>
      obtain ⟨rfl, -⟩ := List.cons.inj hmore
      have hmem : job ∈ done := hdone ▸ List.mem_append_right before List.mem_cons_self
      exact absurd (List.mem_map_of_mem hmem) hjob

/-- Where the whole plan can be replayed on the first store, its other jobs can on the store there is. -/
theorem remaining {final : σ} (h : Progress run plan s₀ done s) (hplan : replay run plan s₀ = some final) :
    ∃ undone, plan = done ++ undone ∧ replay run undone s = some final := by
  obtain ⟨undone, hundone⟩ := h.head
  refine ⟨undone, hundone.symm, ?_⟩
  rw [← hundone, replay_append, h.replayed, Option.bind_some] at hplan
  exact hplan

end Progress

/-- The jobs of a plan that have no key in the journal of the others. -/
theorem filter_undone [BEq κ] [LawfulBEq κ] {key : J → κ} {done undone : List J} (hnodup : ((done ++ undone).map key).Nodup) :
    (done ++ undone).filter (fun job => decide (key job ∉ done.map key)) = undone := by
  rw [List.map_append, List.nodup_append'] at hnodup
  rw [List.filter_append, List.filter_eq_nil_iff.mpr, List.filter_eq_self.mpr, List.nil_append]
  · exact fun job hjob => decide_eq_true fun hkey => hnodup.2.2 hkey (List.mem_map_of_mem hjob)
  · exact fun job hjob => by simpa using ⟨job, hjob, rfl⟩

end NeuroLab.Common
