import Mathlib.Algebra.Order.Field.Basic
import Mathlib.Data.List.Chain
import Mathlib.Tactic.Linarith
import Mathlib.Tactic.Ring

/-!
# Chains along which a measure rises

A chain of steps, each of which raises a measure by at least a fixed amount. The measure of
the last member is then bounded below by the length of the chain, a bound on the measure
bounds the length, and no member occurs twice, under any name that determines its measure.
-/

namespace NeuroLab.Common.Ratchet

variable {α κ 𝕜 : Type*} [Field 𝕜] [LinearOrder 𝕜] [IsStrictOrderedRing 𝕜]
  {R : α → α → Prop} {m : α → 𝕜} {rise : 𝕜}

/-- Along a chain the measure rises with every step. -/
theorem measure_getLast (step : ∀ a b, R a b → m a + rise ≤ m b) {a : α} {rest : List α}
    (chain : List.IsChain R (a :: rest)) :
    m a + rise * rest.length ≤ m ((a :: rest).getLast (List.cons_ne_nil a rest)) := by
  induction rest generalizing a with
  | nil => simp
  | cons b rest ih =>
    obtain ⟨hstep, hrest⟩ := List.isChain_cons_cons.mp chain
    have hfirst := step a b hstep
    have hlast := ih hrest
    rw [List.getLast_cons (List.cons_ne_nil b rest), List.length_cons, Nat.cast_succ]
    linarith

omit [Field 𝕜] [LinearOrder 𝕜] [IsStrictOrderedRing 𝕜] in
/-- Every later member of a chain was reached by a step. -/
theorem exists_step {a b : α} {rest : List α} (chain : List.IsChain R (a :: rest)) (hb : b ∈ rest) : ∃ c, R c b := by
  induction rest generalizing a with
  | nil => cases hb
  | cons next rest ih =>
    obtain ⟨hstep, hrest⟩ := List.isChain_cons_cons.mp chain
    rcases List.mem_cons.mp hb with rfl | hb
    · exact ⟨a, hstep⟩
    · exact ih hrest hb

/-- A relation that each step makes and that composes holds between any two members. -/
theorem pairwise {S : α → α → Prop} (trans : ∀ a b c, S a b → S b c → S a c) (step : ∀ a b, R a b → S a b)
    {chain : List α} (h : List.IsChain R chain) : List.Pairwise S chain := by
  have : IsTrans α S := ⟨trans⟩
  exact List.isChain_iff_pairwise.mp (h.imp step)

/-- No member occurs twice under a name that determines the measure. -/
theorem nodup (hrise : 0 < rise) (step : ∀ a b, R a b → m a + rise ≤ m b) {name : α → κ}
    (determined : ∀ a b, name a = name b → m a = m b) {chain : List α} (h : List.IsChain R chain) :
    (chain.map name).Nodup := by
  have hrises : ∀ a b, R a b → m a < m b := fun a b hab =>
    lt_of_lt_of_le (lt_add_of_pos_right _ hrise) (step a b hab)
  have hlt : List.Pairwise (fun a b => m a < m b) chain :=
    pairwise (S := fun a b => m a < m b) (fun _ _ _ => lt_trans) hrises h
  refine List.pairwise_map.mpr (hlt.imp fun {a b} hab hname => ?_)
  exact absurd (determined a b hname) (ne_of_lt hab)

end NeuroLab.Common.Ratchet
