import NeuroLab.Common.Program
import Mathlib.Order.Defs.Unbundled

/-!
# Runs of programs, one by one and side by side

A program advances along a relation of states if each run leaves a state that the relation has
behind its start, however the run ends. Two programs are coupled if runs from related states end
alike, in values or in exceptions that are related with the states they leave. What the two meet
may be restricted to the states that the first run has in its past, of which the rules for a
sequence keep account.
-/

namespace NeuroLab.Common

variable {σ τ ε ε' α β α' β' : Type}

/-! ## Progress -/

/-- Each run leaves a state behind its start. -/
def Advances (r : σ → σ → Prop) (x : Program σ ε α) : Prop := ∀ s, r s (x.after s)

namespace Advances

variable {r : σ → σ → Prop} {x : Program σ ε α} {f : α → Program σ ε β} {handler : ε → Program σ ε α}

theorem of_modify {g : σ → σ} (hg : ∀ s, r s (g s)) : Advances r (modify g : Program σ ε PUnit) := hg

variable [IsPreorder σ r]

theorem of_pure (a : α) : Advances r (pure a : Program σ ε α) := fun s => refl_of r s

theorem of_throw (e : ε) : Advances r (throw e : Program σ ε α) := fun s => refl_of r s

theorem of_get : Advances r (get : Program σ ε σ) := fun s => refl_of r s

theorem bind (hx : Advances r x) (hf : ∀ a, Advances r (f a)) : Advances r (x >>= f) := by
  intro s
  have hfirst := hx s
  unfold Program.after at hfirst ⊢
  rw [Program.outcome_bind]
  generalize x.outcome s = outcome at hfirst ⊢
  obtain ⟨result, s'⟩ := outcome
  cases result with
  | error e => exact hfirst
  | ok a => exact trans_of r hfirst (hf a s')

theorem tryCatch (hx : Advances r x) (hhandler : ∀ e, Advances r (handler e)) : Advances r (tryCatch x handler) := by
  intro s
  have hbody := hx s
  unfold Program.after at hbody ⊢
  rw [Program.outcome_tryCatch]
  generalize x.outcome s = outcome at hbody ⊢
  obtain ⟨result, s'⟩ := outcome
  cases result with
  | ok a => exact hbody
  | error e => exact trans_of r hbody (hhandler e s')

end Advances

/-! ## Two runs -/

/-- The runs both return, and `Q` relates their values and states, or both raise, and `E` does. -/
inductive Alike (E : ε → ε' → σ → τ → Prop) (Q : α → α' → σ → τ → Prop) : Except ε α × σ → Except ε' α' × τ → Prop
  | ok {a : α} {a' : α'} {s : σ} {t : τ} (h : Q a a' s t) : Alike E Q (.ok a, s) (.ok a', t)
  | error {e : ε} {e' : ε'} {s : σ} {t : τ} (h : E e e' s t) : Alike E Q (.error e, s) (.error e', t)

/-- Runs from states that `P` relates end alike, as long as the first stays in a past. -/
def Coupled (past : σ → Prop) (P : σ → τ → Prop) (E : ε → ε' → σ → τ → Prop) (Q : α → α' → σ → τ → Prop)
    (x : Program σ ε α) (y : Program τ ε' α') : Prop :=
  ∀ s t, P s t → past (x.after s) → Alike E Q (x.outcome s) (y.outcome t)

namespace Coupled

variable {past : σ → Prop} {P P' : σ → τ → Prop} {E E' : ε → ε' → σ → τ → Prop} {Q : α → α' → σ → τ → Prop}
  {S : β → β' → σ → τ → Prop} {x : Program σ ε α} {y : Program τ ε' α'} {f : α → Program σ ε β} {g : α' → Program τ ε' β'}
  {handler : ε → Program σ ε α} {handler' : ε' → Program τ ε' α'}

theorem of_pure {a : α} {a' : α'} (h : ∀ s t, past s → P s t → Q a a' s t) :
    Coupled past P E Q (pure a : Program σ ε α) (pure a' : Program τ ε' α') :=
  fun s t hst hpast => .ok (h s t hpast hst)

theorem of_throw {e : ε} {e' : ε'} (h : ∀ s t, past s → P s t → E e e' s t) :
    Coupled past P E Q (throw e : Program σ ε α) (throw e' : Program τ ε' α') :=
  fun s t hst hpast => .error (h s t hpast hst)

theorem of_modify {m : σ → σ} {m' : τ → τ} {S : PUnit → PUnit → σ → τ → Prop}
    (h : ∀ s t, past (m s) → P s t → S ⟨⟩ ⟨⟩ (m s) (m' t)) :
    Coupled past P E S (modify m : Program σ ε PUnit) (modify m' : Program τ ε' PUnit) :=
  fun s t hst hpast => .ok (h s t hpast hst)

/-- What is behind the first part is in the past of the first run too. -/
theorem bind (hx : Coupled past P E Q x y) (hpast : ∀ a s, past ((f a).after s) → past s)
    (hf : ∀ a a', Coupled past (Q a a') E S (f a) (g a')) : Coupled past P E S (x >>= f) (y >>= g) := by
  intro s t hst hafter
  have hfirst := hx s t hst
  unfold Program.after at hfirst hafter
  rw [Program.outcome_bind] at hafter ⊢
  rw [Program.outcome_bind]
  generalize x.outcome s = outcome at hfirst hafter ⊢
  generalize y.outcome t = outcome' at hfirst ⊢
  obtain ⟨result, s'⟩ := outcome
  obtain ⟨result', t'⟩ := outcome'
  cases result with
  | error e =>
    cases hfirst hafter with
    | error h => exact .error h
  | ok a =>
    cases hfirst (hpast a s' hafter) with
    | ok h => exact hf a _ s' t' h hafter

theorem tryCatch (hx : Coupled past P E' Q x y) (hpast : ∀ e s, past ((handler e).after s) → past s)
    (hhandler : ∀ e e', Coupled past (E' e e') E Q (handler e) (handler' e')) :
    Coupled past P E Q (tryCatch x handler) (tryCatch y handler') := by
  intro s t hst hafter
  have hfirst := hx s t hst
  unfold Program.after at hfirst hafter
  rw [Program.outcome_tryCatch] at hafter ⊢
  rw [Program.outcome_tryCatch]
  generalize x.outcome s = outcome at hfirst hafter ⊢
  generalize y.outcome t = outcome' at hfirst ⊢
  obtain ⟨result, s'⟩ := outcome
  obtain ⟨result', t'⟩ := outcome'
  cases result with
  | ok a =>
    cases hfirst hafter with
    | ok h => exact .ok h
  | error e =>
    cases hfirst (hpast e s' hafter) with
    | error h => exact hhandler e _ s' t' h hafter

theorem of_pre (hx : Coupled past P E Q x y) (h : ∀ s t, P' s t → P s t) : Coupled past P' E Q x y :=
  fun s t hst => hx s t (h s t hst)

/-- A condition that does not speak of the states. -/
theorem of_fact {p : Prop} (hx : p → Coupled past P E Q x y) : Coupled past (fun s t => p ∧ P s t) E Q x y :=
  fun s t hst => hx hst.1 s t hst.2

end Coupled

/-! ## Two runs from one state -/

/-- One state, with related values or one exception. -/
abbrev Same (Q : α → α' → Prop) : Except ε α × σ → Except ε α' × σ → Prop :=
  Alike (fun e e' s t => e = e' ∧ s = t) (fun a a' s t => Q a a' ∧ s = t)

/-- Runs from one state leave one state, with related values or one exception. -/
def Twin (Q : α → α' → Prop) (x : Program σ ε α) (y : Program σ ε α') : Prop :=
  Coupled (fun _ => True) Eq (fun e e' s t => e = e' ∧ s = t) (fun a a' s t => Q a a' ∧ s = t) x y

namespace Twin

variable {Q : α → α' → Prop} {S : β → β' → Prop} {x : Program σ ε α} {y : Program σ ε α'} {f : α → Program σ ε β}
  {g : α' → Program σ ε β'}

theorem of_pure {a : α} {a' : α'} (h : Q a a') : Twin Q (pure a : Program σ ε α) (pure a' : Program σ ε α') :=
  Coupled.of_pure fun _ _ _ hst => ⟨h, hst⟩

theorem of_throw (e : ε) : Twin Q (throw e : Program σ ε α) (throw e : Program σ ε α') :=
  Coupled.of_throw fun _ _ _ hst => ⟨rfl, hst⟩

/-- A program beside itself. -/
theorem refl (x : Program σ ε α) : Twin Eq x x := by
  rintro s _ rfl -
  rcases x.outcome s with ⟨result, s'⟩
  cases result with
  | error e => exact .error ⟨rfl, rfl⟩
  | ok a => exact .ok ⟨rfl, rfl⟩

theorem bind (hx : Twin Q x y) (hf : ∀ a a', Q a a' → Twin S (f a) (g a')) : Twin S (x >>= f) (y >>= g) :=
  Coupled.bind hx (fun _ _ _ => trivial) fun a a' => Coupled.of_fact (hf a a')

theorem outcome_eq {y : Program σ ε α} (h : Twin Eq x y) (s : σ) : x.outcome s = y.outcome s := by
  have halike := h s s rfl trivial
  generalize x.outcome s = outcome at halike ⊢
  generalize y.outcome s = outcome' at halike ⊢
  cases halike with
  | ok h => rw [h.1, h.2]
  | error h => rw [h.1, h.2]

end Twin

end NeuroLab.Common
