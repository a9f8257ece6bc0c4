import Mathlib.Data.List.Basic
import NeuroLab.Common.Transition

/-!
# Expiring leases on a slot of work

A slot comes into being, is acquired by one holder at a time, and closed once. A holder loses
it by settling it or, when more than the term has passed since it acquired it, by an
expiry. The clock of the system that implements the slot never goes back.

What follows for every run of such a system: a closed slot stays as it is, only the
holder settles, and two acquisitions are separated by an expiry of the first one.
-/

namespace NeuroLab.Common.Lease

variable {H O σ α : Type*}

/-- A slot, with its holder and the time it was acquired, or with its outcome. -/
inductive Slot (H O : Type*)
  | absent
  | pending
  | held (holder : H) (since : ℕ)
  | closed (outcome : O)

/-- What can happen to a slot. -/
inductive Move (H O : Type*)
  | idle
  | enter
  | acquire (holder : H)
  | expire
  | settle (holder : H) (outcome : O)
  | withdraw (outcome : O)

/-- No one holds the slot and it is not closed. -/
def Slot.Free : Slot H O → Prop
  | .absent => True
  | .pending => True
  | _ => False

/-- One move at time `now`, for leases of the given term. -/
inductive Step (term now : ℕ) : Slot H O → Move H O → Slot H O → Prop
  | idle (x : Slot H O) : Step term now x .idle x
  | enter : Step term now .absent .enter .pending
  | acquire (h : H) {x : Slot H O} : x.Free → Step term now x (.acquire h) (.held h now)
  | expire {h : H} {since : ℕ} : since + term < now → Step term now (.held h since) .expire .pending
  | settle (h : H) {since : ℕ} (o : O) : Step term now (.held h since) (.settle h o) (.closed o)
  | withdraw {x : Slot H O} (o : O) : x.Free → Step term now x (.withdraw o) (.closed o)

/-- A closed slot only idles. -/
theorem Step.of_closed {term now : ℕ} {o : O} {m : Move H O} {x : Slot H O}
    (h : Step term now (.closed o) m x) : x = .closed o := by
  cases h with
  | idle => rfl
  | acquire _ hfree => exact hfree.elim
  | withdraw _ hfree => exact hfree.elim

/-- A held slot stays held, expires when its term has passed, or is closed. -/
theorem Step.of_held {term now : ℕ} {h : H} {since : ℕ} {m : Move H O} {x : Slot H O}
    (hstep : Step term now (.held h since) m x) :
    x = .held h since ∨ (m = .expire ∧ since + term < now) ∨ ∃ o, x = .closed o := by
  cases hstep with
  | idle => exact Or.inl rfl
  | acquire _ hfree => exact hfree.elim
  | expire hterm => exact Or.inr (Or.inl ⟨rfl, hterm⟩)
  | settle _ o => exact Or.inr (Or.inr ⟨o, rfl⟩)
  | withdraw _ hfree => exact hfree.elim

/-- A system implements a slot: its steps are moves of it, each permitted by its label, and its
clock is monotone. -/
structure Implements (M : System σ α) (term : ℕ) (clock : σ → ℕ) (slot : σ → Slot H O)
    (label : σ → α → Move H O → Prop) : Prop where
  monotone : ∀ {s a s'}, M.step s a = some s' → clock s ≤ clock s'
  moves : ∀ {s a s'}, M.step s a = some s' →
    ∃ m, label s a m ∧ Step term (clock s) (slot s) m (slot s')

namespace Implements

variable {M : System σ α} {term : ℕ} {clock : σ → ℕ} {slot : σ → Slot H O}
  {label : σ → α → Move H O → Prop} (imp : Implements M term clock slot label)
include imp

/-- A closed slot is the same at the end of every continuation. -/
theorem closed_absorbing {mid earlier : History σ α} {s s₁ : σ} {a : α} {o : O}
    (run : M.Run (mid ++ (s₁, a) :: earlier) s) (hclosed : slot s₁ = .closed o) :
    slot s = .closed o := by
  induction mid generalizing s with
  | nil =>
    cases run with
    | step _ hstep =>
      obtain ⟨m, -, hmove⟩ := imp.moves hstep
      rw [hclosed] at hmove
      exact hmove.of_closed
  | cons x mid ih =>
    cases run with
    | step run hstep =>
      obtain ⟨m, -, hmove⟩ := imp.moves hstep
      rw [ih run] at hmove
      exact hmove.of_closed

/-- The clock at the end of a run is not behind that of a state passed through. -/
theorem clock_le {h : History σ α} {s : σ} (run : M.Run h s) {x : σ × α} (hx : x ∈ h) :
    clock x.1 ≤ clock s := by
  induction run with
  | start => exact absurd hx List.not_mem_nil
  | step run hstep ih =>
    rcases List.mem_cons.mp hx with rfl | hx
    · exact imp.monotone hstep
    · exact Nat.le_trans (ih hx) (imp.monotone hstep)

/-- After an acquisition the slot is held by the same holder, or the lease has expired on the way,
or the slot is closed. -/
theorem held_until_expiry {mid earlier : History σ α} {s s₁ s₂ : σ} {a : α} {k : H} {t : ℕ}
    (run : M.Run (mid ++ (s₁, a) :: earlier) s) (hacquire : M.step s₁ a = some s₂)
    (hheld : slot s₂ = .held k t) :
    slot s = .held k t ∨ (∃ x ∈ mid, slot x.1 = .held k t ∧ label x.1 x.2 .expire ∧ t + term < clock x.1) ∨
      ∃ o, slot s = .closed o := by
  induction mid generalizing s with
  | nil =>
    cases run with
    | step _ hstep =>
      rw [hacquire] at hstep
      cases hstep
      exact Or.inl hheld
  | cons x mid ih =>
    cases run with
    | @step _ s₀ _ b run hstep =>
      obtain ⟨m, hlabel, hmove⟩ := imp.moves hstep
      rcases ih run with hs | ⟨x, hx, hexpire⟩ | ⟨o, ho⟩
      · rw [hs] at hmove
        rcases hmove.of_held with hstay | ⟨rfl, hterm⟩ | hclosed
        · exact Or.inl hstay
        · exact Or.inr (Or.inl ⟨(s₀, b), List.mem_cons_self, hs, hlabel, hterm⟩)
        · exact Or.inr (Or.inr hclosed)
      · exact Or.inr (Or.inl ⟨x, List.mem_cons_of_mem _ hx, hexpire⟩)
      · rw [ho] at hmove
        exact Or.inr (Or.inr ⟨o, hmove.of_closed⟩)

/-- Between an acquisition and a later state with a free slot the lease expired: more than the
term passed, and an expiry of that very lease is among the steps between. -/
theorem expired_between {mid earlier : History σ α} {s s₁ s₂ : σ} {a : α} {k : H}
    (run : M.Run (mid ++ (s₁, a) :: earlier) s) (hacquire : M.step s₁ a = some s₂)
    (hheld : slot s₂ = .held k (clock s₁)) (hfree : (slot s).Free) :
    clock s₁ + term < clock s ∧
      ∃ x ∈ mid, slot x.1 = .held k (clock s₁) ∧ label x.1 x.2 .expire ∧
        clock s₁ + term < clock x.1 := by
  rcases imp.held_until_expiry run hacquire hheld with hs | ⟨x, hx, hslot, hlabel, hterm⟩ | ⟨o, ho⟩
  · rw [hs] at hfree
    exact hfree.elim
  · have hlater := imp.clock_le run (List.mem_append_left _ hx)
    exact ⟨Nat.lt_of_lt_of_le hterm hlater, x, hx, hslot, hlabel, hterm⟩
  · rw [ho] at hfree
    exact hfree.elim

end Implements

end NeuroLab.Common.Lease
