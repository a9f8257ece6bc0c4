import NeuroLab.Common.Loop

/-!
# Triples

From every state that meets a precondition, a program returns with one postcondition or raises with
another. One rule for each construct, among them `try ... finally ...` and a loop over a list, whose
invariant speaks of the items done.
-/

namespace NeuroLab.Common

variable {σ ε α β : Type}

namespace Program

/-- `try: x finally: cleanup`. What the cleanup raises takes the place of what the body does. -/
def ensuring (x : Program σ ε α) (cleanup : Program σ ε Unit) : Program σ ε α := do
  let a ← tryCatch x fun e => do
    cleanup
    throw e
  cleanup
  pure a

/-- `for x in xs: body`. -/
def forEach (body : α → Program σ ε Unit) : List α → Program σ ε Unit
  | [] => pure ()
  | x :: xs => do
    body x
    forEach body xs

/-- A loop over two lists is one loop behind the other. -/
theorem forEach_append (body : α → Program σ ε Unit) (xs ys : List α) :
    forEach body (xs ++ ys) = forEach body xs >>= fun _ => forEach body ys := by
  induction xs with
  | nil => exact (pure_bind () fun _ => forEach body ys).symm
  | cons x xs ih => rw [List.cons_append, forEach, ih, forEach, bind_assoc]

/-- A loop comes to its last item behind the others. -/
theorem outcome_forEach_concat {body : α → Program σ ε Unit} {xs : List α} {x : α} {s s' s'' : σ}
    (hxs : (forEach body xs).outcome s = (.ok (), s')) (hx : (body x).outcome s' = (.ok (), s'')) :
    (forEach body (xs ++ [x])).outcome s = (.ok (), s'') := by
  rw [forEach_append, outcome_bind_of_ok hxs]
  exact outcome_bind_of_ok hx

end Program

/-- From where `P` holds, a run returns with `Q` or raises with `E`. -/
def Triple (P : σ → Prop) (x : Program σ ε α) (Q : α → σ → Prop) (E : ε → σ → Prop) : Prop :=
  ∀ s, P s → Meets Q E (x.outcome s)

/-- Weaker postconditions are met as well. -/
theorem Meets.mono {Q Q' : α → σ → Prop} {E E' : ε → σ → Prop} {outcome : Except ε α × σ} (h : Meets Q E outcome)
    (hQ : ∀ a s, Q a s → Q' a s) (hE : ∀ e s, E e s → E' e s) : Meets Q' E' outcome := by
  obtain ⟨result, s⟩ := outcome
  cases result with
  | ok a => exact hQ a s h
  | error e => exact hE e s h

namespace Triple

variable {P P' : σ → Prop} {x : Program σ ε α} {f : α → Program σ ε β} {Q Q' : α → σ → Prop} {R : β → σ → Prop}
  {E E' : ε → σ → Prop}

theorem pure (a : α) : Triple (Q a) (pure a : Program σ ε α) Q E := fun _ h => h

theorem throw (e : ε) : Triple (E e) (throw e : Program σ ε α) Q E := fun _ h => h

theorem get {Q : σ → σ → Prop} : Triple (fun s => Q s s) (get : Program σ ε σ) Q E := fun _ h => h

theorem modify {Q : PUnit → σ → Prop} (g : σ → σ) : Triple (fun s => Q ⟨⟩ (g s)) (modify g : Program σ ε PUnit) Q E :=
  fun _ h => h

theorem mono (h : Triple P x Q E) (hP : ∀ s, P' s → P s) (hQ : ∀ a s, Q a s → Q' a s) (hE : ∀ e s, E e s → E' e s) :
    Triple P' x Q' E' :=
  fun s hs => (h s (hP s hs)).mono hQ hE

/-- The rule of consequence for the precondition alone. -/
theorem weaken (h : Triple P x Q E) (hP : ∀ s, P' s → P s) : Triple P' x Q E :=
  h.mono hP (fun _ _ h => h) fun _ _ h => h

theorem bind (hx : Triple P x Q E) (hf : ∀ a, Triple (Q a) (f a) R E) : Triple P (x >>= f) R E := by
  intro s hs
  have hmeets := hx s hs
  rw [Program.outcome_bind]
  generalize x.outcome s = outcome at hmeets ⊢
  obtain ⟨result, s'⟩ := outcome
  cases result with
  | ok a => exact hf a s' hmeets
  | error e => exact hmeets

theorem tryCatch {handler : ε → Program σ ε α} (hx : Triple P x Q E) (hhandler : ∀ e, Triple (E e) (handler e) Q E') :
    Triple P (tryCatch x handler) Q E' := by
  intro s hs
  have hmeets := hx s hs
  rw [Program.outcome_tryCatch]
  generalize x.outcome s = outcome at hmeets ⊢
  obtain ⟨result, s'⟩ := outcome
  cases result with
  | ok a => exact hmeets
  | error e => exact hhandler e s' hmeets

/-- The cleanup runs behind every body, and may itself raise. -/
theorem ensuring {cleanup : Program σ ε Unit} (hx : Triple P x Q E) (hok : ∀ a, Triple (Q a) cleanup (fun _ => Q' a) E')
    (herror : ∀ e, Triple (E e) cleanup (fun _ => E' e) E') : Triple P (x.ensuring cleanup) Q' E' := by
  refine bind (Q := Q) (tryCatch hx fun e => (herror e).bind fun _ => throw e) fun a => ?_
  exact (hok a).bind fun _ => pure a

/-- A loop keeps an invariant of the items done that each round extends. -/
theorem forEach {body : α → Program σ ε Unit} {xs : List α} {I : List α → σ → Prop}
    (hbody : ∀ done x rest, xs = done ++ x :: rest → Triple (I done) (body x) (fun _ => I (done ++ [x])) E) :
    Triple (I []) (Program.forEach body xs) (fun _ => I xs) E := by
  suffices hrest : ∀ rest done, xs = done ++ rest → Triple (I done) (Program.forEach body rest) (fun _ => I xs) E from
    hrest xs [] rfl
  intro rest
  induction rest with
  | nil =>
    intro done hxs s hs
    rw [hxs, List.append_nil]
    exact hs
  | cons x rest ih =>
    intro done hxs
    refine (hbody done x rest hxs).bind fun _ => ih (done ++ [x]) ?_
    rw [List.append_assoc, List.singleton_append]
    exact hxs

end Triple

end NeuroLab.Common
