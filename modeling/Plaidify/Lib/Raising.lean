import Mathlib.Order.Basic

/-!
# Computations that keep their state through an exception

A computation over a state that returns or raises. What it wrote before it
raised stays written, as in a language with mutable state, so a handler and a
clean-up see the state at the point of the exception.

`after` is the meaning of a computation. The triples below have one
postcondition for the return and one for the exception; a handler turns the
second of its body into a precondition of its own, and a clean-up is run from
both.
-/

/-- Return an `α` or raise an `ε`, with a state that survives both. -/
abbrev Raising (ε σ α : Type) := ExceptT ε (StateM σ) α

namespace Raising

variable {ε σ α β : Type}

/-- How a computation ends and the state it leaves behind. -/
def after (c : Raising ε σ α) (s : σ) : Except ε α × σ :=
  (ExceptT.run c).run s

@[simp] theorem after_pure (a : α) (s : σ) : after (pure a : Raising ε σ α) s = (.ok a, s) := rfl

@[simp] theorem after_throw (e : ε) (s : σ) :
    after (throw e : Raising ε σ α) s = (.error e, s) := rfl

@[simp] theorem after_get (s : σ) : after (get : Raising ε σ σ) s = (.ok s, s) := rfl

@[simp] theorem after_modify (f : σ → σ) (s : σ) :
    after (modify f : Raising ε σ PUnit) s = (.ok ⟨⟩, f s) := rfl

theorem after_bind (c : Raising ε σ α) (f : α → Raising ε σ β) (s : σ) :
    after (c >>= f) s =
      match after c s with
      | (.ok a, t) => after (f a) t
      | (.error e, t) => (.error e, t) := by
  simp only [after, ExceptT.run_bind, StateT.run_bind]
  rcases hc : StateT.run (ExceptT.run c) s with ⟨e | a, t⟩ <;> rfl

theorem after_tryCatch (c : Raising ε σ α) (h : ε → Raising ε σ α) (s : σ) :
    after (tryCatch c h) s =
      match after c s with
      | (.ok a, t) => (.ok a, t)
      | (.error e, t) => after (h e) t := by
  unfold after ExceptT.run StateT.run
  simp only [tryCatch, tryCatchThe, MonadExceptOf.tryCatch, ExceptT.tryCatch, ExceptT.mk, bind,
    StateT.bind]
  cases c s with
  | mk r t => cases r <;> rfl

/-- A clean-up runs however the body ended; its own exception takes over. -/
theorem after_tryFinally (c : Raising ε σ α) (f : Raising ε σ Unit) (s : σ) :
    after (tryFinally c f) s =
      match after c s with
      | (r, t) =>
          match after f t with
          | (.ok _, u) => (r, u)
          | (.error e, u) => (.error e, u) := by
  unfold after ExceptT.run StateT.run
  simp only [tryFinally, tryFinally', Functor.map, ExceptT.map, ExceptT.mk, bind, StateT.bind,
    pure]
  cases c s with
  | mk r t =>
      cases r with
      | ok a =>
          simp only []
          cases f t with
          | mk r' u => cases r' <;> rfl
      | error e =>
          simp only []
          cases f t with
          | mk r' u => cases r' <;> rfl

/-! ## Triples -/

/-- A computation that returned ends in `Q`, one that raised in `E`. -/
def Ends (Q : α → σ → Prop) (E : ε → σ → Prop) : Except ε α × σ → Prop
  | (.ok a, s) => Q a s
  | (.error e, s) => E e s

/-- Started in a state with `P`, the computation ends in `Q` or `E`. -/
def Triple (P : σ → Prop) (c : Raising ε σ α) (Q : α → σ → Prop) (E : ε → σ → Prop) : Prop :=
  ∀ s, P s → Ends Q E (after c s)

variable {P P' : σ → Prop} {Q Q' : α → σ → Prop} {E E' : ε → σ → Prop}

theorem Triple.conseq {c : Raising ε σ α} (h : Triple P c Q E) (hP : ∀ s, P' s → P s)
    (hQ : ∀ a s, Q a s → Q' a s) (hE : ∀ e s, E e s → E' e s) : Triple P' c Q' E' := by
  intro s hs
  have hends := h s (hP s hs)
  rcases hc : after c s with ⟨e | a, t⟩
  · rw [hc] at hends
    exact hE e t hends
  · rw [hc] at hends
    exact hQ a t hends

/-- Two triples of one computation. -/
theorem Triple.and {c : Raising ε σ α} (h : Triple P c Q E) (h' : Triple P' c Q' E') :
    Triple (fun s => P s ∧ P' s) c (fun a s => Q a s ∧ Q' a s) fun e s => E e s ∧ E' e s := by
  rintro s ⟨hs, hs'⟩
  have hends := h s hs
  have hends' := h' s hs'
  rcases hc : after c s with ⟨e | a, t⟩
  · rw [hc] at hends hends'
    exact ⟨hends, hends'⟩
  · rw [hc] at hends hends'
    exact ⟨hends, hends'⟩

/-- What holds however a computation ends holds of the state it leaves. -/
theorem Triple.state {c : Raising ε σ α} {R : σ → Prop} (h : Triple P c (fun _ => R) fun _ => R)
    {s : σ} (hs : P s) : R (after c s).2 := by
  have hends := h s hs
  rcases hc : after c s with ⟨e | a, t⟩
  · rw [hc] at hends
    exact hends
  · rw [hc] at hends
    exact hends

theorem triple_pure (a : α) (h : ∀ s, P s → Q a s) :
    Triple P (pure a : Raising ε σ α) Q E :=
  fun s hs => h s hs

theorem triple_throw (e : ε) (h : ∀ s, P s → E e s) :
    Triple P (throw e : Raising ε σ α) Q E :=
  fun s hs => h s hs

theorem triple_modify {Q : PUnit → σ → Prop} (f : σ → σ) (h : ∀ s, P s → Q ⟨⟩ (f s)) :
    Triple P (modify f : Raising ε σ PUnit) Q E :=
  fun s hs => h s hs

theorem Triple.bind {R : β → σ → Prop} {c : Raising ε σ α} {f : α → Raising ε σ β}
    (hc : Triple P c Q E) (hf : ∀ a, Triple (Q a) (f a) R E) : Triple P (c >>= f) R E := by
  intro s hs
  have hends := hc s hs
  rw [after_bind]
  rcases h : after c s with ⟨e | a, t⟩
  · rw [h] at hends
    exact hends
  · rw [h] at hends
    exact hf a t hends

/-- Read the state and go on. -/
theorem triple_get_bind {f : σ → Raising ε σ α} (hf : ∀ s, P s → Ends Q E (after (f s) s)) :
    Triple P (get >>= f) Q E := by
  intro s hs
  rw [after_bind]
  exact hf s hs

/-- The handler starts where the body raised. -/
theorem Triple.tryCatch {c : Raising ε σ α} {h : ε → Raising ε σ α}
    (hc : Triple P c Q E) (hh : ∀ e, Triple (E e) (h e) Q E') :
    Triple P (tryCatch c h) Q E' := by
  intro s hs
  have hends := hc s hs
  rw [after_tryCatch]
  rcases hr : after c s with ⟨e | a, t⟩
  · rw [hr] at hends
    exact hh e t hends
  · rw [hr] at hends
    exact hends

/-- The clean-up has to lead from every end of the body to the same end of the
whole, or to raise into `E'`. -/
theorem Triple.tryFinally {c : Raising ε σ α} {f : Raising ε σ Unit} (hc : Triple P c Q E)
    (hok : ∀ a, Triple (Q a) f (fun _ => Q' a) E') (herr : ∀ e, Triple (E e) f (fun _ => E' e) E') :
    Triple P (tryFinally c f) Q' E' := by
  intro s hs
  have hends := hc s hs
  rw [after_tryFinally]
  rcases hr : after c s with ⟨e | a, t⟩
  · rw [hr] at hends
    have hclean := herr e t hends
    rcases hf : after f t with ⟨e' | u, t'⟩
    · rw [hf] at hclean
      simp only [hf]
      exact hclean
    · rw [hf] at hclean
      simp only [hf]
      exact hclean
  · rw [hr] at hends
    have hclean := hok a t hends
    rcases hf : after f t with ⟨e' | u, t'⟩
    · rw [hf] at hclean
      simp only [hf]
      exact hclean
    · rw [hf] at hclean
      simp only [hf]
      exact hclean

/-! ## What a computation keeps -/

/-- The condition holds after the computation, however it ends, if it held before. -/
def Keeps (P : σ → Prop) (c : Raising ε σ α) : Prop :=
  Triple P c (fun _ => P) fun _ => P

theorem keeps_pure (a : α) : Keeps P (pure a : Raising ε σ α) :=
  triple_pure a fun _ h => h

theorem keeps_throw (e : ε) : Keeps P (throw e : Raising ε σ α) :=
  triple_throw e fun _ h => h

theorem Keeps.bind {c : Raising ε σ α} {f : α → Raising ε σ β} (hc : Keeps P c)
    (hf : ∀ a, Keeps P (f a)) : Keeps P (c >>= f) :=
  Triple.bind hc hf

theorem Keeps.tryCatch {c : Raising ε σ α} {h : ε → Raising ε σ α} (hc : Keeps P c)
    (hh : ∀ e, Keeps P (h e)) : Keeps P (tryCatch c h) :=
  Triple.tryCatch hc hh

theorem Keeps.tryFinally {c : Raising ε σ α} {f : Raising ε σ Unit} (hc : Keeps P c)
    (hf : Keeps P f) : Keeps P (tryFinally c f) :=
  Triple.tryFinally hc (fun _ => hf) fun _ => hf

end Raising
