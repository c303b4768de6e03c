import Mathlib.Data.List.Basic

/-!
# Runs of a labelled transition function

A system is a function `step : σ → ℓ → Option σ`. The label says which party
moves and how its environment answers; `none` means that the label is not
enabled in the state. Everything nondeterministic (scheduling, failures, what
an outside service returns) is in the label, so a run is a list of labels and
can be replayed.

The rules below are the induction principles the models use: an invariant kept
by every step, an invariant kept by the steps that meet a condition, and a
reflexive and transitive relation between the ends of a run.
-/

namespace Runs

universe u v

variable {σ : Type u} {ℓ : Type v} (step : σ → ℓ → Option σ)

/-- Take the labels in turn; `none` as soon as one is not enabled. -/
def exec : σ → List ℓ → Option σ
  | s, [] => some s
  | s, l :: tr => (step s l).bind fun t => exec t tr

/-- Every label of the run is taken in a state that meets `C`. -/
def Along (C : σ → ℓ → Prop) : σ → List ℓ → Prop
  | _, [] => True
  | s, l :: tr => C s l ∧ (step s l).elim True fun t => Along C t tr

instance decidableAlong (C : σ → ℓ → Prop) [∀ s l, Decidable (C s l)] :
    (s : σ) → (tr : List ℓ) → Decidable (Along step C s tr)
  | _, [] => isTrue trivial
  | s, l :: tr =>
      have : Decidable ((step s l).elim True fun t => Along step C t tr) :=
        match step s l with
        | none => isTrue trivial
        | some t => decidableAlong C t tr
      inferInstanceAs (Decidable (_ ∧ _))

variable {step}

@[simp] theorem exec_nil (s : σ) : exec step s [] = some s := rfl

theorem exec_cons {s u : σ} {l : ℓ} {tr : List ℓ} :
    exec step s (l :: tr) = some u ↔ ∃ t, step s l = some t ∧ exec step t tr = some u := by
  simp [exec, Option.bind_eq_some_iff]

theorem exec_append {s u : σ} {tr₁ tr₂ : List ℓ} :
    exec step s (tr₁ ++ tr₂) = some u ↔
      ∃ t, exec step s tr₁ = some t ∧ exec step t tr₂ = some u := by
  induction tr₁ generalizing s with
  | nil => simp
  | cons l tr ih =>
      simp only [List.cons_append, exec_cons, ih]
      constructor
      · rintro ⟨t, hl, v, htr, hu⟩
        exact ⟨v, ⟨t, hl, htr⟩, hu⟩
      · rintro ⟨v, ⟨t, hl, htr⟩, hu⟩
        exact ⟨t, hl, v, htr, hu⟩

@[simp] theorem along_nil (C : σ → ℓ → Prop) (s : σ) : Along step C s [] := trivial

theorem along_cons {C : σ → ℓ → Prop} {s t : σ} {l : ℓ} {tr : List ℓ} (h : step s l = some t) :
    Along step C s (l :: tr) ↔ C s l ∧ Along step C t tr := by
  simp [Along, h]

theorem along_mono {C D : σ → ℓ → Prop} (hCD : ∀ s l, C s l → D s l) {s : σ} {tr : List ℓ}
    (h : Along step C s tr) : Along step D s tr := by
  induction tr generalizing s with
  | nil => trivial
  | cons l tr ih =>
      refine ⟨hCD s l h.1, ?_⟩
      cases hl : step s l with
      | none => trivial
      | some t => exact ih ((along_cons hl).mp h).2

theorem along_and {C D : σ → ℓ → Prop} {s : σ} {tr : List ℓ} (hC : Along step C s tr)
    (hD : Along step D s tr) : Along step (fun s l => C s l ∧ D s l) s tr := by
  induction tr generalizing s with
  | nil => trivial
  | cons l tr ih =>
      refine ⟨⟨hC.1, hD.1⟩, ?_⟩
      cases hl : step s l with
      | none => trivial
      | some t => exact ih ((along_cons hl).mp hC).2 ((along_cons hl).mp hD).2

theorem along_of_forall {C : σ → ℓ → Prop} {tr : List ℓ} (h : ∀ l ∈ tr, ∀ s, C s l) (s : σ) :
    Along step C s tr := by
  induction tr generalizing s with
  | nil => trivial
  | cons l tr ih =>
      have hrest : ∀ l' ∈ tr, ∀ s, C s l' := fun l' hl' => h l' (List.mem_cons_of_mem _ hl')
      refine ⟨h l List.mem_cons_self s, ?_⟩
      cases step s l with
      | none => trivial
      | some t => exact ih hrest t

theorem along_append {C : σ → ℓ → Prop} {s t : σ} {tr₁ tr₂ : List ℓ}
    (h : exec step s tr₁ = some t) :
    Along step C s (tr₁ ++ tr₂) ↔ Along step C s tr₁ ∧ Along step C t tr₂ := by
  induction tr₁ generalizing s with
  | nil =>
      obtain rfl : s = t := by simpa using h
      simp
  | cons l tr ih =>
      obtain ⟨v, hl, htr⟩ := exec_cons.mp h
      rw [List.cons_append, along_cons hl, along_cons hl, ih htr, and_assoc]

/-- The condition of a run is one of its first part. -/
theorem along_left {C : σ → ℓ → Prop} {s : σ} {tr₁ tr₂ : List ℓ}
    (h : Along step C s (tr₁ ++ tr₂)) : Along step C s tr₁ := by
  induction tr₁ generalizing s with
  | nil => trivial
  | cons l tr ih =>
      refine ⟨h.1, ?_⟩
      cases hl : step s l with
      | none => trivial
      | some t => exact ih ((along_cons hl).mp h).2

/-- The condition of a run that can be replayed, label by label. -/
theorem along_iff_forall {C : σ → ℓ → Prop} {s u : σ} {tr : List ℓ} (h : exec step s tr = some u) :
    Along step C s tr ↔
      ∀ tr₁ l tr₂ t, tr = tr₁ ++ l :: tr₂ → exec step s tr₁ = some t → C t l := by
  induction tr generalizing s with
  | nil => simp
  | cons a tr ih =>
      obtain ⟨v, ha, htr⟩ := exec_cons.mp h
      rw [along_cons ha, ih htr]
      constructor
      · rintro ⟨hC, hrest⟩ tr₁ l tr₂ t heq ht
        cases tr₁ with
        | nil =>
            obtain ⟨rfl, -⟩ := List.cons.inj heq
            obtain rfl : s = t := by simpa using ht
            exact hC
        | cons b tr₁ =>
            obtain ⟨rfl, hrestEq⟩ := List.cons.inj heq
            obtain ⟨w, hw, ht⟩ := exec_cons.mp ht
            obtain rfl : v = w := by
              rw [ha] at hw
              exact Option.some.inj hw
            exact hrest tr₁ l tr₂ t hrestEq ht
      · intro hall
        refine ⟨hall [] a tr s rfl rfl, ?_⟩
        intro tr₁ l tr₂ t heq ht
        exact hall (a :: tr₁) l tr₂ t (by simp [heq]) (exec_cons.mpr ⟨v, ha, ht⟩)

/-! ## Induction over a run -/

/-- An invariant kept by the steps that meet `C` holds after every run whose
steps meet `C`. -/
theorem invariant_along {I : σ → Prop} {C : σ → ℓ → Prop}
    (hstep : ∀ s l t, I s → C s l → step s l = some t → I t)
    {s u : σ} {tr : List ℓ} (hs : I s) (hC : Along step C s tr) (h : exec step s tr = some u) :
    I u := by
  induction tr generalizing s with
  | nil =>
      obtain rfl : s = u := by simpa using h
      exact hs
  | cons l tr ih =>
      obtain ⟨t, hl, htr⟩ := exec_cons.mp h
      obtain ⟨hCl, hCtr⟩ := (along_cons hl).mp hC
      exact ih (hstep s l t hs hCl hl) hCtr htr

/-- An invariant kept by every step holds after every run. -/
theorem invariant {I : σ → Prop} (hstep : ∀ s l t, I s → step s l = some t → I t)
    {s u : σ} {tr : List ℓ} (hs : I s) (h : exec step s tr = some u) : I u := by
  induction tr generalizing s with
  | nil =>
      obtain rfl : s = u := by simpa using h
      exact hs
  | cons l tr ih =>
      obtain ⟨t, hl, htr⟩ := exec_cons.mp h
      exact ih (hstep s l t hs hl) htr

/-- It also holds in every state on the way. -/
theorem always_of_along {I : σ → Prop} {C : σ → ℓ → Prop}
    (hstep : ∀ s l t, I s → C s l → step s l = some t → I t)
    {s : σ} {tr : List ℓ} (hs : I s) (hC : Along step C s tr) :
    ∀ before after t, tr = before ++ after → exec step s before = some t → I t := by
  rintro before after t rfl ht
  exact invariant_along hstep hs ((along_append ht).mp hC).1 ht

/-- Where an invariant is kept by the steps that meet `C`, what it gives of such a
step holds along the run. -/
theorem along_of_invariant {I : σ → Prop} {C D : σ → ℓ → Prop}
    (hstep : ∀ s l t, I s → C s l → step s l = some t → I t) (hD : ∀ s l, I s → C s l → D s l)
    {s : σ} {tr : List ℓ} (hs : I s) (hC : Along step C s tr) : Along step D s tr := by
  induction tr generalizing s with
  | nil => trivial
  | cons l tr ih =>
      refine ⟨hD s l hs hC.1, ?_⟩
      cases hl : step s l with
      | none => trivial
      | some t => exact ih (hstep s l t hs hC.1 hl) ((along_cons hl).mp hC).2

/-- Conditions that agree on the steps from invariant states agree along a run, though
only the steps that meet them keep the invariant. -/
theorem along_congr_kept {I : σ → Prop} {C D : σ → ℓ → Prop}
    (hI : ∀ s l t, I s → C s l → step s l = some t → I t)
    (hCD : ∀ s l, I s → (C s l ↔ D s l)) {s : σ} {tr : List ℓ} (hs : I s) :
    Along step C s tr ↔ Along step D s tr := by
  constructor
  · exact along_of_invariant hI (fun s l hs hC => (hCD s l hs).mp hC) hs
  · exact along_of_invariant (fun s l t hs hD h => hI s l t hs ((hCD s l hs).mpr hD) h)
      (fun s l hs hD => (hCD s l hs).mpr hD) hs

/-- Conditions that agree on the steps from invariant states agree along a run. -/
theorem along_congr {I : σ → Prop} {C D : σ → ℓ → Prop}
    (hI : ∀ s l t, I s → step s l = some t → I t)
    (hCD : ∀ s l t, I s → step s l = some t → (C s l ↔ D s l))
    {s u : σ} {tr : List ℓ} (hs : I s) (h : exec step s tr = some u) :
    Along step C s tr ↔ Along step D s tr := by
  induction tr generalizing s with
  | nil => exact Iff.rfl
  | cons l tr ih =>
      obtain ⟨t, hl, htr⟩ := exec_cons.mp h
      rw [along_cons hl, along_cons hl, hCD s l t hs hl, ih (hI s l t hs hl) htr]

/-- A preorder that every step from an invariant state respects relates the
two ends of a run whose steps meet `C`. -/
theorem relation_along {I : σ → Prop} {C : σ → ℓ → Prop} {R : σ → σ → Prop}
    (hrefl : ∀ s, R s s) (htrans : ∀ s t u, R s t → R t u → R s u)
    (hstep : ∀ s l t, I s → C s l → step s l = some t → I t ∧ R s t)
    {s u : σ} {tr : List ℓ} (hs : I s) (hC : Along step C s tr) (h : exec step s tr = some u) :
    R s u := by
  induction tr generalizing s with
  | nil =>
      obtain rfl : s = u := by simpa using h
      exact hrefl s
  | cons l tr ih =>
      obtain ⟨t, hl, htr⟩ := exec_cons.mp h
      obtain ⟨hCl, hCtr⟩ := (along_cons hl).mp hC
      obtain ⟨ht, hR⟩ := hstep s l t hs hCl hl
      exact htrans s t u hR (ih ht hCtr htr)

/-- A preorder that every step respects relates the two ends of a run. -/
theorem relation {R : σ → σ → Prop} (hrefl : ∀ s, R s s) (htrans : ∀ s t u, R s t → R t u → R s u)
    (hstep : ∀ s l t, step s l = some t → R s t)
    {s u : σ} {tr : List ℓ} (h : exec step s tr = some u) : R s u := by
  induction tr generalizing s with
  | nil =>
      obtain rfl : s = u := by simpa using h
      exact hrefl s
  | cons l tr ih =>
      obtain ⟨t, hl, htr⟩ := exec_cons.mp h
      exact htrans s t u (hstep s l t hl) (ih htr)

/-- Every step of a run leads to a state that a preorder relates to the end. -/
theorem along_relation {R : σ → σ → Prop} (hrefl : ∀ s, R s s)
    (htrans : ∀ s t u, R s t → R t u → R s u) (hstep : ∀ s l t, step s l = some t → R s t)
    {s u : σ} {tr : List ℓ} (h : exec step s tr = some u) :
    Along step (fun s l => ∀ t, step s l = some t → R t u) s tr := by
  induction tr generalizing s with
  | nil => trivial
  | cons l tr ih =>
      obtain ⟨t, hl, htr⟩ := exec_cons.mp h
      refine (along_cons hl).mpr ⟨?_, ih htr⟩
      intro v hv
      obtain rfl : t = v := Option.some.inj (hl.symm.trans hv)
      exact relation hrefl htrans hstep htr

/-- Where `I` holds throughout and a step from a state with `P` keeps `P`
exactly when it meets `C`, a run has `P` in all its states exactly when all its
steps meet `C`. Both may rest on an assumption `D` on the steps of the run. -/
theorem always_iff_along_of {I P : σ → Prop} {C D : σ → ℓ → Prop}
    (hI : ∀ s l t, I s → D s l → step s l = some t → I t)
    (hP : ∀ s l t, I s → D s l → P s → step s l = some t → (P t ↔ C s l))
    {s u : σ} {tr : List ℓ} (hs : I s) (hPs : P s) (hD : Along step D s tr)
    (h : exec step s tr = some u) :
    (∀ before after t, tr = before ++ after → exec step s before = some t → P t) ↔
      Along step C s tr := by
  induction tr generalizing s with
  | nil =>
      refine iff_of_true ?_ trivial
      intro before after t heq ht
      obtain ⟨rfl, -⟩ := List.append_eq_nil_iff.mp heq.symm
      obtain rfl : s = t := by simpa using ht
      exact hPs
  | cons l tr ih =>
      obtain ⟨v, hl, htr⟩ := exec_cons.mp h
      obtain ⟨hDl, hDtr⟩ := (along_cons hl).mp hD
      rw [along_cons hl]
      constructor
      · intro hall
        have hPv : P v := hall [l] tr v rfl (exec_cons.mpr ⟨v, hl, rfl⟩)
        refine ⟨(hP s l v hs hDl hPs hl).mp hPv, (ih (hI s l v hs hDl hl) hPv hDtr htr).mp ?_⟩
        intro before after t heq ht
        exact hall (l :: before) after t (by simp [heq]) (exec_cons.mpr ⟨v, hl, ht⟩)
      · rintro ⟨hC, hCtr⟩ before after t heq ht
        have hPv : P v := (hP s l v hs hDl hPs hl).mpr hC
        cases before with
        | nil =>
            obtain rfl : s = t := by simpa using ht
            exact hPs
        | cons b before =>
            obtain ⟨rfl, hrest⟩ := List.cons.inj heq
            obtain ⟨w, hw, ht⟩ := exec_cons.mp ht
            obtain rfl : v = w := Option.some.inj (hl.symm.trans hw)
            exact (ih (hI s l v hs hDl hl) hPv hDtr htr).mpr hCtr before after t hrest ht

theorem always_iff_along {I P : σ → Prop} {C : σ → ℓ → Prop}
    (hI : ∀ s l t, I s → step s l = some t → I t)
    (hP : ∀ s l t, I s → P s → step s l = some t → (P t ↔ C s l))
    {s u : σ} {tr : List ℓ} (hs : I s) (hPs : P s) (h : exec step s tr = some u) :
    (∀ before after t, tr = before ++ after → exec step s before = some t → P t) ↔
      Along step C s tr := by
  have hD : Along step (fun _ _ => True) s tr :=
    (along_iff_forall h).mpr fun _ _ _ _ _ _ => trivial
  exact always_iff_along_of (fun s l t hs _ hl => hI s l t hs hl)
    (fun s l t hs _ hPs hl => hP s l t hs hPs hl) hs hPs hD h

/-- Where an invariant is kept by the steps that meet `C`, and from an invariant
state a step leads to `P` exactly when it meets `C`, a run has `P` in all its
states exactly when all its steps meet `C`. -/
theorem always_iff_along_kept {I P : σ → Prop} {C : σ → ℓ → Prop}
    (hI : ∀ s l t, I s → C s l → step s l = some t → I t)
    (hP : ∀ s l t, I s → step s l = some t → (P t ↔ C s l))
    {s u : σ} {tr : List ℓ} (hs : I s) (hPs : P s) (h : exec step s tr = some u) :
    (∀ before after t, tr = before ++ after → exec step s before = some t → P t) ↔
      Along step C s tr := by
  induction tr generalizing s with
  | nil =>
      refine iff_of_true ?_ trivial
      intro before after t heq ht
      obtain ⟨rfl, -⟩ := List.append_eq_nil_iff.mp heq.symm
      obtain rfl : s = t := by simpa using ht
      exact hPs
  | cons l tr ih =>
      obtain ⟨v, hl, htr⟩ := exec_cons.mp h
      rw [along_cons hl]
      constructor
      · intro hall
        have hPv : P v := hall [l] tr v rfl (exec_cons.mpr ⟨v, hl, rfl⟩)
        have hC : C s l := (hP s l v hs hl).mp hPv
        refine ⟨hC, (ih (hI s l v hs hC hl) hPv htr).mp ?_⟩
        intro before after t heq ht
        exact hall (l :: before) after t (by simp [heq]) (exec_cons.mpr ⟨v, hl, ht⟩)
      · rintro ⟨hC, hCtr⟩ before after t heq ht
        have hPv : P v := (hP s l v hs hl).mpr hC
        cases before with
        | nil =>
            obtain rfl : s = t := by simpa using ht
            exact hPs
        | cons b before =>
            obtain ⟨rfl, hrest⟩ := List.cons.inj heq
            obtain ⟨w, hw, ht⟩ := exec_cons.mp ht
            obtain rfl : v = w := Option.some.inj (hl.symm.trans hw)
            exact (ih (hI s l v hs hC hl) hPv htr).mpr hCtr before after t hrest ht

/-! ## Maps of systems -/

/-- A map that commutes with a step commutes with runs. -/
theorem exec_map {f : σ → σ} {g : ℓ → ℓ} (hstep : ∀ s l, step (f s) (g l) = (step s l).map f)
    (s : σ) (tr : List ℓ) : exec step (f s) (tr.map g) = (exec step s tr).map f := by
  induction tr generalizing s with
  | nil => rfl
  | cons l tr ih =>
      rw [List.map_cons]
      unfold exec
      rw [hstep]
      cases h : step s l with
      | none => rfl
      | some t => exact ih t

/-! ## Observers -/

section

variable {ω : Type*} (step) (observe : σ → σ → ω → ℓ → ω)

/-- The system with an observer that takes note of its steps. -/
def watched : σ × ω → ℓ → Option (σ × ω) :=
  fun x l => (step x.1 l).map fun t => (t, observe x.1 t x.2 l)

variable {step observe}

theorem watched_eq_some {x y : σ × ω} {l : ℓ} :
    watched step observe x l = some y ↔
      step x.1 l = some y.1 ∧ y.2 = observe x.1 y.1 x.2 l := by
  unfold watched
  rw [Option.map_eq_some_iff]
  constructor
  · rintro ⟨t, ht, rfl⟩
    exact ⟨ht, rfl⟩
  · rintro ⟨ht, hy⟩
    exact ⟨y.1, ht, by rw [← hy]⟩

/-- The observer enables and disables nothing. -/
theorem exec_watched (x : σ × ω) (tr : List ℓ) :
    (exec (watched step observe) x tr).map Prod.fst = exec step x.1 tr := by
  induction tr generalizing x with
  | nil => rfl
  | cons l tr ih =>
      unfold exec watched
      cases h : step x.1 l with
      | none => rfl
      | some t => exact ih (t, observe x.1 t x.2 l)

end

end Runs
