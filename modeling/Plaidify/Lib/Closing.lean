import Mathlib.Data.List.Basic

/-!
# Sequences up to a closing element

What a sequence says up to its first closing element, that element included. Two
sequences are *alike* where they say the same up to there; whatever is appended
to both keeps them alike, and a sequence that is closed is like all its
continuations.
-/

namespace Closing

universe u

variable {α : Type u} (p : α → Bool)

/-- The elements through the first that meets `p`. -/
def upTo : List α → List α
  | [] => []
  | a :: as => if p a then [a] else a :: upTo as

/-- The sequence has a closing element. -/
def Closed (as : List α) : Prop := ∃ a ∈ as, p a = true

/-- The sequences say the same up to their closing elements. -/
def Alike (as bs : List α) : Prop := upTo p as = upTo p bs

variable {p}

theorem not_closed_nil : ¬ Closed p ([] : List α) := by
  rintro ⟨a, ha, -⟩
  cases ha

theorem closed_cons {a : α} (ha : p a ≠ true) (as : List α) :
    Closed p (a :: as) ↔ Closed p as := by
  constructor
  · rintro ⟨b, hb, hp⟩
    rcases List.mem_cons.mp hb with rfl | hb
    · exact absurd hp ha
    · exact ⟨b, hb, hp⟩
  · rintro ⟨b, hb, hp⟩
    exact ⟨b, List.mem_cons_of_mem a hb, hp⟩

theorem upTo_of_not_closed {as : List α} (h : ¬ Closed p as) : upTo p as = as := by
  induction as with
  | nil => rfl
  | cons a as ih =>
      have ha : p a ≠ true := fun hp => h ⟨a, List.mem_cons_self, hp⟩
      rw [closed_cons ha] at h
      rw [upTo, if_neg ha, ih h]

theorem upTo_append_of_closed {as : List α} (h : Closed p as) (bs : List α) :
    upTo p (as ++ bs) = upTo p as := by
  induction as with
  | nil => exact absurd h not_closed_nil
  | cons a as ih =>
      rw [List.cons_append, upTo, upTo]
      by_cases ha : p a = true
      · rw [if_pos ha, if_pos ha]
      · rw [if_neg ha, if_neg ha, ih ((closed_cons ha as).mp h)]

theorem upTo_append_of_not_closed {as : List α} (h : ¬ Closed p as) (bs : List α) :
    upTo p (as ++ bs) = as ++ upTo p bs := by
  induction as with
  | nil => rfl
  | cons a as ih =>
      have ha : p a ≠ true := fun hp => h ⟨a, List.mem_cons_self, hp⟩
      rw [closed_cons ha] at h
      rw [List.cons_append, upTo, if_neg ha, ih h, List.cons_append]

theorem upTo_closed {as : List α} : Closed p (upTo p as) ↔ Closed p as := by
  induction as with
  | nil => rfl
  | cons a as ih =>
      by_cases ha : p a = true
      · rw [upTo, if_pos ha]
        exact iff_of_true ⟨a, List.mem_singleton_self a, ha⟩ ⟨a, List.mem_cons_self, ha⟩
      · rw [upTo, if_neg ha, closed_cons ha, closed_cons ha, ih]

theorem Closed.append {as : List α} (h : Closed p as) (bs : List α) : Closed p (as ++ bs) := by
  rcases h with ⟨a, ha, hp⟩
  exact ⟨a, List.mem_append_left bs ha, hp⟩

/-- A longer sequence says what a shorter one says. -/
theorem upTo_prefix {as bs : List α} (h : as <+: bs) : upTo p as <+: upTo p bs := by
  rcases h with ⟨cs, rfl⟩
  by_cases has : Closed p as
  · exact ⟨[], by rw [List.append_nil, upTo_append_of_closed has]⟩
  · rw [upTo_append_of_not_closed has, upTo_of_not_closed has]
    exact List.prefix_append as _

namespace Alike

theorem refl (as : List α) : Alike p as as := rfl

theorem trans {as bs cs : List α} (h : Alike p as bs) (h' : Alike p bs cs) : Alike p as cs :=
  Eq.trans h h'

theorem closed {as bs : List α} (h : Alike p as bs) : Closed p as ↔ Closed p bs := by
  rw [← upTo_closed, h, upTo_closed]

/-- Whatever is appended to both keeps them alike. -/
theorem append {as bs : List α} (h : Alike p as bs) (cs : List α) :
    Alike p (as ++ cs) (bs ++ cs) := by
  unfold Alike
  by_cases has : Closed p as
  · rw [upTo_append_of_closed has, upTo_append_of_closed (h.closed.mp has)]
    exact h
  · have hbs : ¬ Closed p bs := fun hc => has (h.closed.mpr hc)
    have heq : as = bs := by
      rw [← upTo_of_not_closed has, ← upTo_of_not_closed hbs]
      exact h
    rw [heq]

/-- A closed sequence is like its continuations. -/
theorem of_closed {as : List α} (h : Closed p as) (bs : List α) : Alike p as (as ++ bs) :=
  (upTo_append_of_closed h bs).symm

/-- Of a continuation of a closed sequence nothing counts that comes after it. -/
theorem of_append {as bs cs : List α} (h : Alike p (as ++ bs) cs) (hclosed : Closed p as) :
    Alike p as cs :=
  (upTo_append_of_closed hclosed bs).symm.trans h

/-- What continues to something alike is a beginning of it. -/
theorem upTo_prefix {as bs cs : List α} (h : Alike p (as ++ bs) cs) :
    upTo p as <+: upTo p cs := by
  rw [← show upTo p (as ++ bs) = upTo p cs from h]
  exact Closing.upTo_prefix (List.prefix_append as bs)

end Alike

end Closing
