import Mathlib.Data.List.Basic

/-!
# Conditions on traces

A trace is the list of what happened. A monitor looks at each event and at what
happened before it.
-/

namespace Traces

variable {E : Type*} {C D : List E → E → Prop} {P : List E → Prop}

/-- Every event is allowed after the events before it. -/
def Each (C : List E → E → Prop) (tr : List E) : Prop :=
  ∀ before e after, tr = before ++ e :: after → C before e

theorem each_nil : Each C [] := by
  intro before e after h
  simp at h

/-- A trace that grows by one event has only this one to answer for. -/
theorem each_concat {tr : List E} {e : E} : Each C (tr ++ [e]) ↔ Each C tr ∧ C tr e := by
  constructor
  · intro h
    refine ⟨?_, h tr e [] rfl⟩
    rintro before x after rfl
    exact h before x (after ++ [e]) (by simp)
  · rintro ⟨htr, he⟩ before x after heq
    rcases List.eq_nil_or_concat after with rfl | ⟨after, y, rfl⟩
    · have hlast := List.append_inj' heq rfl
      obtain ⟨rfl, hx⟩ := hlast
      rw [← (List.cons.inj hx).1]
      exact he
    · have hsplit : tr ++ [e] = (before ++ x :: after) ++ [y] := by simpa using heq
      exact htr before x after (List.append_inj' hsplit rfl).1

theorem each_iff_getElem {tr : List E} :
    Each C tr ↔ ∀ i, (h : i < tr.length) → C (tr.take i) tr[i] := by
  constructor
  · intro h i hi
    exact h (tr.take i) tr[i] (tr.drop (i + 1)) (by simp)
  · rintro h before e after rfl
    simpa using h before.length (by simp)

instance decidableEach [∀ before e, Decidable (C before e)] (tr : List E) :
    Decidable (Each C tr) :=
  decidable_of_iff _ each_iff_getElem.symm

/-- Every part of the trace, from its beginning on, meets the condition. -/
def Throughout (P : List E → Prop) (tr : List E) : Prop :=
  ∀ before after, tr = before ++ after → P before

theorem throughout_nil : Throughout P [] ↔ P [] := by
  constructor
  · intro h
    exact h [] [] rfl
  · intro h before after heq
    obtain ⟨rfl, -⟩ := List.append_eq_nil_iff.mp heq.symm
    exact h

theorem throughout_concat {tr : List E} {e : E} :
    Throughout P (tr ++ [e]) ↔ Throughout P tr ∧ P (tr ++ [e]) := by
  constructor
  · intro h
    refine ⟨?_, h (tr ++ [e]) [] (by simp)⟩
    rintro before after rfl
    exact h before (after ++ [e]) (by simp)
  · rintro ⟨htr, hlast⟩ before after heq
    rcases List.eq_nil_or_concat after with rfl | ⟨after, y, rfl⟩
    · rw [List.append_nil] at heq
      rw [← heq]
      exact hlast
    · have hsplit : tr ++ [e] = (before ++ after) ++ [y] := by simpa using heq
      exact htr before after (List.append_inj' hsplit rfl).1

/-- A trace has what holds of all its parts. -/
theorem Throughout.self {tr : List E} (h : Throughout P tr) : P tr :=
  h tr [] (by simp)

end Traces
