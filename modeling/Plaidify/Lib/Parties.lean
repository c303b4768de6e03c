import Mathlib.Data.List.Basic
import Mathlib.Data.List.Perm.Basic

/-!
# Parties of a concurrent system

The parties that are under way are a list in no particular order. A step picks
one of them out and puts it back changed, or drops it; what the list counts up
to is then a matter of permutation.
-/

namespace Parties

universe u

variable {α : Type u}

/-- The first party that meets `p`, and the list without it. -/
def pick (p : α → Bool) (l : List α) : Option (α × List α) :=
  (l.find? p).map fun a => (a, l.eraseP p)

theorem pick_eq_some {p : α → Bool} {l rest : List α} {a : α} (h : pick p l = some (a, rest)) :
    l.find? p = some a ∧ rest = l.eraseP p := by
  simp only [pick, Option.map_eq_some_iff, Prod.mk.injEq] at h
  obtain ⟨b, hfind, rfl, rfl⟩ := h
  exact ⟨hfind, rfl⟩

/-- Picking only reorders. -/
theorem pick_perm {p : α → Bool} {l rest : List α} {a : α} (h : pick p l = some (a, rest)) :
    l.Perm (a :: rest) := by
  obtain ⟨hfind, rfl⟩ := pick_eq_some h
  obtain ⟨ha, before, after, heq, hbefore⟩ := List.find?_eq_some_iff_append.mp hfind
  rw [heq, List.eraseP_append_right _ (by simpa using hbefore), List.eraseP_cons_of_pos ha]
  exact List.perm_middle

end Parties
