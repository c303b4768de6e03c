import Mathlib.Data.List.Basic

/-!
# Dictionaries with a maximum

The keys of a dictionary, in the order in which they came, and what it takes to keep
their number under a maximum. Where room is made before a key is assigned, and only
for what is over the maximum already, there is one key too many afterwards unless
there was room or the key was there (`length_insertKey_le_iff`).
-/

namespace Capacity

universe u

variable {κ : Type u} [DecidableEq κ]

/-- Assign a key: an old one keeps its place, a new one comes last. -/
def insertKey (ks : List κ) (k : κ) : List κ :=
  if k ∈ ks then ks else ks ++ [k]

theorem mem_insertKey (ks : List κ) (k : κ) : k ∈ insertKey ks k := by
  unfold insertKey
  split
  · next hmem => exact hmem
  · exact List.mem_append_right _ (List.mem_singleton_self k)

theorem subset_insertKey (ks : List κ) (k : κ) : ks ⊆ insertKey ks k := by
  unfold insertKey
  split
  · exact List.Subset.refl ks
  · exact List.subset_append_left ks [k]

theorem length_insertKey_le (ks : List κ) (k : κ) : (insertKey ks k).length ≤ ks.length + 1 := by
  unfold insertKey
  split
  · omega
  · exact Nat.le_of_eq List.length_append

/-- A key finds room if it is there already or one is missing to the maximum. -/
theorem length_insertKey_le_iff {max : Nat} {ks : List κ} (h : ks.length ≤ max) (k : κ) :
    (insertKey ks k).length ≤ max ↔ k ∈ ks ∨ ks.length < max := by
  unfold insertKey
  by_cases hmem : k ∈ ks
  · rw [if_pos hmem]
    exact iff_of_true h (.inl hmem)
  · rw [if_neg hmem, List.length_append, List.length_singleton]
    constructor
    · intro hle
      exact .inr (by omega)
    · rintro (hin | hlt)
      · exact absurd hin hmem
      · omega

/-- What is kept where there is room for `max`. -/
structure Trims (max : Nat) (ks kept : List κ) : Prop where
  sublist : List.Sublist kept ks
  length_le : kept.length ≤ max
  fits : ks.length ≤ max → kept = ks

omit [DecidableEq κ] in
theorem trims_drop (max : Nat) (ks : List κ) : Trims max ks (ks.drop (ks.length - max)) := by
  refine ⟨List.drop_sublist _ ks, ?_, ?_⟩
  · rw [List.length_drop]
    omega
  · intro h
    rw [Nat.sub_eq_zero_of_le h, List.drop_zero]

end Capacity
