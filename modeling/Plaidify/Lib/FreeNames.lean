import Mathlib.Data.List.Nodup
import Mathlib.Data.List.Perm.Subperm

/-!
# The first free name

Names are tried in turn against a finite list of names that are taken. Among names
that differ there is a free one no later than the length of the list, so the
search needs no other bound.
-/

namespace FreeNames

variable {α : Type} [DecidableEq α]

/-- Try the names from `n` on. -/
def probe (taken : List α) (name : Nat → α) : Nat → Nat → Option α
  | 0, _ => none
  | fuel + 1, n => if name n ∈ taken then probe taken name fuel (n + 1) else some (name n)

/-- `a` is the first name that is not taken. -/
def FirstFree (taken : List α) (name : Nat → α) (a : α) : Prop :=
  ∃ n, name n = a ∧ a ∉ taken ∧ ∀ k, k < n → name k ∈ taken

omit [DecidableEq α] in
theorem firstFree_unique {taken : List α} {name : Nat → α} {a b : α}
    (ha : FirstFree taken name a) (hb : FirstFree taken name b) : a = b := by
  rcases ha with ⟨m, rfl, hfree, hbefore⟩
  rcases hb with ⟨n, rfl, hfree', hbefore'⟩
  rcases Nat.lt_trichotomy m n with hlt | rfl | hlt
  · exact absurd (hbefore' m hlt) hfree
  · rfl
  · exact absurd (hbefore n hlt) hfree'

theorem probe_spec {taken : List α} {name : Nat → α} {fuel n : Nat} {a : α}
    (hbefore : ∀ k, k < n → name k ∈ taken) (h : probe taken name fuel n = some a) :
    FirstFree taken name a := by
  induction fuel generalizing n with
  | zero => cases h
  | succ fuel ih =>
      unfold probe at h
      split at h
      · rename_i htaken
        apply ih _ h
        intro k hk
        rcases Nat.lt_or_eq_of_le (Nat.le_of_lt_succ hk) with hlt | rfl
        · exact hbefore k hlt
        · exact htaken
      · rename_i hfree
        obtain rfl := Option.some.inj h
        exact ⟨n, rfl, hfree, hbefore⟩

/-- The search ends with nothing only where it found every name taken. -/
theorem taken_of_probe_none {taken : List α} {name : Nat → α} {fuel n : Nat}
    (h : probe taken name fuel n = none) : ∀ k, k < fuel → name (n + k) ∈ taken := by
  induction fuel generalizing n with
  | zero =>
      intro k hk
      omega
  | succ fuel ih =>
      unfold probe at h
      split at h
      · rename_i htaken
        intro k hk
        cases k with
        | zero => exact htaken
        | succ k =>
            have hrest := ih h k (by omega)
            rwa [Nat.add_right_comm] at hrest
      · cases h

/-- Of names that differ from the second on, one is free. -/
theorem probe_isSome {taken : List α} {name : Nat → α}
    (hinj : ∀ i j, name (i + 1) = name (j + 1) → i = j) :
    ∃ a, probe taken name (taken.length + 2) 0 = some a := by
  cases h : probe taken name (taken.length + 2) 0 with
  | some a => exact ⟨a, rfl⟩
  | none =>
      have htaken := taken_of_probe_none h
      -- more names than there are taken ones
      have hnodup : ((List.range (taken.length + 1)).map fun i => name (i + 1)).Nodup :=
        List.nodup_range.map fun i j => hinj i j
      have hsubset : (List.range (taken.length + 1)).map (fun i => name (i + 1)) ⊆ taken := by
        intro a ha
        rcases List.mem_map.mp ha with ⟨i, hi, rfl⟩
        have hlt := List.mem_range.mp hi
        have hname := htaken (i + 1) (by omega)
        rwa [Nat.zero_add] at hname
      have hlength := (List.subperm_of_subset hnodup hsubset).length_le
      rw [List.length_map, List.length_range] at hlength
      omega

end FreeNames
