import Mathlib.Data.List.Sort
import Mathlib.Data.String.Basic
import Plaidify.Lib.Json

/-!
# JSON with sorted keys

`json.dumps(v, sort_keys=True)`: the members of every object are written in the
order of their keys. Two values that differ in the order of members only are
the same Python value; sorting picks one of them, and reading back what was
written gives that one (`loads_dumpsSorted`).
-/

namespace Json

/-- The order in which `sort_keys` writes members. -/
def KeyLe (m n : String × Json) : Prop :=
  m.1 ≤ n.1

instance : DecidableRel KeyLe :=
  fun m n => inferInstanceAs (Decidable (m.1 ≤ n.1))

instance : IsTrans (String × Json) KeyLe :=
  ⟨fun _ _ _ h h' => le_trans (α := String) h h'⟩

instance : Std.Total KeyLe :=
  ⟨fun m n => le_total m.1 n.1⟩

mutual

/-- The value with the members of every object in the order of their keys. -/
def sortKeys : Json → Json
  | .arr xs => .arr (sortElems xs)
  | .obj kvs => .obj ((sortMembers kvs).insertionSort KeyLe)
  | v => v

def sortElems : List Json → List Json
  | [] => []
  | x :: xs => sortKeys x :: sortElems xs

/-- The members, each with its value sorted, in the order they had. -/
def sortMembers : List (String × Json) → List (String × Json)
  | [] => []
  | (k, v) :: kvs => (k, sortKeys v) :: sortMembers kvs

end

/-- `json.dumps(v, sort_keys=True)`. -/
def dumpsSorted (v : Json) : String :=
  dumps (sortKeys v)

/-- Equal up to the order of the members of objects, as Python compares
dictionaries. -/
def Same (v w : Json) : Prop :=
  sortKeys v = sortKeys w

theorem Same.refl (v : Json) : Same v v :=
  rfl

/-! ## Sorting -/

theorem sortMembers_eq_map (kvs : List (String × Json)) :
    sortMembers kvs = kvs.map fun m => (m.1, sortKeys m.2) := by
  induction kvs with
  | nil => rfl
  | cons m kvs ih =>
      obtain ⟨k, v⟩ := m
      rw [sortMembers, ih, List.map_cons]

/-- Sorting the values of the members leaves their order alone. -/
theorem sortMembers_insertionSort (kvs : List (String × Json)) :
    sortMembers (kvs.insertionSort KeyLe) = (sortMembers kvs).insertionSort KeyLe := by
  rw [sortMembers_eq_map, sortMembers_eq_map]
  exact List.map_insertionSort KeyLe KeyLe _ kvs fun _ _ _ _ => Iff.rfl

mutual

theorem sortKeys_sortKeys : ∀ v : Json, sortKeys (sortKeys v) = sortKeys v
  | .arr xs => by
      simp only [sortKeys]
      rw [sortElems_sortElems xs]
  | .obj kvs => by
      simp only [sortKeys]
      rw [sortMembers_insertionSort, sortMembers_sortMembers kvs,
        (List.pairwise_insertionSort KeyLe _).insertionSort_eq]
  | .null | .bool _ | .int _ | .float _ | .str _ => by simp only [sortKeys]

theorem sortElems_sortElems : ∀ xs : List Json, sortElems (sortElems xs) = sortElems xs
  | [] => rfl
  | x :: xs => by
      simp only [sortElems]
      rw [sortKeys_sortKeys x, sortElems_sortElems xs]

theorem sortMembers_sortMembers : ∀ kvs : List (String × Json),
    sortMembers (sortMembers kvs) = sortMembers kvs
  | [] => rfl
  | (k, v) :: kvs => by
      simp only [sortMembers]
      rw [sortKeys_sortKeys v, sortMembers_sortMembers kvs]

end

theorem sortKeys_eq_str {v : Json} {text : String} : sortKeys v = .str text ↔ v = .str text := by
  cases v <;> simp [sortKeys]

theorem exists_obj_of_sortKeys {v : Json} {kvs : List (String × Json)} (h : sortKeys v = .obj kvs) :
    ∃ kvs', v = .obj kvs' := by
  cases v with
  | obj kvs' => exact ⟨kvs', rfl⟩
  | null | bool _ | int _ | float _ | str _ | arr _ => simp [sortKeys] at h

theorem dumpsSorted_obj_ne_empty (kvs : List (String × Json)) : dumpsSorted (.obj kvs) ≠ "" := by
  intro h
  have hlength := congrArg (fun s => s.toList.length) h
  simp [dumpsSorted, dumps, sortKeys, dumpsChars] at hlength

theorem same_sortKeys (v : Json) : Same v (sortKeys v) :=
  (sortKeys_sortKeys v).symm

theorem lookup_eq_some_iff_mem {kvs : List (String × Json)} (h : (kvs.map Prod.fst).Nodup)
    {k : String} {v : Json} : kvs.lookup k = some v ↔ (k, v) ∈ kvs := by
  induction kvs with
  | nil => simp
  | cons m kvs ih =>
      obtain ⟨k', v'⟩ := m
      rw [List.map_cons, List.nodup_cons] at h
      rw [List.lookup_cons, List.mem_cons, Prod.mk.injEq]
      by_cases hk : k = k'
      · subst hk
        have hnot : (k, v) ∉ kvs := fun hmem => h.1 (List.mem_map.mpr ⟨_, hmem, rfl⟩)
        simp [hnot, eq_comm]
      · rw [beq_eq_false_iff_ne.mpr hk]
        simp [hk, ih h.2]

/-- The order of the members does not matter to a look-up. -/
theorem lookup_perm {kvs kvs' : List (String × Json)} (hperm : kvs.Perm kvs')
    (h : (kvs.map Prod.fst).Nodup) (k : String) : kvs.lookup k = kvs'.lookup k := by
  have h' : (kvs'.map Prod.fst).Nodup := (hperm.map Prod.fst).nodup_iff.mp h
  refine Option.ext fun v => ?_
  rw [lookup_eq_some_iff_mem h, lookup_eq_some_iff_mem h', hperm.mem_iff]

/-- The same dictionaries have the same keys, with the same values. -/
theorem map_fst_sortMembers (kvs : List (String × Json)) :
    (sortMembers kvs).map Prod.fst = kvs.map Prod.fst := by
  rw [sortMembers_eq_map, List.map_map]
  rfl

theorem Same.perm {kvs kvs' : List (String × Json)} (h : Same (.obj kvs) (.obj kvs')) :
    (sortMembers kvs).Perm (sortMembers kvs') := by
  simp only [Same, sortKeys, obj.injEq] at h
  exact (List.perm_insertionSort KeyLe _).symm.trans (h ▸ List.perm_insertionSort KeyLe _)

/-- Objects that are the same have the same keys. -/
theorem Same.keys {kvs kvs' : List (String × Json)} (h : Same (.obj kvs) (.obj kvs')) :
    (kvs.map Prod.fst).Perm (kvs'.map Prod.fst) := by
  rw [← map_fst_sortMembers kvs, ← map_fst_sortMembers kvs']
  exact h.perm.map Prod.fst

theorem Same.lookup {kvs kvs' : List (String × Json)} (h : Same (.obj kvs) (.obj kvs'))
    (hkvs : (kvs.map Prod.fst).Nodup) (k : String) :
    (kvs.lookup k).map sortKeys = (kvs'.lookup k).map sortKeys := by
  have hmap : ∀ kvs : List (String × Json),
      (sortMembers kvs).lookup k = (kvs.lookup k).map sortKeys := by
    intro kvs
    induction kvs with
    | nil => rfl
    | cons m kvs ih =>
        obtain ⟨k', v⟩ := m
        rw [sortMembers, List.lookup_cons, List.lookup_cons, ih]
        cases k == k' <;> rfl
  rw [← hmap, ← hmap]
  exact lookup_perm h.perm ((map_fst_sortMembers kvs).symm ▸ hkvs) k

/-! ## The round trip -/

mutual

theorem Writable.sortKeys {floatRepr : String → String} : ∀ {v : Json},
    Writable floatRepr v → Writable floatRepr (sortKeys v)
  | .arr xs, h => by
      simp only [Writable] at h
      simp only [Json.sortKeys, Writable]
      exact WritableElems.sortElems h
  | .obj kvs, h => by
      simp only [Writable] at h
      simp only [Json.sortKeys, Writable]
      have hperm := List.perm_insertionSort KeyLe (sortMembers kvs)
      have hkeys : (sortMembers kvs).map Prod.fst = kvs.map Prod.fst := by
        rw [sortMembers_eq_map, List.map_map]
        rfl
      refine ⟨((hperm.map Prod.fst).nodup_iff).mpr (hkeys ▸ h.1), ?_⟩
      rw [writableMembers_iff]
      intro m hm
      exact writableMembers_iff.mp (WritableMembers.sortMembers h.2) m (hperm.mem_iff.mp hm)
  | .null, h | .bool _, h | .int _, h | .float _, h | .str _, h => by
      simpa only [Json.sortKeys] using h

theorem WritableElems.sortElems {floatRepr : String → String} : ∀ {xs : List Json},
    WritableElems floatRepr xs → WritableElems floatRepr (sortElems xs)
  | [], _ => trivial
  | _ :: _, h => by
      simp only [WritableElems] at h
      simp only [Json.sortElems, WritableElems]
      exact ⟨h.1.sortKeys, h.2.sortElems⟩

theorem WritableMembers.sortMembers {floatRepr : String → String} :
    ∀ {kvs : List (String × Json)},
    WritableMembers floatRepr kvs → WritableMembers floatRepr (sortMembers kvs)
  | [], _ => trivial
  | (_, _) :: _, h => by
      simp only [WritableMembers] at h
      simp only [Json.sortMembers, WritableMembers]
      exact ⟨h.1.sortKeys, h.2.sortMembers⟩

end

/-- Reading back gives the written value with its keys in order. -/
theorem loads_dumpsSorted {floatRepr : String → String} {v : Json} (hv : Writable floatRepr v) :
    loads floatRepr (dumpsSorted v) = some (sortKeys v) :=
  loads_dumps hv.sortKeys

end Json
