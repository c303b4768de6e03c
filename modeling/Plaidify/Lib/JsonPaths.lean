import Plaidify.Lib.Json

/-!
# Keys and paths of JSON values

The keys that occur in a value at any depth, the value at a path, and the
removal of members by their keys. A removal leaves exactly the paths all of
whose keys it lets stand.
-/

namespace Json

/-! ## Definitions -/

/-- One step of a path: into a member of an object, or into an item of a list. -/
inductive PathStep where
  | key (k : String)
  | item (i : Nat)
deriving Repr, DecidableEq

/-- The value at a path. -/
def at? : Json → List PathStep → Option Json
  | v, [] => some v
  | .obj kvs, .key k :: path => (kvs.lookup k).bind fun v => at? v path
  | .arr xs, .item i :: path => xs[i]?.bind fun v => at? v path
  | _, _ :: _ => none

mutual

/-- The keys that occur in a value, at any depth. -/
def keys : Json → List String
  | .obj kvs => keysMembers kvs
  | .arr xs => keysItems xs
  | _ => []

def keysItems : List Json → List String
  | [] => []
  | x :: xs => keys x ++ keysItems xs

def keysMembers : List (String × Json) → List String
  | [] => []
  | (k, v) :: kvs => k :: (keys v ++ keysMembers kvs)

end

section

variable (p : String → Bool)

mutual

/-- Remove the members whose keys meet `p`, at every depth. -/
def prune : Json → Json
  | .obj kvs => .obj (pruneMembers kvs)
  | .arr xs => .arr (pruneItems xs)
  | v => v

def pruneItems : List Json → List Json
  | [] => []
  | x :: xs => prune x :: pruneItems xs

def pruneMembers : List (String × Json) → List (String × Json)
  | [] => []
  | (k, v) :: kvs => if p k then pruneMembers kvs else (k, prune v) :: pruneMembers kvs

end

end

variable {p : String → Bool}

/-! ## What a removal leaves -/

mutual

/-- No key that is to be removed is left, at any depth. -/
theorem keys_prune : ∀ (v : Json), ∀ k ∈ keys (prune p v), p k = false
  | .obj kvs => by
      intro k hk
      exact keysMembers_prune kvs k hk
  | .arr xs => by
      intro k hk
      exact keysItems_prune xs k hk
  | .null | .bool _ | .int _ | .float _ | .str _ => by
      intro k hk
      cases hk

theorem keysItems_prune : ∀ (xs : List Json), ∀ k ∈ keysItems (pruneItems p xs), p k = false
  | [] => by
      intro k hk
      cases hk
  | x :: xs => by
      intro k hk
      rcases List.mem_append.mp hk with hk | hk
      · exact keys_prune x k hk
      · exact keysItems_prune xs k hk

theorem keysMembers_prune : ∀ (kvs : List (String × Json)),
    ∀ k ∈ keysMembers (pruneMembers p kvs), p k = false
  | [] => by
      intro k hk
      cases hk
  | (key, v) :: kvs => by
      intro k hk
      rw [pruneMembers] at hk
      by_cases hp : p key = true
      · rw [if_pos hp] at hk
        exact keysMembers_prune kvs k hk
      · rw [if_neg hp, keysMembers] at hk
        rcases List.mem_cons.mp hk with rfl | hk
        · simpa using hp
        · rcases List.mem_append.mp hk with hk | hk
          · exact keys_prune v k hk
          · exact keysMembers_prune kvs k hk

end

mutual

/-- A second removal removes nothing. -/
theorem prune_prune : ∀ (v : Json), prune p (prune p v) = prune p v
  | .obj kvs => by rw [prune, prune, pruneMembers_pruneMembers]
  | .arr xs => by rw [prune, prune, pruneItems_pruneItems]
  | .null | .bool _ | .int _ | .float _ | .str _ => rfl

theorem pruneItems_pruneItems : ∀ (xs : List Json),
    pruneItems p (pruneItems p xs) = pruneItems p xs
  | [] => rfl
  | x :: xs => by rw [pruneItems, pruneItems, prune_prune x, pruneItems_pruneItems xs]

theorem pruneMembers_pruneMembers : ∀ (kvs : List (String × Json)),
    pruneMembers p (pruneMembers p kvs) = pruneMembers p kvs
  | [] => rfl
  | (k, v) :: kvs => by
      by_cases hp : p k = true
      · rw [pruneMembers, if_pos hp, pruneMembers_pruneMembers kvs]
      · rw [pruneMembers, if_neg hp, pruneMembers, if_neg hp, prune_prune v,
          pruneMembers_pruneMembers kvs]

end

/-- Under a key that is let stand there is what was there, less what is removed
from it. -/
theorem lookup_pruneMembers {k : String} (hk : p k = false) (kvs : List (String × Json)) :
    (pruneMembers p kvs).lookup k = (kvs.lookup k).map (prune p) := by
  induction kvs with
  | nil => rfl
  | cons m kvs ih =>
      rcases m with ⟨key, v⟩
      rw [pruneMembers]
      by_cases hkey : k = key
      · subst hkey
        simp [hk]
      · have hne : (k == key) = false := by simpa using hkey
        by_cases hp : p key = true
        · rw [if_pos hp, ih, List.lookup_cons, hne]
        · rw [if_neg hp, List.lookup_cons, List.lookup_cons, hne, ih]

theorem getElem?_pruneItems (xs : List Json) (i : Nat) :
    (pruneItems p xs)[i]? = xs[i]?.map (prune p) := by
  induction xs generalizing i with
  | nil => rfl
  | cons x xs ih =>
      cases i with
      | zero => rfl
      | succ i => exact ih i

/-- At a path all of whose keys are let stand there is what was there, less what is
removed from it; and nothing where nothing was. -/
theorem at?_prune {path : List PathStep} (hpath : ∀ k, PathStep.key k ∈ path → p k = false)
    (v : Json) : (prune p v).at? path = (v.at? path).map (prune p) := by
  induction path generalizing v with
  | nil =>
      rw [at?, at?]
      rfl
  | cons step path ih =>
      have hrest : ∀ k, PathStep.key k ∈ path → p k = false :=
        fun k hk => hpath k (List.mem_cons_of_mem _ hk)
      cases step with
      | key k =>
          have hk := hpath k List.mem_cons_self
          cases v with
          | obj kvs =>
              rw [prune, at?, at?, lookup_pruneMembers hk]
              cases kvs.lookup k with
              | none => rfl
              | some v => exact ih hrest v
          | null | bool | int | float | str | arr => rfl
      | item i =>
          cases v with
          | arr xs =>
              rw [prune, at?, at?, getElem?_pruneItems]
              cases xs[i]? with
              | none => rfl
              | some v => exact ih hrest v
          | null | bool | int | float | str | obj => rfl

end Json
