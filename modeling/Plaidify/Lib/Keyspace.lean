import Mathlib.Logic.Function.Basic

/-!
# Keys that run out

A store whose keys have a deadline, in milliseconds. A key is there up to its
deadline and in that millisecond; after it the key is answered like one that is
missing, although its entry stands until it is overwritten or deleted.
-/

universe u v

/-- A value with its deadline. -/
structure Keyspace.Entry (β : Type v) where
  value : β
  expiresAt : Nat
deriving Repr, DecidableEq

/-- The entries by their keys, also those that have run out. -/
structure Keyspace (κ : Type u) (β : Type v) where
  entry : κ → Option (Keyspace.Entry β)

namespace Keyspace

variable {κ : Type u} {β : Type v}

def empty : Keyspace κ β := ⟨fun _ => none⟩

/-- The value under a key that has not run out. -/
def get (ks : Keyspace κ β) (now : Nat) (k : κ) : Option β :=
  match ks.entry k with
  | none => none
  | some e => if now ≤ e.expiresAt then some e.value else none

/-- The key is past its deadline and has not been deleted. -/
def RunOut (ks : Keyspace κ β) (now : Nat) (k : κ) : Prop :=
  ∃ e, ks.entry k = some e ∧ e.expiresAt < now

instance decidableRunOut (ks : Keyspace κ β) (now : Nat) (k : κ) : Decidable (ks.RunOut now k) :=
  match h : ks.entry k with
  | none => isFalse fun ⟨_, he, _⟩ => by
      rw [h] at he
      cases he
  | some e =>
      if hlt : e.expiresAt < now then isTrue ⟨e, h, hlt⟩
      else isFalse fun ⟨_, he, hlt'⟩ => hlt (by
        rw [h] at he
        obtain rfl := Option.some.inj he
        exact hlt')

/-- The seconds until the deadline, rounded; -2 without a key. -/
def ttl (ks : Keyspace κ β) (now : Nat) (k : κ) : Int :=
  match ks.entry k with
  | none => -2
  | some e => if now ≤ e.expiresAt then ((e.expiresAt - now + 500) / 1000 : Nat) else -2

section

variable [DecidableEq κ]

def set (ks : Keyspace κ β) (k : κ) (value : β) (expiresAt : Nat) : Keyspace κ β :=
  ⟨Function.update ks.entry k (some ⟨value, expiresAt⟩)⟩

def delete (ks : Keyspace κ β) (k : κ) : Keyspace κ β :=
  ⟨Function.update ks.entry k none⟩

end

/-! ## What a read returns -/

@[simp] theorem get_empty (now : Nat) (k : κ) : (empty : Keyspace κ β).get now k = none := rfl

/-- A value is read up to its deadline. -/
theorem get_eq_some {ks : Keyspace κ β} {now : Nat} {k : κ} {value : β} :
    ks.get now k = some value ↔ ∃ e, ks.entry k = some e ∧ now ≤ e.expiresAt ∧ e.value = value := by
  unfold get
  cases ks.entry k with
  | none => simp
  | some e =>
      by_cases hnow : now ≤ e.expiresAt
      · simp [hnow]
      · simp [hnow]

/-- Nothing is read of a key that was never set, was deleted or has run out. -/
theorem get_eq_none {ks : Keyspace κ β} {now : Nat} {k : κ} :
    ks.get now k = none ↔ ks.entry k = none ∨ ks.RunOut now k := by
  unfold get RunOut
  cases ks.entry k with
  | none => simp
  | some e => simp

/-- The clock only takes keys away. -/
theorem get_earlier {ks : Keyspace κ β} {before now : Nat} {k : κ} {value : β}
    (hle : before ≤ now) (h : ks.get now k = some value) : ks.get before k = some value := by
  rcases get_eq_some.mp h with ⟨e, he, hnow, hvalue⟩
  exact get_eq_some.mpr ⟨e, he, by omega, hvalue⟩

section

variable [DecidableEq κ]

@[simp] theorem entry_set_self (ks : Keyspace κ β) (k : κ) (value : β) (expiresAt : Nat) :
    (ks.set k value expiresAt).entry k = some ⟨value, expiresAt⟩ :=
  Function.update_self ..

/-- Other keys stay as they are. -/
theorem entry_set_of_ne (ks : Keyspace κ β) {k k' : κ} (h : k' ≠ k) (value : β) (expiresAt : Nat) :
    (ks.set k value expiresAt).entry k' = ks.entry k' :=
  Function.update_of_ne h ..

@[simp] theorem entry_delete_self (ks : Keyspace κ β) (k : κ) : (ks.delete k).entry k = none :=
  Function.update_self ..

/-- A deletion leaves other keys. -/
theorem entry_delete_of_ne (ks : Keyspace κ β) {k k' : κ} (h : k' ≠ k) :
    (ks.delete k).entry k' = ks.entry k' :=
  Function.update_of_ne h ..

theorem get_set_of_ne (ks : Keyspace κ β) (now : Nat) {k k' : κ} (h : k' ≠ k) (value : β)
    (expiresAt : Nat) : (ks.set k value expiresAt).get now k' = ks.get now k' := by
  simp only [get, entry_set_of_ne ks h]

@[simp] theorem get_delete_self (ks : Keyspace κ β) (now : Nat) (k : κ) :
    (ks.delete k).get now k = none := by
  simp only [get, entry_delete_self]

theorem get_delete_of_ne (ks : Keyspace κ β) (now : Nat) {k k' : κ} (h : k' ≠ k) :
    (ks.delete k).get now k' = ks.get now k' := by
  simp only [get, entry_delete_of_ne ks h]

/-- What is found after a deletion was there before. -/
theorem get_of_get_delete {ks : Keyspace κ β} {now : Nat} {k k' : κ} {value : β}
    (h : (ks.delete k).get now k' = some value) : k' ≠ k ∧ ks.get now k' = some value := by
  by_cases hk : k' = k
  · subst hk
    rw [get_delete_self] at h
    cases h
  · rw [get_delete_of_ne ks now hk] at h
    exact ⟨hk, h⟩

/-- What is found after a write was written or was there before. -/
theorem get_of_get_set {ks : Keyspace κ β} {now expiresAt : Nat} {k k' : κ} {value found : β}
    (h : (ks.set k value expiresAt).get now k' = some found) :
    (k' = k ∧ now ≤ expiresAt ∧ value = found) ∨ (k' ≠ k ∧ ks.get now k' = some found) := by
  by_cases hk : k' = k
  · subst hk
    rcases get_eq_some.mp h with ⟨e, he, hnow, hvalue⟩
    rw [entry_set_self] at he
    obtain rfl := Option.some.inj he
    exact .inl ⟨rfl, hnow, hvalue⟩
  · rw [get_set_of_ne ks now hk] at h
    exact .inr ⟨hk, h⟩

end

/-! ## A store without deadlines beside it -/

section

variable {γ : Type*} {R : β → γ → Prop} {ks : Keyspace κ β} {now : Nat} {find : κ → Option γ}

/-- A key that has run out, under which the store without deadlines still has
something. -/
def Lingers (ks : Keyspace κ β) (now : Nat) (find : κ → Option γ) (k : κ) : Prop :=
  ks.RunOut now k ∧ find k ≠ none

instance decidableLingers (ks : Keyspace κ β) (now : Nat) (find : κ → Option γ) (k : κ) :
    Decidable (ks.Lingers now find k) :=
  inferInstanceAs (Decidable (_ ∧ ¬ _))

/-- A store without deadlines has, under every key that has not run out, a value
that corresponds; what else it has are keys that have run out. -/
structure Mirrors (R : β → γ → Prop) (ks : Keyspace κ β) (now : Nat) (find : κ → Option γ) :
    Prop where
  alive : ∀ k value, ks.get now k = some value → ∃ other, find k = some other ∧ R value other
  known : ∀ k other, find k = some other → ks.entry k ≠ none

namespace Mirrors

theorem empty : Mirrors R (empty : Keyspace κ β) now fun _ => none where
  alive := by
    intro k value h
    cases h
  known := by
    intro k other h
    cases h

/-- A key that does not linger is in both stores or in neither. -/
theorem found (h : Mirrors R ks now find) {k : κ} (hgone : ¬ ks.Lingers now find k) :
    (ks.get now k = none ∧ find k = none) ∨
      ∃ value other, ks.get now k = some value ∧ find k = some other ∧ R value other := by
  cases hget : ks.get now k with
  | some value =>
      rcases h.alive k value hget with ⟨other, hfind, hR⟩
      exact .inr ⟨value, other, rfl, hfind, hR⟩
  | none =>
      refine .inl ⟨rfl, ?_⟩
      cases hfind : find k with
      | none => rfl
      | some other =>
          rcases get_eq_none.mp hget with hnone | hout
          · exact absurd hnone (h.known k other hfind)
          · refine absurd ⟨hout, ?_⟩ hgone
            rw [hfind]
            exact Option.some_ne_none other

/-- Time passes. -/
theorem wait {R' : β → γ → Prop} (h : Mirrors R ks now find) (hR : ∀ value other, R value other →
    R' value other) {later : Nat} (hle : now ≤ later) : Mirrors R' ks later find where
  alive := by
    intro k value hget
    rcases h.alive k value (get_earlier hle hget) with ⟨other, hfind, hother⟩
    exact ⟨other, hfind, hR value other hother⟩
  known := h.known

/-- The other store drops keys that have run out. -/
theorem evict {find' : κ → Option γ} (h : Mirrors R ks now find)
    (hsub : ∀ k other, find' k = some other → find k = some other)
    (hkept : ∀ k other, find k = some other → ks.get now k ≠ none → find' k = some other) :
    Mirrors R ks now find' where
  alive := by
    intro k value hget
    rcases h.alive k value hget with ⟨other, hfind, hR⟩
    refine ⟨other, hkept k other hfind ?_, hR⟩
    rw [hget]
    exact Option.some_ne_none value
  known := by
    intro k other hfind
    exact h.known k other (hsub k other hfind)

/-- The other store has another value under a key that stays as it is. -/
theorem replace {find' : κ → Option γ} (h : Mirrors R ks now find) {k : κ}
    {other : γ} (hR : ∀ value, ks.get now k = some value → R value other) (hk : find k ≠ none)
    (hself : find' k = some other)
    (hfind : ∀ k', k' ≠ k → find' k' = find k') : Mirrors R ks now find' where
  alive := by
    intro k' value hget
    by_cases heq : k' = k
    · subst heq
      exact ⟨other, hself, hR value hget⟩
    · rcases h.alive k' value hget with ⟨other', hother', hR'⟩
      exact ⟨other', by rw [hfind k' heq, hother'], hR'⟩
  known := by
    intro k' other' hother'
    by_cases heq : k' = k
    · subst heq
      rcases Option.ne_none_iff_exists'.mp hk with ⟨old, hold⟩
      exact h.known k' old hold
    · rw [hfind k' heq] at hother'
      exact h.known k' other' hother'

variable [DecidableEq κ]

theorem set {find' : κ → Option γ} (h : Mirrors R ks now find) {k : κ} {value : β} {other : γ}
    (hR : R value other) (expiresAt : Nat)
    (hfind : ∀ k', find' k' = if k' = k then some other else find k') :
    Mirrors R (ks.set k value expiresAt) now find' where
  alive := by
    intro k' value' hget
    rcases get_of_get_set hget with ⟨rfl, -, rfl⟩ | ⟨hne, hold⟩
    · exact ⟨other, by rw [hfind, if_pos rfl], hR⟩
    · rcases h.alive k' value' hold with ⟨other', hother', hR'⟩
      exact ⟨other', by rw [hfind, if_neg hne, hother'], hR'⟩
  known := by
    intro k' other' hother'
    by_cases hk : k' = k
    · subst hk
      rw [entry_set_self]
      exact Option.some_ne_none _
    · rw [hfind, if_neg hk] at hother'
      rw [entry_set_of_ne ks hk]
      exact h.known k' other' hother'

theorem delete {find' : κ → Option γ} (h : Mirrors R ks now find) {k : κ}
    (hfind : ∀ k', find' k' = if k' = k then none else find k') :
    Mirrors R (ks.delete k) now find' where
  alive := by
    intro k' value hget
    rcases get_of_get_delete hget with ⟨hne, hold⟩
    rcases h.alive k' value hold with ⟨other, hother, hR⟩
    exact ⟨other, by rw [hfind, if_neg hne, hother], hR⟩
  known := by
    intro k' other hother
    by_cases hk : k' = k
    · rw [hfind, if_pos hk] at hother
      cases hother
    · rw [hfind, if_neg hk] at hother
      rw [entry_delete_of_ne ks hk]
      exact h.known k' other hother

end Mirrors

end

end Keyspace
