import Plaidify.Lib.Parties
import Plaidify.Lib.Runs

/-!
# Operations that read and later write

Many parties share a store. An operation reads the store, decides from what it
sees whether and how to go on, and writes in a second step, when the store may
have changed; some operations do both in one step. This is what requests do to
a database under READ COMMITTED isolation, and what a client does to a key that
it gets and sets.

A write is *fresh* where the operation, reading again, would write the same.
A run whose writes are all fresh comes to what its operations, one after the
other, come to: `serial_of_fresh`. What is to be shown of such runs is then a
matter of single operations: `serial_invariant`.
-/

namespace Interleaving

universe u

/-- What an operation reads and what it writes. -/
structure Operations (ο δ π : Type u) where
  /-- What the operation goes on with; `none` where it gives up. -/
  read : ο → δ → Option π
  /-- The store after the write; `none` where the store refuses it. -/
  write : ο → π → δ → Option δ

/-- An operation that has read and is to write. -/
structure Pending (ν ο π : Type u) where
  party : ν
  operation : ο
  plan : π
deriving DecidableEq

structure State (ν ο δ π : Type u) where
  store : δ
  underway : List (Pending ν ο π)
  /-- History variable: the operations that have written, in that order. -/
  done : List ο

inductive Label (ν ο : Type u) where
  | read (party : ν) (operation : ο)
  | write (party : ν)
  /-- Read and write in one step. -/
  | atomic (operation : ο)
deriving DecidableEq

variable {ν ο δ π : Type u} [DecidableEq ν]

/-- Before any operation. -/
def start (store : δ) : State ν ο δ π := ⟨store, [], []⟩

namespace State

/-- The operation that a party is to write, and the others. -/
def next (s : State ν ο δ π) (party : ν) : Option (Pending ν ο π × List (Pending ν ο π)) :=
  Parties.pick (fun a => decide (a.party = party)) s.underway

theorem mem_of_next {s : State ν ο δ π} {party : ν} {a : Pending ν ο π}
    {rest : List (Pending ν ο π)} (h : s.next party = some (a, rest)) : a ∈ s.underway :=
  (Parties.pick_perm h).mem_iff.mpr List.mem_cons_self

theorem mem_of_mem_rest {s : State ν ο δ π} {party : ν} {a b : Pending ν ο π}
    {rest : List (Pending ν ο π)} (h : s.next party = some (a, rest)) (hb : b ∈ rest) :
    b ∈ s.underway :=
  (Parties.pick_perm h).mem_iff.mpr (List.mem_cons_of_mem _ hb)

end State

namespace Operations

variable (ops : Operations ο δ π)

/-- The operation at once, as long as it does not give up. -/
def once (o : ο) (store : δ) : Option δ :=
  (ops.read o store).bind fun plan => ops.write o plan store

def step (s : State ν ο δ π) : Label ν ο → Option (State ν ο δ π)
  | .read party operation =>
      some { s with
        underway :=
          match ops.read operation s.store with
          | none => s.underway
          | some plan => ⟨party, operation, plan⟩ :: s.underway }
  | .write party =>
      match s.next party with
      | none => none
      | some (a, rest) =>
          match ops.write a.operation a.plan s.store with
          | none => some { s with underway := rest }
          | some store => some ⟨store, rest, s.done ++ [a.operation]⟩
  | .atomic operation =>
      match ops.once operation s.store with
      | none => some s
      | some store => some { s with store, done := s.done ++ [operation] }

variable {ops}

/-- A read puts its operation under way, unless it gives up. -/
theorem step_read {s t : State ν ο δ π} {party : ν} {o : ο}
    (h : ops.step s (.read party o) = some t) :
    ops.read o s.store = none ∧ t = s ∨
      ∃ plan, ops.read o s.store = some plan ∧
        t = { s with underway := ⟨party, o, plan⟩ :: s.underway } := by
  obtain rfl := Option.some.inj h
  cases hread : ops.read o s.store with
  | none => exact .inl ⟨rfl, rfl⟩
  | some plan => exact .inr ⟨plan, rfl, rfl⟩

/-- A write takes its operation off, whether or not the store refuses it. -/
theorem step_write {s t : State ν ο δ π} {party : ν} (h : ops.step s (.write party) = some t) :
    ∃ a rest, s.next party = some (a, rest) ∧
      (ops.write a.operation a.plan s.store = none ∧ t = { s with underway := rest } ∨
        ∃ store, ops.write a.operation a.plan s.store = some store ∧
          t = ⟨store, rest, s.done ++ [a.operation]⟩) := by
  simp only [step] at h
  split at h
  · cases h
  · rename_i a rest hnext
    split at h
    · rename_i hwrite
      exact ⟨a, rest, hnext, .inl ⟨hwrite, (Option.some.inj h).symm⟩⟩
    · rename_i store hwrite
      exact ⟨a, rest, hnext, .inr ⟨store, hwrite, (Option.some.inj h).symm⟩⟩

/-- An operation in one step leaves the store, or does what it does at once. -/
theorem step_atomic {s t : State ν ο δ π} {o : ο} (h : ops.step s (.atomic o) = some t) :
    ops.once o s.store = none ∧ t = s ∨
      ∃ store, ops.once o s.store = some store ∧
        t = { s with store, done := s.done ++ [o] } := by
  simp only [step] at h
  split at h
  · rename_i honce
    exact .inl ⟨honce, (Option.some.inj h).symm⟩
  · rename_i store honce
    exact .inr ⟨store, honce, (Option.some.inj h).symm⟩

/-- What a step can do: put an operation under way, drop one, or write. -/
theorem step_cases {s t : State ν ο δ π} {l : Label ν ο} (h : ops.step s l = some t) :
    t = s ∨
      (∃ party o plan, l = .read party o ∧ ops.read o s.store = some plan ∧
        t = { s with underway := ⟨party, o, plan⟩ :: s.underway }) ∨
      (∃ party a rest, l = .write party ∧ s.next party = some (a, rest) ∧
        ops.write a.operation a.plan s.store = none ∧ t = { s with underway := rest }) ∨
      (∃ party a rest store, l = .write party ∧ s.next party = some (a, rest) ∧
        ops.write a.operation a.plan s.store = some store ∧
        t = ⟨store, rest, s.done ++ [a.operation]⟩) ∨
      ∃ o store, l = .atomic o ∧ ops.once o s.store = some store ∧
        t = { s with store, done := s.done ++ [o] } := by
  cases l with
  | read party o =>
      rcases step_read h with ⟨-, rfl⟩ | ⟨plan, hread, rfl⟩
      · exact .inl rfl
      · exact .inr (.inl ⟨party, o, plan, rfl, hread, rfl⟩)
  | write party =>
      rcases step_write h with ⟨a, rest, hnext, ⟨hwrite, rfl⟩ | ⟨store, hwrite, rfl⟩⟩
      · exact .inr (.inr (.inl ⟨party, a, rest, rfl, hnext, hwrite, rfl⟩))
      · exact .inr (.inr (.inr (.inl ⟨party, a, rest, store, rfl, hnext, hwrite, rfl⟩)))
  | atomic o =>
      rcases step_atomic h with ⟨-, rfl⟩ | ⟨store, honce, rfl⟩
      · exact .inl rfl
      · exact .inr (.inr (.inr (.inr ⟨o, store, rfl, honce, rfl⟩)))

/-! ## Fresh writes -/

variable (ops)

/-- A write that goes through does what the operation, reading now, would do. -/
def Fresh (s : State ν ο δ π) (l : Label ν ο) : Prop :=
  ∀ party a rest store, l = .write party → s.next party = some (a, rest) →
    ops.write a.operation a.plan s.store = some store → ops.once a.operation s.store = some store

/-- What an operation has read still stands when it writes. -/
def Stands (s : State ν ο δ π) : Label ν ο → Prop
  | .write party => ∀ a ∈ (s.next party).map Prod.fst, ops.read a.operation s.store = some a.plan
  | _ => True

instance decidableStands [DecidableEq π] (s : State ν ο δ π) :
    (l : Label ν ο) → Decidable (ops.Stands s l)
  | .read _ _ => isTrue trivial
  | .atomic _ => isTrue trivial
  | .write party =>
      inferInstanceAs (Decidable (∀ a ∈ (s.next party).map Prod.fst,
        ops.read a.operation s.store = some a.plan))

/-- The operations one after the other. -/
def Serial : δ → List ο → δ → Prop
  | store, [], last => store = last
  | store, o :: os, last => ∃ next, ops.once o store = some next ∧ Serial next os last

variable {ops}

theorem fresh_of_stands {s : State ν ο δ π} {l : Label ν ο} (h : ops.Stands s l) :
    ops.Fresh s l := by
  rintro party a rest store rfl hnext hwrite
  have hread : ops.read a.operation s.store = some a.plan := h a (by rw [hnext]; rfl)
  simp only [once, hread, Option.bind_some, hwrite]

theorem serial_concat {store middle last : δ} {os : List ο} {o : ο}
    (hos : ops.Serial store os middle) (ho : ops.once o middle = some last) :
    ops.Serial store (os ++ [o]) last := by
  induction os generalizing store with
  | nil =>
      obtain rfl : store = middle := hos
      exact ⟨last, ho, rfl⟩
  | cons first os ih =>
      obtain ⟨next, hfirst, hrest⟩ := hos
      exact ⟨next, hfirst, ih hrest⟩

/-- A run of fresh writes refines its operations one after the other. -/
theorem serial_of_fresh {store : δ} {u : State ν ο δ π} {run : List (Label ν ο)}
    (hfresh : Runs.Along ops.step ops.Fresh (start store) run)
    (h : Runs.exec ops.step (start store) run = some u) : ops.Serial store u.done u.store := by
  let I : State ν ο δ π → Prop := fun t => ops.Serial store t.done t.store
  have hstart : I (start store) := rfl
  refine Runs.invariant_along (I := I) ?_ hstart hfresh h
  intro s l t hs hl ht
  rcases step_cases ht with rfl | ⟨party, o, plan, -, -, rfl⟩ | ⟨party, a, rest, -, -, -, rfl⟩ |
    ⟨party, a, rest, next, rfl, hnext, hwrite, rfl⟩ | ⟨o, next, -, honce, rfl⟩
  · exact hs
  · exact hs
  · exact hs
  · exact serial_concat hs (hl party a rest next rfl hnext hwrite)
  · exact serial_concat hs honce

/-- What every operation keeps holds after any number of them. -/
theorem serial_invariant {I : List ο → δ → Prop}
    (hop : ∀ os store o next, I os store → ops.once o store = some next → I (os ++ [o]) next)
    {os : List ο} {store last : δ} (hstart : I [] store) (h : ops.Serial store os last) :
    I os last := by
  have hfrom : ∀ before, I before store → I (before ++ os) last := by
    clear hstart
    induction os generalizing store with
    | nil =>
        intro before hbefore
        obtain rfl : store = last := h
        rw [List.append_nil]
        exact hbefore
    | cons o os ih =>
        intro before hbefore
        obtain ⟨next, ho, hrest⟩ := h
        have hrun := ih hrest (before ++ [o]) (hop before store o next hbefore ho)
        rw [List.append_assoc] at hrun
        exact hrun
  exact hfrom [] hstart

end Operations

end Interleaving
