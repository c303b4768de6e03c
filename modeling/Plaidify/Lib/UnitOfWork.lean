import Mathlib.Data.List.Basic

/-!
# Sessions of an object-relational mapper

A session has loaded objects, which a program changes one assignment at a time,
and the database changes when the session commits. A session whose transaction
has failed has dropped its changes and takes no commit until it is rolled back.

What a session holds, any later commit can write: `database_kept_iff`.
-/

universe u

/-- A session over databases of type `δ`. -/
structure UnitOfWork (δ : Type u) where
  /-- What is committed. -/
  database : δ
  /-- The database as the objects of the session have it; `none` after a failed
  transaction, until the session is rolled back or closed. -/
  work : Option δ

namespace UnitOfWork

variable {δ : Type u}

/-- A session without changes. -/
def clean (database : δ) : UnitOfWork δ := ⟨database, some database⟩

/-- What becomes of a session that a function has left. -/
inductive Op where
  | flush (succeeds : Bool)
  | commit (succeeds : Bool)
  | rollback
  | close
deriving Repr, DecidableEq

/-- Assignments to objects of the session. -/
def assign (s : UnitOfWork δ) (f : δ → δ) : UnitOfWork δ := { s with work := s.work.map f }

/-- `Session.commit`; one that fails drops the changes. -/
def commit (s : UnitOfWork δ) (succeeds : Bool) : UnitOfWork δ :=
  match s.work with
  | none => s
  | some work => if succeeds then clean work else { s with work := none }

def apply (s : UnitOfWork δ) : Op → UnitOfWork δ
  -- a successful flush sends the changes into the transaction, where nobody else sees them
  | .flush succeeds => if succeeds then s else { s with work := none }
  | .commit succeeds => s.commit succeeds
  | .rollback | .close => clean s.database

def run (s : UnitOfWork δ) (ops : List Op) : UnitOfWork δ := ops.foldl apply s

/-- No change is left that a commit could write. -/
def Settled (s : UnitOfWork δ) : Prop := ∀ work, s.work = some work → work = s.database

theorem clean_settled (database : δ) : (clean database).Settled := by
  intro work h
  exact (Option.some.inj h).symm

theorem failed_settled {s : UnitOfWork δ} (h : s.work = none) : s.Settled := by
  intro work hwork
  rw [h] at hwork
  cases hwork

theorem apply_settled {s : UnitOfWork δ} (h : s.Settled) (op : Op) :
    (s.apply op).Settled ∧ (s.apply op).database = s.database := by
  cases op with
  | flush succeeds =>
      cases succeeds with
      | true => exact ⟨h, rfl⟩
      | false => exact ⟨failed_settled rfl, rfl⟩
  | commit succeeds =>
      show (s.commit succeeds).Settled ∧ (s.commit succeeds).database = s.database
      unfold commit
      cases hwork : s.work with
      | none => exact ⟨h, rfl⟩
      | some work =>
          cases succeeds with
          | true => exact ⟨clean_settled work, h work hwork⟩
          | false => exact ⟨failed_settled rfl, rfl⟩
  | rollback | close => exact ⟨clean_settled s.database, rfl⟩

theorem run_settled {s : UnitOfWork δ} (h : s.Settled) (ops : List Op) :
    (s.run ops).Settled ∧ (s.run ops).database = s.database := by
  induction ops generalizing s with
  | nil => exact ⟨h, rfl⟩
  | cons op ops ih =>
      rcases apply_settled h op with ⟨hsettled, hdatabase⟩
      rcases ih hsettled with ⟨hrun, hrest⟩
      exact ⟨hrun, hrest.trans hdatabase⟩

/-- The database stays as it is, whatever is done with the session, exactly if
the session holds no change. -/
theorem database_kept_iff {s : UnitOfWork δ} :
    (∀ ops, (s.run ops).database = s.database) ↔ s.Settled := by
  constructor
  · intro h work hwork
    have hcommit := h [.commit true]
    simpa [run, apply, commit, hwork, clean] using hcommit
  · intro h ops
    exact (run_settled h ops).2

/-- Once a session is closed nothing of it is left. -/
theorem run_close (s : UnitOfWork δ) (ops : List Op) :
    (s.run (.close :: ops)).database = s.database :=
  (run_settled (clean_settled s.database) ops).2

end UnitOfWork
