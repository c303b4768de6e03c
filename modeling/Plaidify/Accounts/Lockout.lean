import Plaidify.Lib.Runs
import Plaidify.Lib.Table
import Plaidify.Lib.Traces
import Plaidify.Principals.Auth

/-!
# Account lockout

`login_user` of `src/src/routers/auth.py` with the columns it locks an account by,
and the requests that give an account another password: `register_user`,
`forgot_password` and `reset_password`.

From the fifth failure in a row on, each failure locks the account for fifteen
minutes, and a locked account has no password verified. The counter and the lock
belong together (`RowOk`), across locks that expire, successes and resets. Times
are in microseconds.
-/

namespace Plaidify.Accounts.Lockout

open Principals (HttpError)

/-! ## Rows and requests -/

/-- A row of `users`. -/
structure User where
  id : Nat
  username : String
  email : String
  hashedPassword : Option String
  failedLoginCount : Nat := 0
  lockedUntil : Option Int := none
deriving Repr, DecidableEq

/-- A row of `password_reset_tokens`. -/
structure PasswordResetToken where
  id : Nat
  userId : Nat
  tokenHash : String
  expiresAt : Int
  used : Bool := false
deriving Repr, DecidableEq

structure Db where
  users : Table User User.id
  resetTokens : Table PasswordResetToken PasswordResetToken.id

/-- A form of `POST /auth/token`, and the clock while it is handled. -/
structure LoginForm where
  username : String
  password : String
  /-- The check of the `Origin` and `Referer` headers, which production makes. -/
  originAllowed : Bool := true
  /-- When the lock is looked at. -/
  checkedAt : Int
  /-- When the password is verified. -/
  verifiedAt : Int
  /-- When the time of a new lock is taken. -/
  failedAt : Int
  checkedFirst : checkedAt ≤ verifiedAt
  failedLast : verifiedAt ≤ failedAt

structure ResetPasswordRequest where
  token : String
  /-- `get_password_hash(body.new_password)`. -/
  newHash : String
  now : Int

/-- What happens to an account. -/
inductive Event where
  /-- A password was verified, and accepted or not. -/
  | verified (userId : Nat) (time : Int) (accepted : Bool)
  | reset (userId : Nat)
deriving Repr, DecidableEq

def Event.userId : Event → Nat
  | .verified userId _ _ | .reset userId => userId

/-- `timedelta(minutes=15)`. -/
def lockoutPeriod : Int := 15 * 60 * 1000000

/-- Failures in a row that lock an account. -/
def maxFailures : Nat := 5

/-! ## The requests -/

/-- `user.locked_until` is set and lies in the future. -/
def User.isLocked (user : User) (now : Int) : Bool :=
  user.lockedUntil.any (now < ·)

/-- The row after a password that was not accepted. -/
def User.failed (user : User) (now : Int) : User :=
  let failedLoginCount := user.failedLoginCount + 1
  { user with
    failedLoginCount
    lockedUntil :=
      if maxFailures ≤ failedLoginCount then some (now + lockoutPeriod) else user.lockedUntil }

/-- The row after one that was. -/
def User.succeeded (user : User) : User :=
  if user.failedLoginCount ≠ 0 then { user with failedLoginCount := 0, lockedUntil := none }
  else user

/-- The row after `reset_password`. -/
def User.reset (user : User) (newHash : String) : User :=
  { user with hashedPassword := some newHash, failedLoginCount := 0, lockedUntil := none }

/-- What a request does: the tables, what happened to accounts, and the answer. -/
structure Handled (α : Type) where
  db : Db
  events : List Event := []
  answer : Except HttpError α

/-- `login_user`; tokens are issued for the user in the answer. -/
def loginUser (verifyPassword : String → Option String → Bool) (db : Db) (form : LoginForm) :
    Handled Nat :=
  if !form.originAllowed then
    { db, answer := .error ⟨403, "Cross-origin request blocked"⟩ }
  else
    match db.users.rows.find? (·.username == form.username) with
    | none => { db, answer := .error ⟨400, "Incorrect username or password"⟩ }
    | some user =>
        if user.isLocked form.checkedAt then
          { db
            answer := .error ⟨423, "Account temporarily locked due to too many failed attempts. " ++
              "Try again later."⟩ }
        else if verifyPassword form.password user.hashedPassword then
          { db := { db with users := db.users.put user.succeeded }
            events := [.verified user.id form.verifiedAt true]
            answer := .ok user.id }
        else
          { db := { db with users := db.users.put (user.failed form.failedAt) }
            events := [.verified user.id form.verifiedAt false]
            answer := .error ⟨400, "Incorrect username or password"⟩ }

/-- `reset_password`. -/
def resetPassword (sha256 : String → String) (db : Db) (body : ResetPasswordRequest) :
    Handled Unit :=
  let invalid : Handled Unit := { db, answer := .error ⟨400, "Invalid or expired reset token"⟩ }
  let resetRecord := db.resetTokens.rows.find? fun r =>
    r.tokenHash == sha256 body.token && !r.used && decide (body.now < r.expiresAt)
  match resetRecord with
  | none => invalid
  | some record =>
      match db.users.get? record.userId with
      | none => invalid
      | some user =>
          { db :=
              { users := db.users.put (user.reset body.newHash)
                resetTokens := db.resetTokens.put { record with used := true } }
            events := [.reset user.id]
            answer := .ok () }

/-- `forgot_password`, which answers the same in any case. -/
def forgotPassword (db : Db) (email tokenHash : String) (newId : Nat) (now : Int) : Option Db :=
  match db.users.rows.find? (·.email == email) with
  | none => some db
  | some user =>
      let invalidated := db.resetTokens.map
        (fun r => if r.userId = user.id ∧ r.used = false then { r with used := true } else r)
        (fun r => by split <;> rfl)
      (invalidated.insert? {
        id := newId, userId := user.id, tokenHash
        expiresAt := now + 60 * 60 * 1000000 }).map ({ db with resetTokens := · })

/-- `register_user`. -/
def registerUser (db : Db) (username email hashedPassword : String) (newId : Nat) : Option Db :=
  if db.users.rows.any fun u => u.username == username || u.email == email then some db
  else
    (db.users.insert? { id := newId, username, email, hashedPassword }).map ({ db with users := · })

/-! ## Runs -/

structure State where
  db : Db
  /-- History variable. -/
  log : List Event

inductive Label where
  | register (username email hashedPassword : String) (newId : Nat)
  | login (form : LoginForm)
  | forgotPassword (email tokenHash : String) (newId : Nat) (now : Int)
  | resetPassword (body : ResetPasswordRequest)

section

variable (verifyPassword : String → Option String → Bool) (sha256 : String → String)

/-- What happens to accounts in a request. -/
def events (db : Db) : Label → List Event
  | .login form => (loginUser verifyPassword db form).events
  | .resetPassword body => (resetPassword sha256 db body).events
  | .register .. | .forgotPassword .. => []

def write (db : Db) : Label → Option Db
  | .register username email hashedPassword newId =>
      registerUser db username email hashedPassword newId
  | .login form => some (loginUser verifyPassword db form).db
  | .forgotPassword email tokenHash newId now => forgotPassword db email tokenHash newId now
  | .resetPassword body => some (resetPassword sha256 db body).db

/-- One request after the other. -/
def step (s : State) (l : Label) : Option State :=
  (write verifyPassword sha256 s.db l).map fun db =>
    { db, log := s.log ++ events verifyPassword sha256 s.db l }

def init : State := ⟨⟨.empty, .empty⟩, []⟩

end

/-! ## The property -/

/-- What happened to one account. -/
def ofUser (userId : Nat) (log : List Event) : List Event :=
  log.filter (·.userId = userId)

/-- The times of the failures since the last success or reset. -/
def failures (log : List Event) : List Int :=
  log.foldl (fun times => fun
    | .verified _ time false => times ++ [time]
    | .verified _ _ true | .reset _ => []) []

/-- A password is verified fifteen minutes after the fifth and every later one of
the failures before it. -/
def Paced (before : List Event) : Event → Prop
  | .verified _ time _ => ∀ time' ∈ (failures before).drop (maxFailures - 1),
      time' + lockoutPeriod ≤ time
  | .reset _ => True

/-- The account is there, without a lock and with a counter of zero. -/
def Cleared (db : Db) (userId : Nat) : Prop :=
  ∃ user, db.users.get? userId = some user ∧ user.failedLoginCount = 0 ∧ user.lockedUntil = none

/-- A password is verified where no lock lies in the future, and a success or a
reset clears the account. -/
def Guarded (db db' : Db) : Event → Prop
  | .verified userId time accepted =>
      (∃ user, db.users.get? userId = some user ∧ ∀ lock ∈ user.lockedUntil, lock ≤ time) ∧
        (accepted = true → Cleared db' userId)
  | .reset userId => Cleared db' userId

/-- What a request does to accounts is guarded; an attempt is accepted only with a
password that was verified; and a reset that is answered gives the account of its
token the new password, and is a reset of this account. -/
structure GuardedStep (verifyPassword : String → Option String → Bool)
    (sha256 : String → String) (s : State) (l : Label) (t : State) : Prop where
  guarded : ∀ e ∈ events verifyPassword sha256 s.db l, Guarded s.db t.db e
  accepted : ∀ form userId, l = .login form →
    (loginUser verifyPassword s.db form).answer = .ok userId →
      .verified userId form.verifiedAt true ∈ events verifyPassword sha256 s.db l
  reset : ∀ body, l = .resetPassword body → (resetPassword sha256 s.db body).answer = .ok () →
    ∃ record ∈ s.db.resetTokens.rows, record.tokenHash = sha256 body.token ∧
      record.used = false ∧ body.now < record.expiresAt ∧
      .reset record.userId ∈ events verifyPassword sha256 s.db l ∧
      (t.db.users.get? record.userId).bind User.hashedPassword = some body.newHash

/-! ## The invariant -/

/-- The counter counts the failures, and from the fifth on the account has been
locked for fifteen minutes from the last of them. -/
structure RowOk (user : User) (log : List Event) : Prop where
  count : user.failedLoginCount = (failures log).length
  unlocked : user.failedLoginCount < maxFailures → user.lockedUntil = none
  locked : maxFailures ≤ user.failedLoginCount → ∃ lock, user.lockedUntil = some lock ∧
    ∀ time ∈ (failures log).drop (maxFailures - 1), time + lockoutPeriod ≤ lock

structure Inv (s : State) : Prop where
  rows : ∀ user ∈ s.db.users.rows, RowOk user (ofUser user.id s.log)
  /-- What happened, happened to accounts there are. -/
  known : ∀ e ∈ s.log, e.userId ∈ s.db.users.rows.map User.id
  paced : ∀ userId, Traces.Each Paced (ofUser userId s.log)

variable {verifyPassword : String → Option String → Bool} {sha256 : String → String}

@[simp] theorem failures_nil : failures [] = [] := rfl

@[simp] theorem failures_failed (log : List Event) (userId : Nat) (time : Int) :
    failures (log ++ [.verified userId time false]) = failures log ++ [time] := by
  simp [failures]

@[simp] theorem failures_accepted (log : List Event) (userId : Nat) (time : Int) :
    failures (log ++ [.verified userId time true]) = [] := by
  simp [failures]

@[simp] theorem failures_reset (log : List Event) (userId : Nat) :
    failures (log ++ [.reset userId]) = [] := by
  simp [failures]

theorem ofUser_concat_self (log : List Event) (e : Event) :
    ofUser e.userId (log ++ [e]) = ofUser e.userId log ++ [e] := by
  simp [ofUser]

theorem ofUser_concat_of_ne (log : List Event) {e : Event} {userId : Nat} (h : e.userId ≠ userId) :
    ofUser userId (log ++ [e]) = ofUser userId log := by
  simp [ofUser, h]

theorem init_inv : Inv init where
  rows := by simp [init]
  known := by simp [init]
  paced := by
    intro userId
    exact Traces.each_nil

/-- An account that is not locked was last locked no later than now. -/
theorem lock_le_of_not_isLocked {user : User} {now : Int} (h : user.isLocked now = false) :
    ∀ lock ∈ user.lockedUntil, lock ≤ now := by
  intro lock hlock
  have hlock : user.lockedUntil = some lock := hlock
  have hnot : ¬ now < lock := by simpa [User.isLocked, hlock] using h
  omega

/-! ### The row of the account -/

/-- Where no lock lies in the future, the time is long enough after the failures. -/
theorem RowOk.paced {user : User} {log : List Event} (h : RowOk user log) {now : Int}
    (hunlocked : ∀ lock ∈ user.lockedUntil, lock ≤ now) :
    ∀ time ∈ (failures log).drop (maxFailures - 1), time + lockoutPeriod ≤ now := by
  intro time htime
  by_cases hcount : maxFailures ≤ user.failedLoginCount
  · rcases h.locked hcount with ⟨lock, hlock, htimes⟩
    have hpassed := hunlocked lock hlock
    have hafter := htimes time htime
    omega
  · -- fewer than five failures: there is no time to compare with
    have hshort : (failures log).length ≤ maxFailures - 1 := by
      have := h.count
      omega
    rw [List.drop_eq_nil_of_le hshort] at htime
    cases htime

theorem RowOk.failed {user : User} {log : List Event} (h : RowOk user log) {form : LoginForm}
    (hunlocked : ∀ lock ∈ user.lockedUntil, lock ≤ form.checkedAt) :
    RowOk (user.failed form.failedAt)
      (log ++ [.verified user.id form.verifiedAt false]) := by
  have hpaced := h.paced hunlocked
  have hchecked := form.checkedFirst
  have hfailed := form.failedLast
  refine ⟨?_, ?_, ?_⟩
  · simp [User.failed, h.count]
  · intro hcount
    have hcount : user.failedLoginCount + 1 < maxFailures := hcount
    have hnot : ¬ maxFailures ≤ user.failedLoginCount + 1 := by omega
    simp only [User.failed, if_neg hnot]
    exact h.unlocked (by omega)
  · intro hcount
    have hcount : maxFailures ≤ user.failedLoginCount + 1 := hcount
    refine ⟨form.failedAt + lockoutPeriod, by simp [User.failed, hcount], ?_⟩
    intro time htime
    rw [failures_failed, List.drop_append_of_le_length] at htime
    · rcases List.mem_append.mp htime with hold | hnew
      · have hafter := hpaced time hold
        have hperiod : 0 ≤ lockoutPeriod := by decide
        omega
      · rw [List.mem_singleton.mp hnew]
        omega
    · have := h.count
      simp only [maxFailures] at hcount ⊢
      omega

theorem RowOk.succeeded {user : User} {log : List Event} (h : RowOk user log) (time : Int) :
    RowOk user.succeeded (log ++ [.verified user.id time true]) ∧
      user.succeeded.failedLoginCount = 0 ∧ user.succeeded.lockedUntil = none := by
  have hclear : user.succeeded.failedLoginCount = 0 ∧ user.succeeded.lockedUntil = none := by
    unfold User.succeeded
    split
    · exact ⟨rfl, rfl⟩
    · rename_i hzero
      have hzero : user.failedLoginCount = 0 := not_not.mp hzero
      exact ⟨hzero, h.unlocked (by simp [hzero, maxFailures])⟩
  refine ⟨⟨by simp [hclear.1], fun _ => hclear.2, ?_⟩, hclear⟩
  intro hcount
  rw [hclear.1] at hcount
  simp [maxFailures] at hcount

theorem reset_rowOk (user : User) (newHash : String) (log : List Event) :
    RowOk (user.reset newHash) (log ++ [.reset user.id]) where
  count := by simp [User.reset]
  unlocked _ := rfl
  locked hcount := by simp [User.reset, maxFailures] at hcount

@[simp] theorem failed_id (user : User) (now : Int) : (user.failed now).id = user.id := rfl

@[simp] theorem succeeded_id (user : User) : user.succeeded.id = user.id := by
  unfold User.succeeded
  split
  · rfl
  · rfl

@[simp] theorem reset_id (user : User) (newHash : String) : (user.reset newHash).id = user.id := rfl

/-! ### The tables -/

/-- One account's row changes, and something happens to this account. -/
theorem Inv.put {s : State} (h : Inv s) {user user' : User} {e : Event}
    {resetTokens : Table PasswordResetToken PasswordResetToken.id}
    (huser : user ∈ s.db.users.rows) (hid : user'.id = user.id) (he : e.userId = user.id)
    (hrow : RowOk user' (ofUser user.id s.log ++ [e]))
    (hpaced : Paced (ofUser user.id s.log) e) :
    Inv ⟨⟨s.db.users.put user', resetTokens⟩, s.log ++ [e]⟩ where
  rows := by
    intro row hrowMem
    rcases Table.mem_put hrowMem with rfl | ⟨hold, hne⟩
    · rw [hid, ← he, ofUser_concat_self, he]
      exact hrow
    · have hother : e.userId ≠ row.id := by
        rw [he, ← hid]
        exact Ne.symm hne
      show RowOk row (ofUser row.id (s.log ++ [e]))
      rw [ofUser_concat_of_ne s.log hother]
      exact h.rows row hold
  known := by
    intro e' he'
    have hkeys : (s.db.users.put user').rows.map User.id = s.db.users.rows.map User.id := by
      rw [Table.put_rows, Table.map_key_overwrite]
    show e'.userId ∈ (s.db.users.put user').rows.map User.id
    rw [hkeys]
    rcases List.mem_append.mp he' with hold | hnew
    · exact h.known e' hold
    · rw [List.mem_singleton.mp hnew, he]
      exact List.mem_map_of_mem huser
  paced := by
    intro userId
    by_cases hsame : e.userId = userId
    · subst hsame
      rw [ofUser_concat_self, Traces.each_concat]
      refine ⟨h.paced _, ?_⟩
      rw [he]
      exact hpaced
    · show Traces.Each Paced (ofUser userId (s.log ++ [e]))
      rw [ofUser_concat_of_ne s.log hsame]
      exact h.paced userId

/-- A new account has no history. -/
theorem Inv.insert {s : State} (h : Inv s) {user : User} {users : Table User User.id}
    (hinsert : s.db.users.insert? user = some users) (hcount : user.failedLoginCount = 0)
    (hlock : user.lockedUntil = none) : Inv { s with db := { s.db with users } } := by
  rcases Table.insert?_eq_some hinsert with ⟨hnew, hrows⟩
  have hnone : ofUser user.id s.log = [] := by
    refine List.filter_eq_nil_iff.mpr fun e he => ?_
    have hne : e.userId ≠ user.id := fun heq => hnew (heq ▸ h.known e he)
    simpa using hne
  refine ⟨?_, ?_, h.paced⟩
  · intro row hrow
    have hrow : row ∈ users.rows := hrow
    rw [hrows] at hrow
    rcases List.mem_append.mp hrow with hold | hlast
    · exact h.rows row hold
    · rw [List.mem_singleton.mp hlast]
      show RowOk user (ofUser user.id s.log)
      rw [hnone]
      exact ⟨hcount, fun _ => hlock, fun hlocked => by simp [hcount, maxFailures] at hlocked⟩
  · intro e he
    show e.userId ∈ users.rows.map User.id
    rw [hrows, List.map_append]
    exact List.mem_append_left _ (h.known e he)

/-- Reset tokens do not matter. -/
theorem Inv.setTokens {s : State} (h : Inv s)
    (resetTokens : Table PasswordResetToken PasswordResetToken.id) :
    Inv { s with db := { s.db with resetTokens } } :=
  ⟨h.rows, h.known, h.paced⟩

/-! ### One request -/

/-- What a login can do: nothing, or verify the password of an account that is
not locked. -/
theorem loginUser_cases (db : Db) (form : LoginForm) :
    ((loginUser verifyPassword db form).db = db ∧ (loginUser verifyPassword db form).events = []) ∨
      ∃ user ∈ db.users.rows, user.isLocked form.checkedAt = false ∧
        ∃ accepted, (loginUser verifyPassword db form).events =
            [.verified user.id form.verifiedAt accepted] ∧
          (loginUser verifyPassword db form).db = { db with
            users := db.users.put (if accepted then user.succeeded
              else user.failed form.failedAt) } := by
  unfold loginUser
  split
  · exact .inl ⟨rfl, rfl⟩
  · split
    · exact .inl ⟨rfl, rfl⟩
    · rename_i user hfind
      split
      · exact .inl ⟨rfl, rfl⟩
      · rename_i hlocked
        have huser := List.mem_of_find?_eq_some hfind
        have hunlocked : user.isLocked form.checkedAt = false := by simpa using hlocked
        split
        · exact .inr ⟨user, huser, hunlocked, true, rfl, rfl⟩
        · exact .inr ⟨user, huser, hunlocked, false, rfl, rfl⟩

theorem verified_of_accepted {db : Db} {form : LoginForm} {userId : Nat}
    (h : (loginUser verifyPassword db form).answer = .ok userId) :
    (loginUser verifyPassword db form).events = [.verified userId form.verifiedAt true] := by
  unfold loginUser at h ⊢
  split at h
  · cases h
  · split at h
    · cases h
    · split at h
      · cases h
      · split at h
        · simp_all
        · cases h

/-- What `reset_password` can do. -/
theorem resetPassword_cases (db : Db) (body : ResetPasswordRequest) :
    ((resetPassword sha256 db body).db = db ∧ (resetPassword sha256 db body).events = []) ∨
      ∃ user ∈ db.users.rows, ∃ resetTokens,
        (resetPassword sha256 db body).events = [.reset user.id] ∧
          (resetPassword sha256 db body).db =
            ⟨db.users.put (user.reset body.newHash), resetTokens⟩ := by
  unfold resetPassword
  dsimp only
  split
  · exact .inl ⟨rfl, rfl⟩
  · split
    · exact .inl ⟨rfl, rfl⟩
    · rename_i user hget
      exact .inr ⟨user, (Table.get?_mem hget).1, _, rfl, rfl⟩

/-- A reset that is answered was made with a token that could be used, and gives
the account of the token the new password. -/
theorem reset_of_answered {db : Db} {body : ResetPasswordRequest}
    (h : (resetPassword sha256 db body).answer = .ok ()) :
    ∃ record ∈ db.resetTokens.rows, record.tokenHash = sha256 body.token ∧ record.used = false ∧
      body.now < record.expiresAt ∧
      (resetPassword sha256 db body).events = [.reset record.userId] ∧
      ((resetPassword sha256 db body).db.users.get? record.userId).bind User.hashedPassword =
        some body.newHash := by
  unfold resetPassword at h ⊢
  dsimp only at h ⊢
  cases hfind : db.resetTokens.rows.find? fun r =>
      r.tokenHash == sha256 body.token && !r.used && decide (body.now < r.expiresAt) with
  | none =>
      rw [hfind] at h
      cases h
  | some record =>
      rw [hfind] at h
      cases hget : db.users.get? record.userId with
      | none =>
          simp only [hget] at h
          cases h
      | some user =>
          have hid : user.id = record.userId := (Table.get?_mem hget).2
          have husable := List.find?_some hfind
          simp only [Bool.and_eq_true, beq_iff_eq, Bool.not_eq_true', decide_eq_true_eq] at husable
          obtain ⟨⟨hhash, hunused⟩, hnow⟩ := husable
          refine ⟨record, List.mem_of_find?_eq_some hfind, hhash, hunused, hnow, ?_, ?_⟩
          · simp only [hget, hid]
          · simp only [hget]
            have hput : (db.users.put (user.reset body.newHash)).get? record.userId =
                some (user.reset body.newHash) := by
              rw [Table.get?_put_eq, reset_id, hid, if_pos rfl, hget]
              rfl
            rw [hput]
            rfl

/-- The account whose row a request writes. -/
theorem cleared_put {users : Table User User.id} {resetTokens : Table PasswordResetToken _}
    {user user' : User} (huser : user ∈ users.rows) (hid : user'.id = user.id)
    (hcount : user'.failedLoginCount = 0) (hlock : user'.lockedUntil = none) :
    Cleared ⟨users.put user', resetTokens⟩ user.id := by
  have hget : users.get? user'.id = some user := by
    rw [hid]
    exact Table.get?_of_mem huser
  refine ⟨user', ?_, hcount, hlock⟩
  rw [← hid]
  exact Table.get?_put hget

/-- A request keeps the invariant, and what happens in it is guarded. -/
theorem step_inv {s t : State} {l : Label} (h : Inv s)
    (hstep : step verifyPassword sha256 s l = some t) :
    Inv t ∧ ∀ e ∈ events verifyPassword sha256 s.db l, Guarded s.db t.db e := by
  rcases Option.map_eq_some_iff.mp hstep with ⟨db, hwrite, rfl⟩
  cases l with
  | register username email hashedPassword newId =>
      refine ⟨?_, by simp [events]⟩
      simp only [events, List.append_nil]
      simp only [write, registerUser] at hwrite
      -- the user is there already, or one is added without a lock
      split at hwrite
      · rw [← Option.some.inj hwrite]
        exact h
      · rcases Option.map_eq_some_iff.mp hwrite with ⟨users, hinsert, rfl⟩
        exact h.insert hinsert rfl rfl
  | forgotPassword email tokenHash newId now =>
      refine ⟨?_, by simp [events]⟩
      simp only [events, List.append_nil]
      simp only [write, forgotPassword] at hwrite
      -- the address is nobody's, or it gets one more reset token
      split at hwrite
      · rw [← Option.some.inj hwrite]
        exact h
      · rcases Option.map_eq_some_iff.mp hwrite with ⟨resetTokens, -, rfl⟩
        exact h.setTokens resetTokens
  | login form =>
      obtain rfl := Option.some.inj hwrite
      simp only [events]
      rcases @loginUser_cases verifyPassword s.db form with
        ⟨hdb, hevents⟩ | ⟨user, huser, hlocked, accepted, hevents, hdb⟩
      · -- refused without a look at the password
        rw [hdb, hevents]
        simp only [List.append_nil]
        exact ⟨h, by simp⟩
      · have hunlocked := lock_le_of_not_isLocked hlocked
        -- the user is not locked when the password is verified
        have hrow := h.rows user huser
        have hverified : ∀ lock ∈ user.lockedUntil, lock ≤ form.verifiedAt := by
          intro lock hlock
          exact le_trans (hunlocked lock hlock) form.checkedFirst
        have hpaced := hrow.paced hverified
        rw [hdb, hevents]
        cases accepted with
        | true =>
            -- the right password clears the counter and the lock
            have hsucceeded := hrow.succeeded form.verifiedAt
            refine ⟨h.put huser (succeeded_id user) rfl hsucceeded.1 hpaced, ?_⟩
            intro e he
            rw [List.mem_singleton.mp he]
            refine ⟨⟨user, Table.get?_of_mem huser, hverified⟩, fun _ => ?_⟩
            exact cleared_put huser (succeeded_id user) hsucceeded.2.1 hsucceeded.2.2
        | false =>
            -- a wrong one counts, and locks at the last
            refine ⟨h.put huser (failed_id user _) rfl (hrow.failed hunlocked) hpaced, ?_⟩
            intro e he
            rw [List.mem_singleton.mp he]
            exact ⟨⟨user, Table.get?_of_mem huser, hverified⟩, nofun⟩
  | resetPassword body =>
      obtain rfl := Option.some.inj hwrite
      simp only [events]
      rcases @resetPassword_cases sha256 s.db body with
        ⟨hdb, hevents⟩ | ⟨user, huser, resetTokens, hevents, hdb⟩
      · -- refused: the token is not there, used, or too old
        rw [hdb, hevents]
        simp only [List.append_nil]
        exact ⟨h, by simp⟩
      · rw [hdb, hevents]
        -- the new password clears the counter and the lock
        refine ⟨h.put huser (reset_id user _) rfl (reset_rowOk user _ _) trivial, ?_⟩
        intro e he
        rw [List.mem_singleton.mp he]
        exact cleared_put huser (reset_id user _) rfl rfl

/-! ## Runs of requests -/

/-- Along every run of requests no password is verified, and no attempt accepted,
while a lock lies in the future; a success or a reset leaves no lock and no
failures counted; and between two of these, the verifications from the fifth
failure on are fifteen minutes apart. -/
theorem lockout_bounds_guessing {tr : List Label} {t : State}
    (h : Runs.exec (step verifyPassword sha256) init tr = some t) :
    (∀ userId, Traces.Each Paced (ofUser userId t.log)) ∧
      Runs.Along (step verifyPassword sha256)
        (fun s l => ∀ u, step verifyPassword sha256 s l = some u →
          GuardedStep verifyPassword sha256 s l u) init tr := by
  constructor
  · exact (Runs.invariant (fun s l u hs hl => (step_inv hs hl).1) init_inv h).paced
  · have hall : Runs.Along (step verifyPassword sha256) (fun _ _ => True) init tr :=
      Runs.along_of_forall (fun _ _ _ => trivial) init
    refine Runs.along_of_invariant (fun s l u hs _ hl => (step_inv hs hl).1) ?_ init_inv hall
    intro s l hs _ u hl
    refine ⟨(step_inv hs hl).2, ?_, ?_⟩
    · rintro form userId rfl haccepted
      simp only [events, verified_of_accepted haccepted, List.mem_singleton]
    · rintro body rfl hanswered
      rcases reset_of_answered hanswered with
        ⟨record, hrecord, hhash, hunused, hnow, hevents, hpassword⟩
      rcases Option.map_eq_some_iff.mp hl with ⟨db, hwrite, rfl⟩
      obtain rfl := Option.some.inj hwrite
      refine ⟨record, hrecord, hhash, hunused, hnow, ?_, hpassword⟩
      simp only [events, hevents, List.mem_singleton]

/-! ## An account that is guessed at -/

/-- An attempt at a time in seconds. -/
def attempt (password : String) (seconds : Int) : Label :=
  .login
    { username := "ada", password
      checkedAt := seconds * 1000000
      verifiedAt := seconds * 1000000 + 300000
      failedAt := seconds * 1000000 + 300001
      checkedFirst := by omega
      failedLast := by omega }

/-- Five failures, an attempt during the lock, and a sixth failure after it; then a
reset, and an attempt with the new password before the second lock is over. -/
def guesses : List Label :=
  .register "ada" "ada@example.org" "right" 1 ::
    (List.range 5).map (fun k => attempt "wrong" k) ++
      [attempt "right" 600, attempt "wrong" 1000,
        .forgotPassword "ada@example.org" "token" 1 (1010 * 1000000),
        .resetPassword ⟨"token", "fresh", 1020 * 1000000⟩, attempt "fresh" 1030]

theorem guesses_bounded :
    ∃ t, Runs.exec (step (fun password hash => hash == some password) id) init guesses = some t ∧
      t.log.drop 5 = [.verified 1 1000300000 false, .reset 1, .verified 1 1030300000 true] ∧
      (∀ userId, Traces.Each Paced (ofUser userId t.log)) ∧
        Runs.Along (step (fun password hash => hash == some password) id)
          (fun s l => ∀ u, step (fun password hash => hash == some password) id s l = some u →
            GuardedStep (fun password hash => hash == some password) id s l u) init guesses := by
  have hlog : (Runs.exec (step (fun password hash => hash == some password) id) init guesses).map
      (fun t => t.log.drop 5) =
        some [.verified 1 1000300000 false, .reset 1, .verified 1 1030300000 true] := by
    decide +kernel
  rcases Option.map_eq_some_iff.mp hlog with ⟨t, ht, hevents⟩
  exact ⟨t, ht, hevents, lockout_bounds_guessing ht⟩

end Plaidify.Accounts.Lockout
