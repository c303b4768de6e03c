import Plaidify.AccessJobs.Jobs
import Plaidify.Lib.Runs

/-!
# MFA sessions

`MFAManager` of `src/src/core/mfa_manager.py`: any number of managers, each in a
process of its own, over one Redis store. A manager keeps the session objects it
has seen in `_sessions` next to the shared payload, and the engine waits on one
of these objects.

The model follows one session id; sessions share nothing but the managers. A
process is interrupted at its Redis commands and while it waits, so the steps
are the stretches between two of them: a `GET` and the `SET` or `DELETE` that
follows it are steps of their own, and so is what `wait_for_code` does with the
answer to its `GET`. Times are in milliseconds, life times in seconds.
-/

namespace Plaidify.Mfa

open AccessJobs (Dict)

/-- `DEFAULT_MFA_TTL`. -/
def defaultMfaTtl : Nat := 300

theorem defaultMfaTtl_pos : 0 < defaultMfaTtl := by decide

/-- `MFASession`, and the payload that is stored of it. -/
structure MfaSession where
  site : String
  mfaType : String
  metadata : Dict
  createdAt : Nat
  ttl : Nat
  ttl_pos : 0 < ttl
  code : Option String

/-- `MFASession.expired` and `_payload_expired`. -/
def MfaSession.expired (now : Nat) (session : MfaSession) : Bool :=
  decide (session.createdAt + 1000 * session.ttl < now)

/-- The truth value of `self.code`. -/
def MfaSession.hasCode (session : MfaSession) : Bool :=
  session.code.any fun code => code != ""

/-- The arguments of `create_session`. -/
structure Challenge where
  site : String
  mfaType : String
  metadata : Dict
  ttl : Nat
  ttl_pos : 0 < ttl

/-- What `create_session` makes of a session that exists. -/
def MfaSession.resume (session : MfaSession) (challenge : Challenge) : MfaSession :=
  { session with
    site := challenge.site
    mfaType := challenge.mfaType
    metadata := challenge.metadata.foldl Json.dictInsert session.metadata }

/-- The session that `create_session` makes when there is none. -/
def Challenge.session (challenge : Challenge) (now : Nat) : MfaSession where
  site := challenge.site
  mfaType := challenge.mfaType
  metadata := challenge.metadata
  createdAt := now
  ttl := challenge.ttl
  ttl_pos := challenge.ttl_pos
  code := none

/-- `_remaining_ttl`. -/
def remainingTtl (now : Nat) (payload : MfaSession) : Nat :=
  max 1 ((payload.createdAt + 1000 * payload.ttl - now) / 1000)

/-! ## The state -/

/-- The value of the session's key, with the expiry of the key. -/
structure RedisEntry where
  payload : MfaSession
  expiresAt : Nat

/-- What follows the `DELETE` of an expired payload. -/
inductive Rest where
  | returns
  /-- `create_session` makes a new session. -/
  | creates (challenge : Challenge)
  /-- `wait_for_code` looks at its deadline. -/
  | polls

/-- A call after its `GET`. -/
inductive Call where
  /-- `create_session`, and what `get_session` returned to it. -/
  | creating (challenge : Challenge) (found : Option MfaSession)
  | submitting (code : String) (payload : MfaSession)
  /-- `wait_for_code`, and the payload that `_fetch_submitted_code` read. -/
  | polling (found : Option MfaSession)
  /-- Before the `DELETE` of an expired payload, or of `remove_session`. -/
  | deleting (rest : Rest)

/-- The call after the `DELETE`. -/
def Rest.call : Rest → Option Call
  | .returns => none
  | .creates challenge => some (.creating challenge none)
  | .polls => some (.polling none)

/-- A `wait_for_code` that sleeps. -/
structure Waiter where
  deadline : Nat
  /-- The object that is waited on, once it is no longer in `_sessions`. -/
  orphan : Option MfaSession

/-- One `MFAManager` with the process around it. -/
structure Manager where
  /-- The session's object in `_sessions`. -/
  entry : Option MfaSession := none
  call : Option Call := none
  waiter : Option Waiter := none

/-- What `wait_for_code` returned, and whether a code had been accepted then. -/
structure Report where
  code : Option String
  promised : Bool

structure State where
  now : Nat
  redis : Option RedisEntry
  managers : Nat → Manager
  /-- History variable: until when the session lives that was stored last, unless
  `remove_session` was called for it. -/
  livesUntil : Option Nat
  /-- History variable: the codes for which `submit_code` returned `True`. -/
  accepted : List String
  /-- History variable: `submit_code` has returned `True` for the session while it
  lived, and it has not been removed since. -/
  promised : Bool
  /-- History variable. -/
  reports : List Report

/-- The session's object leaves `_sessions`; who waits on it keeps it. -/
def Manager.pop (m : Manager) : Manager :=
  { m with
    entry := none
    waiter := m.waiter.map fun w => { w with orphan := w.orphan <|> m.entry } }

def State.set (s : State) (id : Nat) (m : Manager) : State :=
  { s with managers := fun k => if k = id then m else s.managers k }

/-- `redis.get(key)`. -/
def State.stored (s : State) : Option MfaSession :=
  (s.redis.filter fun e => decide (s.now ≤ e.expiresAt)).map RedisEntry.payload

/-- The payload that a `GET` returns has expired. -/
def State.stale (s : State) : Bool :=
  s.stored.any fun payload => payload.expired s.now

/-- The payload of a session that is stored and has not expired. -/
def State.live (s : State) : Option MfaSession :=
  s.stored.filter fun payload => !payload.expired s.now

/-- The session has neither been removed nor run out, whatever is stored. -/
def State.alive (s : State) : Bool :=
  s.livesUntil.any fun time => decide (s.now ≤ time)

/-- `redis.set(key, payload, ex=ttl)`. A session runs out with its key or with its
payload; a payload that has expired is no session, and does not end the one that
was stored before. -/
def State.store (s : State) (payload : MfaSession) (ttl : Nat) : State :=
  { s with
    redis := some ⟨payload, s.now + 1000 * ttl⟩
    livesUntil :=
      if payload.expired s.now then s.livesUntil
      else some (min (s.now + 1000 * ttl) (payload.createdAt + 1000 * payload.ttl)) }

/-- `_persist_session`. A session that is stored where none lives is a new one. -/
def State.save (s : State) (session : MfaSession) : State :=
  { s.store session session.ttl with promised := s.promised && s.alive }

def State.report (s : State) (code : Option String) : State :=
  { s with reports := ⟨code, s.promised⟩ :: s.reports }

/-! ## The steps -/

/-- The part of `_sessions` that `get_session` returns at once. -/
def Manager.current (m : Manager) (now : Nat) : Option MfaSession :=
  m.entry.filter fun session => !session.expired now

/-- `create_session` up to its first Redis command, and that command. -/
def createSession (s : State) (id : Nat) (m : Manager) (challenge : Challenge) : State :=
  match m.current s.now with
  | some session =>
      (s.set id { m with entry := some (session.resume challenge) }).save
        (session.resume challenge)
  | none =>
      let call : Call :=
        if s.stale then .deleting (.creates challenge) else .creating challenge s.stored
      s.set id { m.pop with call := some call }

/-- The session that `create_session` stores after it looked for one. -/
def createdSession (now : Nat) (challenge : Challenge) : Option MfaSession → MfaSession
  | some session => session.resume challenge
  | none => challenge.session now

/-- `remove_session`. -/
def removeSession (s : State) (id : Nat) (m : Manager) : State :=
  { s.set id m.pop with redis := none, livesUntil := none, promised := false }

/-- `submit_code` up to its `GET`, and the rest of it where no command follows. -/
def submitCode (s : State) (id : Nat) (m : Manager) (code : String) : State :=
  match m.entry, s.stored with
  | none, none => s
  | entry, payload =>
      if payload.any (·.expired s.now) || entry.any (·.expired s.now) then
        -- it calls `remove_session`
        s.set id { m.pop with call := some (.deleting .returns) }
      else
        match payload with
        | some payload => s.set id { m with call := some (.submitting code payload) }
        | none =>
            { s.set id { m with entry := entry.map fun e => { e with code := some code } } with
              accepted := code :: s.accepted
              promised := s.promised || s.alive }

/-- `get_session`. -/
def getSession (s : State) (id : Nat) (m : Manager) : State :=
  match m.current s.now with
  | some _ => s
  | none =>
      if s.stale then s.set id { m.pop with call := some (.deleting .returns) }
      else s.set id m.pop

/-- `wait_for_code` up to its first sleep. -/
def startWait (s : State) (id : Nat) (m : Manager) (timeout : Option Nat) : Option State :=
  match m.entry, m.waiter with
  | some session, none =>
      if session.hasCode then some (s.report session.code)
      else
        let seconds := (timeout.filter (· ≠ 0)).getD session.ttl
        some (s.set id { m with waiter := some ⟨s.now + 1000 * seconds, none⟩ })
  | _, _ => none

/-- `wait_for_code` from a sleep up to its `GET`. -/
def wake (s : State) (id : Nat) (m : Manager) (object : MfaSession) : State :=
  if object.hasCode then (s.set id { m with waiter := none }).report object.code
  else s.set id { m with call := some (if s.stale then .deleting .polls else .polling s.stored) }

/-- `wait_for_code` after its `GET`, up to its next sleep. -/
def poll (s : State) (id : Nat) (m : Manager) (w : Waiter) (found : Option MfaSession) : State :=
  match (found.filter MfaSession.hasCode).bind MfaSession.code with
  | some code =>
      -- the object has the code from now on; it may not be in `_sessions` any more
      let entry :=
        if w.orphan.isSome then m.entry
        else m.entry.map fun e => { e with code := some code }
      (s.set id { m with entry, waiter := none, call := none }).report (some code)
  | none =>
      if w.deadline ≤ s.now then (s.set id { m with waiter := none, call := none }).report none
      else s.set id { m with call := none }

/-- The second command of a call and what follows it. -/
def finishCall (s : State) (id : Nat) (m : Manager) : Call → Option State
  | .creating challenge found =>
      let session := createdSession s.now challenge found
      some ((s.set id { m with entry := some session, call := none }).save session)
  | .submitting code payload =>
      let payload := { payload with code := some code }
      let entry := m.entry.map fun e => { e with code := some code }
      some { (s.set id { m with entry, call := none }).store payload
          (remainingTtl s.now payload) with
        accepted := code :: s.accepted
        promised := s.promised || !payload.expired s.now }
  | .polling found => m.waiter.map fun w => poll s id m w found
  | .deleting rest => some { s.set id { m with call := rest.call } with redis := none }

inductive Label where
  | create (manager : Nat) (challenge : Challenge)
  | submit (manager : Nat) (code : String)
  /-- A call goes on after its `GET`. -/
  | finish (manager : Nat)
  | get (manager : Nat)
  | remove (manager : Nat)
  | startWait (manager : Nat) (timeout : Option Nat)
  | wake (manager : Nat)
  /-- `_cleanup_expired`. -/
  | cleanup (manager : Nat)
  | crash (manager : Nat)
  | wait (ms : Nat)

/-- A step of a process that is in no call. -/
def whenIdle (m : Manager) (t : State) : Option State :=
  if m.call.isSome then none else some t

def step (s : State) : Label → Option State
  | .create id challenge => whenIdle (s.managers id) (createSession s id (s.managers id) challenge)
  | .submit id code => whenIdle (s.managers id) (submitCode s id (s.managers id) code)
  | .finish id => (s.managers id).call.bind (finishCall s id (s.managers id))
  | .get id => whenIdle (s.managers id) (getSession s id (s.managers id))
  | .remove id => whenIdle (s.managers id) (removeSession s id (s.managers id))
  | .startWait id timeout =>
      (startWait s id (s.managers id) timeout).bind (whenIdle (s.managers id))
  | .wake id =>
      match (s.managers id).waiter with
      | none => none
      | some w =>
          match w.orphan <|> (s.managers id).entry with
          | none => none
          | some object => whenIdle (s.managers id) (wake s id (s.managers id) object)
  | .cleanup id =>
      match (s.managers id).current s.now with
      | some _ => some s
      | none => whenIdle (s.managers id) (s.set id (s.managers id).pop)
  | .crash id => some (s.set id {})
  | .wait ms => some { s with now := s.now + ms }

/-- No session yet. -/
def init (now : Nat) : State where
  now := now
  redis := none
  managers := fun _ => {}
  livesUntil := none
  accepted := []
  promised := false
  reports := []

end Plaidify.Mfa
