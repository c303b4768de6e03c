import Plaidify.AccessJobs.Jobs
import Plaidify.Lib.Runs

/-!
# Workers on one stream

Any number of workers of the dispatch stream, each in a run of
`process_dispatched_access_job`, interleaved at every Redis command and every
database statement. A step is one of them; its label says which worker goes on
and what it is answered. Workers die at any point, messages are reclaimed from
the pending list, and keys expire.

What a worker reads of the row it keeps: SQLAlchemy compares what is assigned
with what was loaded, and an `UPDATE` names the columns that differ.

Times are in milliseconds.
-/

namespace Plaidify.AccessJobs

structure Settings where
  /-- `access_job_payload_ttl`, there in seconds. -/
  payloadTtl : Nat := 3600 * 1000
  /-- `access_job_reclaim_idle_ms`. -/
  reclaimIdle : Nat := 30000

/-- `_LOCK_TTL_SECONDS`. -/
def lockTtl : Nat := 360 * 1000

/-- `_LOCK_WAIT_SECONDS`. -/
def lockWait : Nat := 250

/-! ## The state -/

/-- A message of the stream. -/
structure DispatchMessage where
  id : String
  jobId : String
deriving DecidableEq

/-- An entry of the group's pending list. -/
structure PendingEntry where
  message : DispatchMessage
  deliveredAt : Nat
deriving DecidableEq

/-- A lock key. `holder` stands for the token: the worker that set it, or
nobody for a process that is no worker of this stream. -/
structure ScopeLock where
  scope : String
  holder : Option Nat
  expiresAt : Nat
deriving DecidableEq

/-- The `AccessJob` object of a worker and the metadata read from it at first. -/
structure Loaded where
  job : Job
  metadata : Option Dict

/-- How the executor block is left. -/
inductive Ending where
  | returned (result : Dict)
  | raised (exc : Exc)

/-- What is left to do when the row is not written any more. -/
inductive Closing where
  | deletePayload
  | ack
deriving DecidableEq

/-- What a worker does next. -/
inductive Pc where
  /-- Read the payload, find the executor and decrypt its arguments. -/
  | claimed
  /-- Read the row. -/
  | prepared
  /-- Ask for the lock for the first time. -/
  | locking (loaded : Loaded)
  /-- Asleep between two polls. -/
  | polling (loaded : Loaded) (deadline : Nat)
  /-- Redis raised: wait for the lock of this process. -/
  | waitingLocal (loaded : Loaded)
  /-- Write `blocked`. -/
  | blocking (loaded : Loaded)
  /-- Write `running`. -/
  | locked (loaded : Loaded)
  /-- Refresh the row and call the executor. -/
  | ready (loaded : Loaded)
  /-- Wait for the executor. -/
  | executing (loaded : Loaded)
  /-- Wait for `remove_session` in an `except` clause. -/
  | removing (loaded : Loaded) (exc : Exc)
  /-- Write the row in an `except` clause. -/
  | raising (loaded : Loaded) (exc : Exc)
  /-- Release the lock. -/
  | releasing (loaded : Loaded) (ending : Ending)
  /-- Write `completed`. -/
  | completing (loaded : Loaded) (result : Dict)
  /-- The policy audit and `remove_session` of a completed job. -/
  | completed
  /-- `_mark_job_failed` reads the row. -/
  | marking (message : String) (next : Closing)
  /-- `_mark_job_failed` writes the row. -/
  | failing (loaded : Loaded) (message : String) (next : Closing)
  | closing (next : Closing)

/-- One call of `process_dispatched_access_job` with the message it claimed. -/
structure Worker where
  id : Nat
  message : DispatchMessage
  pc : Pc

structure System where
  now : Nat
  jobs : Table Job Job.id
  payloads : Table PayloadEntry PayloadEntry.jobId
  /-- The messages that were not delivered yet. -/
  undelivered : List DispatchMessage
  /-- The pending list of the group. -/
  pending : Table PendingEntry fun e => e.message.id
  locks : Table ScopeLock ScopeLock.scope
  workers : Table Worker Worker.id
  /-- The identities that were not used yet. -/
  nextWorker : Nat
  /-- History variable: the jobs whose executor was called, once for each call. -/
  started : List String

/-- What a worker is answered: the operation is done, raises, or is cancelled;
or the executor comes back. -/
inductive Answer where
  | done
  | raised (message : String)
  | cancelled
  | executor (outcome : Except Exc Dict)

inductive Label where
  /-- `start_access_job` of the API with a fresh job, and the id of its message. -/
  | enqueue (job : Job) (payload : Payload) (messageId : String)
  /-- `XREADGROUP` hands out the first new message. -/
  | readNew
  /-- `XAUTOCLAIM` hands out an entry that has been idle for long enough. Which
  one its cursor reaches is left open. -/
  | reclaim (messageId : String)
  | go (worker : Nat) (answer : Answer)
  | crash (worker : Nat)
  | wait (ms : Nat)
  /-- A process that is no worker of this stream takes the lock of a scope. -/
  | foreignLock (scope : String)
  | foreignRelease (scope : String)

/-! ## Operations -/

/-- The row after an `UPDATE` of an object that was loaded as `loaded`. -/
def flush (loaded : Job) (state : JobState) (row : Job) : Job :=
  { applyJobState row state with
    status := if state.status = loaded.status then row.status else state.status }

namespace System

/-- The row of the job is there and finished. -/
def terminal (s : System) (jobId : String) : Bool :=
  match s.jobs.get? jobId with
  | none => false
  | some job => !job.status.unfinished

/-- The status of a job. -/
def status (s : System) (jobId : String) : Option Status :=
  (s.jobs.get? jobId).map Job.status

/-- `redis.set(key, token, nx=True)` would set the key. -/
def lockFree (s : System) (scope : String) : Bool :=
  match s.locks.get? scope with
  | none => true
  | some lock => lock.expiresAt < s.now

/-- Set the lock key, in the place of one that expired. -/
def setLock (s : System) (scope : String) (holder : Option Nat) : System :=
  let lock := { scope, holder, expiresAt := s.now + lockTtl }
  { s with locks := (s.locks.insert? lock).getD (s.locks.put lock) }

/-- `_RELEASE_LOCK_SCRIPT`: delete the key if it still holds the token. -/
def releaseLock (s : System) (scope : String) (holder : Option Nat) : System :=
  { s with locks := s.locks.delete fun l => l.scope == scope && l.holder == holder }

/-- A committed write of the row of a job. -/
def write (s : System) (jobId : String) (loaded : Loaded) (state : JobState) : System :=
  match s.jobs.get? jobId with
  | none => s
  | some row => { s with jobs := s.jobs.put (flush loaded.job state row) }

/-- The worker goes on at `pc`. -/
def goto (s : System) (w : Worker) (pc : Pc) : System :=
  { s with workers := s.workers.put { w with pc } }

/-- The end of a worker. -/
def drop (s : System) (id : Nat) : System :=
  { s with workers := s.workers.delete (·.id == id) }

/-- A worker that has just claimed a message. -/
def spawn (s : System) (message : DispatchMessage) : Option System := do
  let workers ← s.workers.insert? { id := s.nextWorker, message, pc := .claimed }
  return { s with workers, nextWorker := s.nextWorker + 1 }

end System

/-- Where an exception of `_execute_background_job` leads to. -/
def afterException : Exc → Pc
  | .cancelled => .closing .deletePayload
  | .mfaRequired _ _ _ => .closing .deletePayload
  | exc => .marking exc.message .deletePayload

/-- Where `_execute_existing_job` goes on after the executor block. -/
def afterRelease (loaded : Loaded) : Ending → Pc
  | .returned result => .completing loaded result
  | .raised exc => afterException exc

/-! ## Steps of a worker -/

/-- One poll of `_acquire_redis_lock`. -/
def pollLock (s : System) (w : Worker) (loaded : Loaded) (deadline : Nat) : Answer → Option System
  | .done =>
      if s.lockFree loaded.job.lockScope then
        some ((s.setLock loaded.job.lockScope (some w.id)).goto w (.locked loaded))
      else if deadline ≤ s.now then some (s.goto w (.blocking loaded))
      else some (s.goto w (.polling loaded deadline))
  | .raised _ => some (s.goto w (.waitingLocal loaded))
  | _ => none

/-- The next operation of a worker. -/
def advance (s : System) (w : Worker) (answer : Answer) : Option System :=
  let jobId := w.message.jobId
  match w.pc, answer with
  | .claimed, answer =>
      match loadDispatchPayload s.payloads s.now jobId, answer with
      | none, _ =>
          some (s.goto w (.marking "Access job dispatch payload expired before execution." .ack))
      | some _, .done => some (s.goto w .prepared)
      | some _, .raised message => some (s.goto w (.marking message .deletePayload))
      | _, _ => none
  | .prepared, .done =>
      match s.jobs.get? jobId with
      | none => some (s.goto w (afterException (.other s!"Access job not found: {jobId}")))
      | some job => some (s.goto w (.locking ⟨job, job.metadata⟩))
  | .locking loaded, answer => pollLock s w loaded (s.now + lockWait) answer
  | .polling _ _, .cancelled => some (s.goto w (afterException .cancelled))
  | .polling loaded deadline, answer => pollLock s w loaded deadline answer
  | .waitingLocal loaded, .done => some (s.goto w (.locked loaded))
  | .waitingLocal loaded, .raised _ => some (s.goto w (.blocking loaded))
  | .waitingLocal _, .cancelled => some (s.goto w (afterException .cancelled))
  | .blocking loaded, .done =>
      let scope := loaded.job.lockScope
      some ((s.write jobId loaded (blockedState s.now scope)).goto w
        (afterException (.concurrentAccess (siteOfScope scope))))
  | .locked loaded, .done =>
      some ((s.write jobId loaded (runningState s.now)).goto w (.ready loaded))
  | .ready loaded, .done =>
      let job := (s.jobs.get? jobId).getD loaded.job
      some ({ s with started := jobId :: s.started }.goto w (.executing { loaded with job }))
  | .executing loaded, .executor (.ok result) =>
      some (s.goto w (.releasing loaded (.returned result)))
  | .executing loaded, .executor (.error exc) =>
      match exc with
      | .mfaRequired _ _ _ => some (s.goto w (.raising loaded exc))
      | _ => some (s.goto w (.removing loaded exc))
  | .removing loaded exc, .done => some (s.goto w (.raising loaded exc))
  | .removing loaded _, .raised message =>
      some (s.goto w (.releasing loaded (.raised (.other message))))
  | .removing loaded _, .cancelled => some (s.goto w (.releasing loaded (.raised .cancelled)))
  | .raising loaded exc, .done =>
      some ((s.write jobId loaded (raisedState s.now loaded.job loaded.metadata exc)).goto w
        (.releasing loaded (.raised exc)))
  -- the policy audit raised after the row was written
  | .raising loaded exc, .raised message =>
      some ((s.write jobId loaded (raisedState s.now loaded.job loaded.metadata exc)).goto w
        (.releasing loaded (.raised (.other message))))
  | .releasing loaded ending, .done =>
      some ((s.releaseLock loaded.job.lockScope (some w.id)).goto w (afterRelease loaded ending))
  -- what `eval` raises is logged
  | .releasing loaded ending, .raised _ => some (s.goto w (afterRelease loaded ending))
  | .completing loaded result, .done =>
      match resultMetadata result with
      | .error exc => some (s.goto w (afterException exc))
      | .ok update =>
          let metadata := mergeMetadata loaded.metadata (some update)
          some ((s.write jobId loaded (completedState s.now metadata result)).goto w .completed)
  | .completed, .done => some (s.goto w (.closing .deletePayload))
  | .completed, .raised message => some (s.goto w (afterException (.other message)))
  | .completed, .cancelled => some (s.goto w (afterException .cancelled))
  | .marking message next, .done =>
      match s.jobs.get? jobId with
      | none => some (s.goto w (.closing next))
      | some job =>
          if job.status.unfinished then
            some (s.goto w (.failing ⟨job, job.metadata⟩ message next))
          else some (s.goto w (.closing next))
  | .failing loaded message next, .done =>
      some ((s.write jobId loaded (failedState s.now message)).goto w (.closing next))
  | .closing .deletePayload, .done =>
      some ({ s with payloads := s.payloads.delete (·.jobId == jobId) }.goto w (.closing .ack))
  | .closing .ack, .done =>
      some ({ s with pending := s.pending.delete (·.message.id == w.message.id) }.drop w.id)
  | _, _ => none

/-! ## Steps of the system -/

variable (cfg : Settings)

/-- `_create_access_job` and `_queue_dispatched_access_job`. -/
def enqueue (s : System) (job : Job) (payload : Payload) (messageId : String) : Option System := do
  let jobs ← s.jobs.insert? { job with status := .pending }
  let payloads ← s.payloads.insert? ⟨job.id, payload, s.now + cfg.payloadTtl⟩
  return { s with jobs, payloads, undelivered := s.undelivered ++ [⟨messageId, job.id⟩] }

def step (s : System) : Label → Option System
  | .enqueue job payload messageId => enqueue cfg s job payload messageId
  | .readNew =>
      match s.undelivered with
      | [] => none
      | message :: undelivered => do
          let pending ← s.pending.insert? ⟨message, s.now⟩
          { s with undelivered, pending }.spawn message
  | .reclaim messageId =>
      match s.pending.get? messageId with
      | none => none
      | some entry =>
          if entry.deliveredAt + cfg.reclaimIdle ≤ s.now then
            { s with pending := s.pending.put { entry with deliveredAt := s.now } }.spawn
              entry.message
          else none
  | .go id answer =>
      match s.workers.get? id with
      | none => none
      | some w => advance s w answer
  | .crash id => some (s.drop id)
  | .wait ms => some { s with now := s.now + ms }
  | .foreignLock scope =>
      if s.lockFree scope then some (s.setLock scope none) else none
  | .foreignRelease scope => some (s.releaseLock scope none)

end Plaidify.AccessJobs
