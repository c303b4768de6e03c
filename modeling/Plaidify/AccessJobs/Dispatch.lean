import Plaidify.AccessJobs.Jobs
import Plaidify.Lib.Raising

/-!
# Processing one dispatched job

`process_dispatched_access_job` and the functions under it, one run from the
claim of a message to its end. Everything the run awaits or calls outside the
module is an answer of the environment: the scope lock, the executor,
`MFAManager.remove_session`, the audit log, and Redis. The database is reliable
and nobody else writes the row during the run.
-/

namespace Plaidify.AccessJobs

/-! ## The environment -/

/-- How `acquire_scope_lock` ends: with the lock, with `ConcurrentAccessError`,
or cancelled while it waits between two polls. -/
inductive LockAnswer where
  | acquired
  | busy
  | cancelled
deriving DecidableEq

/-- How `remove_session` ends. It can be cancelled while it waits for the lock
of the manager, and the Redis client can raise. -/
inductive RemovalAnswer where
  | done
  | raised (message : String)
  | cancelled
deriving DecidableEq

/-- The commands of a run that Redis may fail to answer. -/
inductive RedisCommand where
  | get
  | delete
  | xack
  | xdel
  | eval
deriving DecidableEq

/-- An executor, called with its keyword arguments. -/
abbrev Executor := Dict → Except Exc Dict

structure Env where
  executorOverrides : List (String × Executor)
  connectToSite : Executor
  /-- How long the executor takes. -/
  elapsed : Nat
  decryptCredential : Json → Except String String
  acquireScopeLock : LockAnswer
  removeSession : RemovalAnswer
  /-- What `_record_policy_audit_if_needed` raises. -/
  policyAudit : Option Dict → Status → Except Exc Unit
  /-- The text of the exception that a command raises. -/
  redis : RedisCommand → Option String

/-- A stream message; `jobId` is `fields.get("job_id")` unless that is empty. -/
structure Message where
  id : String
  jobId : Option String
deriving DecidableEq

structure World where
  now : Nat
  jobs : Table Job Job.id
  payloads : Table PayloadEntry PayloadEntry.jobId
  /-- The entries of the stream. -/
  stream : List String
  /-- The entries that the group has delivered and nobody has acknowledged. -/
  unacked : List String
  /-- The scopes whose lock this worker holds. -/
  heldScopes : List String
  /-- The sessions of the MFA manager. -/
  mfaSessions : List String

/-! ## The functions -/

/-- Run the effect of a Redis command unless the command raises. -/
def callRedis (env : Env) (command : RedisCommand) (effect : World → World) :
    Raising Exc World Unit :=
  match env.redis command with
  | some message => throw (.other message)
  | none => modify effect

def deleteDispatchPayload (env : Env) (jobId : String) : Raising Exc World Unit :=
  callRedis env .delete fun w => { w with payloads := w.payloads.delete (·.jobId == jobId) }

def ackDispatchedMessage (env : Env) (messageId : String) : Raising Exc World Unit := do
  callRedis env .xack fun w => { w with unacked := w.unacked.filter (· != messageId) }
  callRedis env .xdel fun w => { w with stream := w.stream.filter (· != messageId) }

/-- `_persist_job` of a row that is in the table. -/
def persistJob (job : Job) : Raising Exc World Unit :=
  modify fun w => { w with jobs := w.jobs.put job }

/-- `_mark_job_failed`. -/
def markJobFailed (jobId message : String) : Raising Exc World Unit := do
  let w ← get
  match w.jobs.get? jobId with
  | none => pure ()
  | some job =>
      if job.status.unfinished then persistJob (applyJobState job (failedState w.now message))
      else pure ()

def acquireScopeLock (env : Env) (scope : String) : Raising Exc World Unit :=
  match env.acquireScopeLock with
  | .acquired => modify fun w => { w with heldScopes := scope :: w.heldScopes }
  | .busy => throw (.concurrentAccess (siteOfScope scope))
  | .cancelled => throw .cancelled

/-- `_HeldScopeLock.release`: what `eval` raises is logged, and the lock stays
until it expires. -/
def releaseScopeLock (env : Env) (scope : String) : Raising Exc World Unit :=
  match env.redis .eval with
  | some _ => pure ()
  | none => modify fun w => { w with heldScopes := w.heldScopes.erase scope }

def removeSession (env : Env) (sessionId : Option String) : Raising Exc World Unit :=
  let pop : World → World := fun w =>
    { w with mfaSessions := w.mfaSessions.filter fun s => some s != sessionId }
  match env.removeSession with
  | .done => modify pop
  -- the Redis key is deleted after the entry of the dictionary
  | .raised message => do
      modify pop
      throw (.other message)
  | .cancelled => throw .cancelled

def recordPolicyAudit (env : Env) (metadata : Option Dict) (status : Status) :
    Raising Exc World Unit :=
  match env.policyAudit metadata status with
  | .ok () => pure ()
  | .error exc => throw exc

/-- `await executor(**execution_kwargs)`. -/
def awaitExecutor (env : Env) (executor : Executor) (kwargs : Dict) : Raising Exc World Dict := do
  modify fun w => { w with now := w.now + env.elapsed }
  match executor kwargs with
  | .ok result => pure result
  | .error exc => throw exc

/-- Write the state of a job, at the time of the write. -/
def writeState (job : Job) (state : Nat → JobState) : Raising Exc World Unit := do
  let w ← get
  persistJob (applyJobState job (state w.now))

/-- What an `except` clause around the executor does with the row. -/
def writeRaised (env : Env) (job : Job) (metadata : Option Dict) (exc : Exc) :
    Raising Exc World Unit := do
  writeState job fun now => raisedState now job metadata exc
  match exc with
  | .concurrentAccess _ | .plaidify _ _ _ _ =>
      recordPolicyAudit env (mergeMetadata metadata exc.metadata) .failed
  | _ => pure ()

/-- The `except` clauses around the executor. All but the one for
`MFARequiredError` remove the session before they write the row. -/
def handleRaised (env : Env) (job : Job) (metadata : Option Dict) (exc : Exc) :
    Raising Exc World Dict := do
  match exc with
  | .mfaRequired _ _ _ => writeRaised env job metadata exc
  | _ => do
      removeSession env job.sessionId
      writeRaised env job metadata exc
  throw exc

/-- What `_execute_existing_job` does with the result of the executor. -/
def completeJob (env : Env) (job : Job) (metadata : Option Dict) (result : Dict) :
    Raising Exc World Dict := do
  match resultMetadata result with
  | .error exc => throw exc
  | .ok resultMetadata => do
      let completedMetadata := mergeMetadata metadata (some resultMetadata)
      writeState job fun now => completedState now completedMetadata result
      recordPolicyAudit env completedMetadata .completed
      removeSession env job.sessionId
      return result

/-- The part of `_execute_existing_job` that gets the lock. -/
def lockOrBlock (env : Env) (job : Job) : Raising Exc World Unit :=
  tryCatch (acquireScopeLock env job.lockScope) fun exc =>
    match exc with
    | .concurrentAccess _ => do
        writeState job fun now => blockedState now job.lockScope
        throw exc
    | _ => throw exc

/-- `_execute_existing_job`. -/
def executeExistingJob (env : Env) (job : Job) (executor : Executor) (executorKwargs : Dict)
    (metadata : Option Dict) : Raising Exc World Dict := do
  lockOrBlock env job
  let w ← get
  let job := applyJobState job (runningState w.now)
  persistJob job
  let result ←
    tryFinally
      (tryCatch (awaitExecutor env executor (executionKwargs job executorKwargs))
        (handleRaised env job metadata))
      (releaseScopeLock env job.lockScope)
  completeJob env job metadata result

/-- `_execute_background_job`. -/
def executeBackgroundJob (env : Env) (jobId : String) (executor : Executor)
    (executorKwargs : Dict) : Raising Exc World Dict := do
  let w ← get
  match w.jobs.get? jobId with
  | none => throw (.other s!"Access job not found: {jobId}")
  | some job => executeExistingJob env job executor executorKwargs job.metadata

/-- `_resolve_dispatched_executor`. -/
def resolveDispatchedExecutor (env : Env) (executorName : String) : Except String Executor :=
  match env.executorOverrides.lookup executorName with
  | some executor => .ok executor
  | none =>
      if executorName = "connect_to_site" then .ok env.connectToSite
      else .error s!"Unsupported dispatched executor: {executorName}"

/-- The executor of a payload and its arguments, or the text of what is raised
before the job is looked up. -/
def prepareExecutor (env : Env) (payload : Payload) : Except String (Executor × Dict) := do
  let executor ← resolveDispatchedExecutor env payload.executor
  let executorKwargs ← decryptDispatchKwargs env.decryptCredential payload.executorKwargs
  return (executor, executorKwargs)

/-- The body of the `try` of `process_dispatched_access_job`. -/
def runPayload (env : Env) (jobId : String) (payload : Payload) : Raising Exc World Unit :=
  match prepareExecutor env payload with
  | .error message => throw (.other message)
  | .ok (executor, executorKwargs) => do
      let _ ← executeBackgroundJob env jobId executor executorKwargs
      pure ()

/-- Its `except` clauses: `MFARequiredError`, then `Exception`. -/
def handleProcessing (jobId : String) : Exc → Raising Exc World Unit
  | .mfaRequired _ _ _ => pure ()
  | .cancelled => throw .cancelled
  | exc => markJobFailed jobId exc.message

/-- Its `finally` clause. -/
def finishMessage (env : Env) (jobId messageId : String) : Raising Exc World Unit := do
  deleteDispatchPayload env jobId
  ackDispatchedMessage env messageId

/-- `process_dispatched_access_job`, for what `_claim_dispatched_message`
returned. -/
def processDispatchedAccessJob (env : Env) (claimed : Option Message) :
    Raising Exc World Bool := do
  match claimed with
  | none => pure false
  | some message =>
      match message.jobId with
      | none => do
          ackDispatchedMessage env message.id
          pure true
      | some jobId => do
          callRedis env .get id
          let w ← get
          match loadDispatchPayload w.payloads w.now jobId with
          | none => do
              markJobFailed jobId "Access job dispatch payload expired before execution."
              ackDispatchedMessage env message.id
          | some payload =>
              tryFinally (tryCatch (runPayload env jobId payload) (handleProcessing jobId))
                (finishMessage env jobId message.id)
          pure true

end Plaidify.AccessJobs
