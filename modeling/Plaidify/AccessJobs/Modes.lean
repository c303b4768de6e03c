import Plaidify.AccessJobs.Dispatch
import Plaidify.AccessJobs.Rows

/-!
# The two execution modes

`start_access_job` hands out a task. In-process the task is
`_execute_background_job` itself and carries the executor's outcome as a Python
value or exception. In redis-worker mode it is `_wait_for_terminal_job_result`,
which polls the row that a worker writes and rebuilds the outcome from the
status, the message and the JSON columns.

What the two have in common is exact in `interchangeable_iff`: the status of
every `PlaidifyError` but two kinds is lost on the way through the row, and so
is an empty result.
-/

namespace Plaidify.AccessJobs.Modes

open Raising

/-! ## The observer -/

/-- `metadata.get("mfa_type", "unknown")`. -/
def mfaTypeOf (metadata : Json) : Except Exc Json :=
  match metadata with
  | .obj dict => .ok ((dict.lookup "mfa_type").getD (.str "unknown"))
  | _ => .error (.other "object has no attribute 'get'")

/-- `job.error_message or default`. -/
def messageOr (errorMessage : Option String) (default : String) : String :=
  match errorMessage with
  | none | some "" => default
  | some message => message

/-- The exception for a row that waits for MFA. `mfa_type` is interpolated into
the message only. -/
def mfaRequiredOf (floatRepr : String → String) (job : Job) : Exc :=
  let metadata := deserializeMetadata floatRepr (columnText job.metadata)
  match mfaTypeOf ((metadata.filter Json.truthy).getD (.obj [])) with
  | .error exc => exc
  | .ok (.str mfaType) => .mfaRequired job.site mfaType (job.sessionId.getD "")
  -- a worker writes a string under this key
  | .ok mfaType => .mfaRequired job.site (Json.dumps mfaType) (job.sessionId.getD "")

/-- One round of `_wait_for_terminal_job_result`; `none` is another round. -/
def pollJob (floatRepr : String → String) (jobId : String) (w : World) :
    Option (Except Exc Json) :=
  match w.jobs.get? jobId with
  | none => some (.error (.other s!"Access job not found: {jobId}"))
  | some job =>
      match job.status with
      | .completed =>
          let result := deserializeMetadata floatRepr (columnText job.result)
          some (.ok ((result.filter Json.truthy).getD (.obj [("status", .str "completed")])))
      | .mfaRequired => some (.error (mfaRequiredOf floatRepr job))
      | .blocked =>
          let message := messageOr job.errorMessage s!"Access job blocked: {job.id}"
          some (.error (.plaidify message 409 .internalError none))
      | .failed | .cancelled =>
          let message := messageOr job.errorMessage s!"Access job failed: {job.id}"
          some (.error (.plaidify message 500 .internalError none))
      | .pending | .running => none

/-- `_wait_for_terminal_job_result`, for what the database holds at its polls. -/
def waitForTerminalJobResult (floatRepr : String → String) (jobId : String)
    (polls : List World) : Option (Except Exc Json) :=
  polls.findSome? (pollJob floatRepr jobId)

/-! ## The modes -/

/-- `_queue_dispatched_access_job`. -/
def queueDispatchedAccessJob (jobId messageId : String) (payload : Payload) (w : World) : World :=
  { w with
    payloads := w.payloads.set ⟨jobId, payload, w.now + payloadTtl⟩
    stream := w.stream ++ [messageId] }

/-- `_claim_dispatched_message`, some time later. -/
def claimDispatchedMessage (messageId : String) (delay : Nat) (w : World) : World :=
  { w with
    now := w.now + delay
    unacked := messageId :: w.unacked }

/-- What awaiting the task yields in-process. -/
def awaitInProcess (env : Env) (jobId : String) (executor : Executor) (executorKwargs : Dict)
    (w : World) : Except Exc Dict :=
  (after (executeBackgroundJob env jobId executor executorKwargs) w).1

/-- What a worker leaves of a job that is queued now and claimed after `delay`. -/
def afterDispatch (env : Env) (jobId messageId : String) (payload : Payload) (delay : Nat)
    (w : World) : World :=
  (after (processDispatchedAccessJob env (some ⟨messageId, some jobId⟩))
    (claimDispatchedMessage messageId delay
      (queueDispatchedAccessJob jobId messageId payload w))).2

/-- The same dictionary, or an exception with the same status and error code. -/
def SameOutcome : Except Exc Dict → Except Exc Json → Prop
  | .ok result, .ok seen => Json.Same (.obj result) seen
  | .error exc, .error exc' => exc.http = exc'.http
  | _, _ => False

/-! ## What is assumed -/

/-- What `_record_policy_audit_if_needed` computes before it inserts an audit
row. -/
def policyAudit (metadata : Option Dict) (_ : Status) : Except Exc Unit :=
  match (metadata.getD []).lookup "read_only_policy" with
  | some (.obj policy) => do
      let _ ← len ((policy.lookup "blocked_actions").getD (.arr []))
      return ()
  | _ => .ok ()

/-- All database and Redis operations succeed. -/
structure Reliable (env : Env) : Prop where
  redis : ∀ command, env.redis command = none
  removeSession : env.removeSession = .done
  policyAudit : env.policyAudit = policyAudit

/-- An executor ends with a JSON-valued dictionary or a `PlaidifyError`. -/
def Outcome (floatRepr : String → String) : Except Exc Dict → Prop
  | .ok result => Json.Writable floatRepr (.obj result)
  | .error .cancelled | .error (.other _) => False
  | .error _ => True

/-- The outcomes that the row carries: `MFARequiredError`, contention for the
lock, a result that is not empty and whose metadata can be computed, and an
exception that the observer's own exception for a failed row happens to equal. -/
def Carried (env : Env) (job : Job) (delay : Nat) (outcome : Except Exc Dict) : Prop :=
  if env.acquireScopeLock = .acquired then
    match outcome with
    | .ok result =>
        delay ≤ payloadTtl ∧ result ≠ [] ∧ ∃ added, resultMetadata result = .ok added ∧
          policyAudit (mergeMetadata job.metadata (some added)) .completed = .ok ()
    | .error (.mfaRequired _ _ _) => delay ≤ payloadTtl
    | .error exc =>
        exc.http = some (500, .internalError) ∧
          policyAudit (mergeMetadata job.metadata exc.metadata) .failed = .ok ()
  else delay ≤ payloadTtl

/-! ## One run of a job -/

/-- How a run that got the lock ends. -/
def ended (metadata : Option Dict) : Except Exc Dict → Except Exc Dict
  | .ok result =>
      match resultMetadata result with
      | .error exc => .error exc
      | .ok added =>
          match policyAudit (mergeMetadata metadata (some added)) .completed with
          | .error exc => .error exc
          | .ok () => .ok result
  | .error (.mfaRequired site mfaType sessionId) => .error (.mfaRequired site mfaType sessionId)
  | .error exc =>
      match policyAudit (mergeMetadata metadata exc.metadata) .failed with
      | .error exc' => .error exc'
      | .ok () => .error exc

/-- A run whose executor raised raises. -/
theorem ended_error (metadata : Option Dict) (exc : Exc) :
    ∃ exc', ended metadata (.error exc) = .error exc' := by
  unfold ended
  split
  · rename_i h
    exact absurd h (by simp)
  · exact ⟨_, rfl⟩
  · split <;> exact ⟨_, rfl⟩

/-! ### Exceptions of the bookkeeping -/

theorem len_error {v : Json} {exc : Exc} (h : len v = .error exc) :
    ∃ message, exc = .other message := by
  cases v <;> simp only [len, reduceCtorEq, Except.error.injEq] at h <;> exact ⟨_, h.symm⟩

theorem resultMetadata_error {result : Dict} {exc : Exc} (h : resultMetadata result = .error exc) :
    ∃ message, exc = .other message := by
  have hpolicy : policyMetadata result = .error exc := by
    cases hp : policyMetadata result with
    | error e =>
        simp only [resultMetadata, hp] at h
        exact h
    | ok policy =>
        simp only [resultMetadata, hp] at h
        exact absurd h (by simp [bind, Except.bind, pure, Except.pure])
  unfold policyMetadata at hpolicy
  split at hpolicy
  · split at hpolicy
    · rename_i policy _
      cases hlen : len ((policy.lookup "blocked_actions").getD (.arr [])) with
      | error e =>
          simp only [hlen] at hpolicy
          exact Except.error.inj hpolicy ▸ len_error hlen
      | ok n =>
          simp only [hlen] at hpolicy
          exact absurd hpolicy (by simp [bind, Except.bind, pure, Except.pure])
    · exact absurd hpolicy (by simp)
  · exact absurd hpolicy (by simp)

theorem policyAudit_error {metadata : Option Dict} {status : Status} {exc : Exc}
    (h : policyAudit metadata status = .error exc) : ∃ message, exc = .other message := by
  unfold policyAudit at h
  split at h
  · rename_i policy _
    cases hlen : len ((policy.lookup "blocked_actions").getD (.arr [])) with
    | error e =>
        simp only [hlen] at h
        exact Except.error.inj h ▸ len_error hlen
    | ok n =>
        simp only [hlen] at h
        exact absurd h (by simp [bind, Except.bind, pure, Except.pure])
  · exact absurd h (by simp)

/-- The row that a run leaves which started at `t` and whose executor came back
at `t'`. -/
def leftRow (job : Job) (metadata : Option Dict) (t t' : Nat) : Except Exc Dict → Job
  | .ok result =>
      match resultMetadata result with
      | .error _ => applyJobState job (runningState t)
      | .ok added =>
          applyJobState (applyJobState job (runningState t))
            (completedState t' (mergeMetadata metadata (some added)) result)
  | .error exc =>
      applyJobState (applyJobState job (runningState t))
        (raisedState t' (applyJobState job (runningState t)) metadata exc)

section

variable {env : Env} (henv : Reliable env)
include henv

theorem recordPolicyAudit_after (metadata : Option Dict) (status : Status) (w : World) :
    after (recordPolicyAudit env metadata status) w = (policyAudit metadata status, w) := by
  unfold recordPolicyAudit
  rw [henv.policyAudit]
  rcases policyAudit metadata status with exc | ⟨⟩ <;> rfl

theorem removeSession_after (sessionId : Option String) (w : World) :
    ∃ sessions, after (removeSession env sessionId) w =
      (.ok ⟨⟩, { w with mfaSessions := sessions }) := by
  unfold removeSession
  rw [henv.removeSession]
  exact ⟨_, rfl⟩

theorem releaseScopeLock_after (scope : String) (w : World) :
    after (releaseScopeLock env scope) w =
      (.ok ⟨⟩, { w with heldScopes := w.heldScopes.erase scope }) := by
  unfold releaseScopeLock
  rw [henv.redis]
  rfl

theorem completeJob_after (job : Job) (metadata : Option Dict) (result : Dict) (w : World) :
    ∃ v, after (completeJob env job metadata result) w = (ended metadata (.ok result), v) ∧
      v.jobs = match resultMetadata result with
        | .error _ => w.jobs
        | .ok added =>
            w.jobs.put (applyJobState job
              (completedState w.now (mergeMetadata metadata (some added)) result)) := by
  unfold completeJob
  cases hmeta : resultMetadata result with
  | error exc => exact ⟨w, by simp only [ended, hmeta, after_throw], rfl⟩
  | ok added =>
      simp only [ended, hmeta, after_bind, writeState, persistJob, after_get, after_modify,
        recordPolicyAudit_after henv]
      rcases haudit : policyAudit (mergeMetadata metadata (some added)) .completed with exc | ⟨⟩
      · exact ⟨_, rfl, rfl⟩
      · obtain ⟨sessions, hremove⟩ := removeSession_after henv job.sessionId
          { w with jobs := w.jobs.put (applyJobState job
            (completedState w.now (mergeMetadata metadata (some added)) result)) }
        simp only [hremove, after_pure]
        exact ⟨_, rfl, rfl⟩

theorem handleRaised_after {floatRepr : String → String} {exc : Exc}
    (hexc : Outcome floatRepr (.error exc)) (job : Job) (metadata : Option Dict) (w : World) :
    ∃ v, after (handleRaised env job metadata exc) w = (ended metadata (.error exc), v) ∧
      v.jobs = w.jobs.put (applyJobState job (raisedState w.now job metadata exc)) := by
  cases exc with
  | cancelled | other => exact absurd hexc (by simp [Outcome])
  | mfaRequired site mfaType sessionId => exact ⟨_, rfl, rfl⟩
  | concurrentAccess | plaidify =>
      obtain ⟨sessions, hremove⟩ := removeSession_after henv job.sessionId w
      simp only [handleRaised, writeRaised, after_bind, hremove, writeState, persistJob, after_get,
        after_modify, recordPolicyAudit_after henv, ended]
      rcases policyAudit _ .failed with exc' | ⟨⟩
      · exact ⟨_, rfl, rfl⟩
      · exact ⟨_, rfl, rfl⟩

theorem executeExistingJob_after (hlock : env.acquireScopeLock = .acquired)
    {floatRepr : String → String} {outcome : Except Exc Dict} (hout : Outcome floatRepr outcome)
    (job : Job) (kwargs : Dict) (metadata : Option Dict) (w : World)
    (hw : w.jobs.get? job.id = some job) :
    ∃ v, after (executeExistingJob env job (fun _ => outcome) kwargs metadata) w =
        (ended metadata outcome, v) ∧
      v.jobs.get? job.id = some (leftRow job metadata w.now (w.now + env.elapsed) outcome) := by
  have hrunning : (w.jobs.put (applyJobState job (runningState w.now))).get? job.id =
      some (applyJobState job (runningState w.now)) := by
    have hid : w.jobs.get? (applyJobState job (runningState w.now)).id = some job := hw
    exact Table.get?_put hid
  have hput : ∀ {jobs : Table Job Job.id} {row : Job} (state : JobState),
      jobs.get? job.id = some row → row.id = job.id →
      (jobs.put (applyJobState row state)).get? job.id = some (applyJobState row state) := by
    intro jobs row state hget hid
    rw [Table.get?_put_eq, applyJobState_id, hid, if_pos rfl, hget, Option.map_some]
  simp only [executeExistingJob, lockOrBlock, acquireScopeLock, hlock, after_bind, after_tryCatch,
    after_modify, after_get, persistJob, after_tryFinally, awaitExecutor]
  rcases outcome with exc | result
  · obtain ⟨v, hend, hjobs⟩ := handleRaised_after henv hout (applyJobState job (runningState w.now))
      metadata { w with
        now := w.now + env.elapsed
        jobs := w.jobs.put (applyJobState job (runningState w.now))
        heldScopes := job.lockScope :: w.heldScopes }
    refine ⟨{ v with heldScopes := v.heldScopes.erase job.lockScope }, ?_, ?_⟩
    · obtain ⟨e, he⟩ := ended_error metadata exc
      simp only [after_throw, hend, he, releaseScopeLock_after henv]
      rfl
    · show v.jobs.get? job.id = _
      rw [hjobs]
      exact hput _ hrunning rfl
  · simp only [after_pure, releaseScopeLock_after henv]
    obtain ⟨v, hend, hjobs⟩ := completeJob_after henv (applyJobState job (runningState w.now))
      metadata result { w with
        now := w.now + env.elapsed
        jobs := w.jobs.put (applyJobState job (runningState w.now))
        heldScopes := (job.lockScope :: w.heldScopes).erase job.lockScope }
    refine ⟨v, hend, ?_⟩
    rw [hjobs]
    simp only [leftRow]
    split
    · exact hrunning
    · exact hput _ hrunning rfl

theorem executeBackgroundJob_after (hlock : env.acquireScopeLock = .acquired)
    {floatRepr : String → String} {outcome : Except Exc Dict} (hout : Outcome floatRepr outcome)
    {job : Job} (kwargs : Dict) {w : World} (hw : w.jobs.get? job.id = some job) :
    ∃ v, after (executeBackgroundJob env job.id (fun _ => outcome) kwargs) w =
        (ended job.metadata outcome, v) ∧
      v.jobs.get? job.id = some (leftRow job job.metadata w.now (w.now + env.elapsed) outcome) := by
  simp only [executeBackgroundJob, after_bind, after_get, hw]
  exact executeExistingJob_after henv hlock hout job kwargs job.metadata w hw

omit henv in
/-- Without the lock nothing is called and the row is blocked. -/
theorem executeBackgroundJob_busy (hlock : env.acquireScopeLock = .busy) (executor : Executor)
    {job : Job} (kwargs : Dict) {w : World} (hw : w.jobs.get? job.id = some job) :
    after (executeBackgroundJob env job.id executor kwargs) w =
      (.error (.concurrentAccess (siteOfScope job.lockScope)),
        { w with jobs := w.jobs.put (applyJobState job (blockedState w.now job.lockScope)) }) := by
  simp only [executeBackgroundJob, after_bind, after_get, hw, executeExistingJob, lockOrBlock,
    acquireScopeLock, hlock, after_tryCatch, after_throw, writeState, persistJob, after_modify]

omit henv in
theorem markJobFailed_after (message : String) {jobId : String} {w : World} {row : Job}
    (hw : w.jobs.get? jobId = some row) :
    ∃ v, after (markJobFailed jobId message) w = (.ok ⟨⟩, v) ∧
      v.jobs.get? jobId = some (if row.status.unfinished then
        applyJobState row (failedState w.now message) else row) := by
  simp only [markJobFailed, after_bind, after_get, hw]
  split
  · refine ⟨_, rfl, ?_⟩
    obtain ⟨-, rfl⟩ := Table.get?_mem hw
    have hid : w.jobs.get? (applyJobState row (failedState w.now message)).id = some row := hw
    exact Table.get?_put hid
  · exact ⟨w, rfl, hw⟩

theorem ackDispatchedMessage_after (messageId : String) (w : World) :
    ∃ v, after (ackDispatchedMessage env messageId) w = (.ok ⟨⟩, v) ∧ v.jobs = w.jobs := by
  simp only [ackDispatchedMessage, callRedis, henv.redis, after_bind, after_modify]
  exact ⟨_, rfl, rfl⟩

theorem finishMessage_after (jobId messageId : String) (w : World) :
    ∃ v, after (finishMessage env jobId messageId) w = (.ok ⟨⟩, v) ∧ v.jobs = w.jobs := by
  simp only [finishMessage, deleteDispatchPayload, callRedis, henv.redis, after_bind, after_modify]
  exact ackDispatchedMessage_after henv messageId _

/-! ### The row that a worker leaves -/

omit henv in
/-- The row after the `except` clauses of `process_dispatched_access_job`, of a
run that ended with `result`. -/
def processedRow (now : Nat) (row : Job) : Except Exc Dict → Job
  | .ok _ | .error (.mfaRequired _ _ _) | .error .cancelled => row
  | .error exc =>
      if row.status.unfinished then applyJobState row (failedState now exc.message) else row

omit henv in
theorem handled_after {jobId : String} {payload : Payload} {executor : Executor} {kwargs : Dict}
    (hprepare : prepareExecutor env payload = .ok (executor, kwargs)) {u v : World}
    {result : Except Exc Dict}
    (hrun : after (executeBackgroundJob env jobId executor kwargs) u = (result, v)) {row : Job}
    (hrow : v.jobs.get? jobId = some row) :
    (after (tryCatch (runPayload env jobId payload) (handleProcessing jobId)) u).2.jobs.get? jobId =
      some (processedRow v.now row result) := by
  simp only [after_tryCatch, runPayload, hprepare, after_bind, hrun]
  rcases result with exc | result
  · cases exc with
    | cancelled | mfaRequired => exact hrow
    | concurrentAccess | plaidify | other =>
        simp only [handleProcessing]
        rcases markJobFailed_after _ hrow with ⟨z, hz, hget⟩
        rw [hz]
        exact hget
  · exact hrow

theorem processed_after {jobId : String} (messageId : String) {payload : Payload} {executor : Executor}
    {kwargs : Dict} (hprepare : prepareExecutor env payload = .ok (executor, kwargs))
    {u v : World} (hload : loadDispatchPayload u.payloads u.now jobId = some payload)
    {result : Except Exc Dict}
    (hrun : after (executeBackgroundJob env jobId executor kwargs) u = (result, v)) {row : Job}
    (hrow : v.jobs.get? jobId = some row) :
    (after (processDispatchedAccessJob env (some ⟨messageId, some jobId⟩)) u).2.jobs.get? jobId =
      some (processedRow v.now row result) := by
  have hhandled := handled_after hprepare hrun hrow
  simp only [processDispatchedAccessJob, callRedis, henv.redis, after_bind, after_modify, id_eq,
    after_get, hload, after_tryFinally]
  rcases hend : after (tryCatch (runPayload env jobId payload) (handleProcessing jobId)) u
    with ⟨r, z⟩
  rw [hend] at hhandled
  obtain ⟨z', hfinish, hjobs⟩ := finishMessage_after henv jobId messageId z
  rw [← hjobs] at hhandled
  rcases r with exc | ⟨⟩
  · simp only [hfinish]
    exact hhandled
  · simp only [hfinish]
    exact hhandled

theorem expired_after {jobId : String} (messageId : String) {u : World}
    (hload : loadDispatchPayload u.payloads u.now jobId = none) {row : Job}
    (hrow : u.jobs.get? jobId = some row) (hun : row.status.unfinished = true) :
    ∃ now message,
      (after (processDispatchedAccessJob env (some ⟨messageId, some jobId⟩)) u).2.jobs.get? jobId =
        some (applyJobState row (failedState now message)) := by
  obtain ⟨z, hz, hget⟩ :=
    markJobFailed_after "Access job dispatch payload expired before execution." hrow
  obtain ⟨z', hack, hjobs⟩ := ackDispatchedMessage_after henv messageId z
  refine ⟨u.now, "Access job dispatch payload expired before execution.", ?_⟩
  simp only [processDispatchedAccessJob, callRedis, henv.redis, after_bind, after_modify, id_eq,
    after_get, hload, hz, hack]
  rw [if_pos hun] at hget
  show z'.jobs.get? jobId = _
  rw [hjobs, hget]

end

/-! ## What the observer makes of it -/

section

variable {floatRepr : String → String}

variable {jobId : String} {w : World} {row : Job}

theorem pollJob_unfinished (floatRepr : String → String) (hrow : w.jobs.get? jobId = some row)
    (hun : row.status.unfinished = true) : pollJob floatRepr jobId w = none := by
  cases hstatus : row.status with
  | pending | running => simp only [pollJob, hrow, hstatus]
  | _ => simp [hstatus, Status.unfinished] at hun

theorem pollJob_failed (floatRepr : String → String) (hrow : w.jobs.get? jobId = some row)
    (hstatus : row.status = .failed) :
    ∃ message, pollJob floatRepr jobId w =
      some (.error (.plaidify message 500 .internalError none)) := by
  simp only [pollJob, hrow, hstatus]
  exact ⟨_, rfl⟩

theorem pollJob_blocked (floatRepr : String → String) (hrow : w.jobs.get? jobId = some row)
    (hstatus : row.status = .blocked) :
    ∃ message, pollJob floatRepr jobId w =
      some (.error (.plaidify message 409 .internalError none)) := by
  simp only [pollJob, hrow, hstatus]
  exact ⟨_, rfl⟩

theorem pollJob_mfaRequired (hrow : w.jobs.get? jobId = some row)
    (hstatus : row.status = .mfaRequired) {dict : Dict} (hmeta : row.metadata = some dict)
    (hdict : Json.Writable floatRepr (.obj dict)) :
    ∃ exc, pollJob floatRepr jobId w = some (.error exc) ∧
      exc.http = some (403, .internalError) := by
  refine ⟨mfaRequiredOf floatRepr row, by simp only [pollJob, hrow, hstatus], ?_⟩
  have hobj : ∃ kvs, ((deserializeMetadata floatRepr (columnText row.metadata)).filter
      Json.truthy).getD (.obj []) = .obj kvs := by
    rw [hmeta, deserialize_columnText hdict, Json.sortKeys]
    cases hkvs : (Json.sortMembers dict).insertionSort Json.KeyLe with
    | nil => exact ⟨[], rfl⟩
    | cons m kvs => exact ⟨m :: kvs, rfl⟩
  obtain ⟨kvs, hkvs⟩ := hobj
  simp only [mfaRequiredOf, hkvs, mfaTypeOf]
  cases (kvs.lookup "mfa_type").getD (.str "unknown") <;> rfl

theorem pollJob_completed (hrow : w.jobs.get? jobId = some row)
    (hstatus : row.status = .completed) {result : Dict}
    (hresult : row.result = serializeMetadata result)
    (hjson : Json.Writable floatRepr (.obj result)) :
    ∃ seen, pollJob floatRepr jobId w = some (.ok seen) ∧
      (Json.Same (.obj result) seen ↔ result ≠ []) := by
  simp only [pollJob, hrow, hstatus, hresult, serializeMetadata]
  refine ⟨_, rfl, ?_⟩
  cases result with
  | nil =>
      -- an empty result is stored as null, and null is read as a result of its own
      refine iff_of_false ?_ (by simp)
      simp [columnText, deserializeMetadata, Json.Same, Json.sortKeys, Json.sortMembers]
  | cons m result =>
      refine iff_of_true ?_ (by simp)
      simp only [List.isEmpty_cons, Bool.false_eq_true, if_false, deserialize_columnText hjson]
      have hlen : ((Json.sortMembers (m :: result)).insertionSort Json.KeyLe).length ≠ 0 := by
        rw [List.length_insertionSort, Json.sortMembers_eq_map]
        simp
      have htruthy : (Json.sortKeys (.obj (m :: result))).truthy = true := by
        simpa [Json.sortKeys, Json.truthy, List.isEmpty_iff, ← List.length_eq_zero_iff] using hlen
      simp only [Option.filter, htruthy]
      exact Json.same_sortKeys _

end

/-! ## Interchangeability -/

theorem dictInsert_isEmpty (d : Dict) (m : String × Json) :
    (Json.dictInsert d m).isEmpty = false := by
  unfold Json.dictInsert
  split
  · rename_i hmem
    cases d with
    | nil => exact absurd hmem (by simp)
    | cons kv d => rfl
  · cases d <;> rfl

/-- The metadata of a row that waits for MFA. -/
theorem mfaMetadata {floatRepr : String → String} {metadata : Option Dict}
    (hmeta : ∀ dict, metadata = some dict → Json.Writable floatRepr (.obj dict))
    (mfaType : String) :
    ∃ dict, (mergeMetadata metadata (some [("mfa_type", .str mfaType)])).elim metadata
        serializeMetadata = some dict ∧ Json.Writable floatRepr (.obj dict) := by
  have hold : Json.Writable floatRepr (.obj (metadata.getD [])) := by
    cases metadata with
    | none => exact ⟨List.nodup_nil, trivial⟩
    | some dict => exact hmeta dict rfl
  refine ⟨Json.dictInsert (metadata.getD []) ("mfa_type", .str mfaType), ?_, ?_⟩
  · simp [mergeMetadata, serializeMetadata, dictInsert_isEmpty]
  · exact hold.dictInsert trivial

/-- Which runs that got the lock end like a job that the observer finds failed. -/
theorem ended_sameFailed_iff {floatRepr : String → String} {outcome : Except Exc Dict}
    (hout : Outcome floatRepr outcome) (metadata : Option Dict) (message : String) :
    SameOutcome (ended metadata outcome) (.error (.plaidify message 500 .internalError none)) ↔
      match outcome with
      | .ok _ | .error (.mfaRequired _ _ _) => False
      | .error exc => exc.http = some (500, .internalError) ∧
          policyAudit (mergeMetadata metadata exc.metadata) .failed = .ok () := by
  rcases outcome with exc | result
  · cases exc with
    | cancelled | other => exact absurd hout (by simp [Outcome])
    | mfaRequired => simp [ended, SameOutcome, Exc.http]
    | concurrentAccess | plaidify =>
        simp only [ended]
        rcases haudit : policyAudit _ .failed with exc' | ⟨⟩
        · obtain ⟨message', rfl⟩ := policyAudit_error haudit
          simp [SameOutcome, Exc.http]
        · simp [SameOutcome, Exc.http]
  · refine iff_of_false ?_ id
    simp only [ended]
    cases hadded : resultMetadata result with
    | error exc =>
        obtain ⟨message', rfl⟩ := resultMetadata_error hadded
        simp [SameOutcome, Exc.http]
    | ok added =>
        rcases haudit : policyAudit (mergeMetadata metadata (some added)) .completed with exc | ⟨⟩
        · obtain ⟨message', rfl⟩ := policyAudit_error haudit
          simp [SameOutcome, Exc.http, haudit]
        · simp [SameOutcome, haudit]

/-- The row of a run that got the lock and whose executor ended with `outcome`,
as the observer sees it. -/
theorem pollJob_ended {floatRepr : String → String} {outcome : Except Exc Dict}
    (hout : Outcome floatRepr outcome) {job : Job}
    (hmeta : ∀ dict, job.metadata = some dict → Json.Writable floatRepr (.obj dict))
    {t t' now : Nat} {w : World}
    (hrow : w.jobs.get? job.id = some (processedRow now
      (leftRow job job.metadata t t' outcome) (ended job.metadata outcome))) :
    ∃ seen, pollJob floatRepr job.id w = some seen ∧
      (SameOutcome (ended job.metadata outcome) seen ↔
        match outcome with
        | .ok result => result ≠ [] ∧ ∃ added, resultMetadata result = .ok added ∧
            policyAudit (mergeMetadata job.metadata (some added)) .completed = .ok ()
        | .error (.mfaRequired _ _ _) => True
        | .error exc => exc.http = some (500, .internalError) ∧
            policyAudit (mergeMetadata job.metadata exc.metadata) .failed = .ok ()) := by
  rcases outcome with exc | result
  · -- a row that is failed already is left alone
    have hfailed : ∀ row : Job, row.status = .failed →
        processedRow now row (ended job.metadata (.error exc)) = row := by
      intro row hstatus
      obtain ⟨e, he⟩ := ended_error job.metadata exc
      rw [he]
      cases e <;> simp [processedRow, hstatus, Status.unfinished]
    cases exc with
    | cancelled | other => exact absurd hout (by simp [Outcome])
    -- the row asks for the code like the exception
    | mfaRequired site mfaType sessionId =>
        obtain ⟨dict, hdict, hwritable⟩ := mfaMetadata hmeta mfaType
        obtain ⟨exc, hpoll, hhttp⟩ := pollJob_mfaRequired hrow rfl hdict hwritable
        exact ⟨_, hpoll, iff_of_true hhttp.symm trivial⟩
    -- the row is failed, and an observer sees the same failure
    | concurrentAccess | plaidify =>
        rw [leftRow, hfailed _ rfl] at hrow
        obtain ⟨message, hpoll⟩ := pollJob_failed floatRepr hrow rfl
        exact ⟨_, hpoll, ended_sameFailed_iff hout job.metadata message⟩
  · cases hadded : resultMetadata result with
    | error exc =>
        -- the run leaves the row running, and the worker marks it failed
        obtain ⟨message, rfl⟩ := resultMetadata_error hadded
        simp only [leftRow, ended, hadded] at hrow ⊢
        obtain ⟨message', hpoll⟩ := pollJob_failed floatRepr hrow rfl
        exact ⟨_, hpoll, by simp [SameOutcome, Exc.http]⟩
    | ok added =>
        simp only [leftRow, ended, hadded] at hrow ⊢
        rcases haudit : policyAudit (mergeMetadata job.metadata (some added)) .completed
          with exc | ⟨⟩
        · -- the row is completed, and then the audit raises
          obtain ⟨message, rfl⟩ := policyAudit_error haudit
          simp only [haudit] at hrow ⊢
          obtain ⟨seen, hpoll, -⟩ := pollJob_completed hrow rfl rfl hout
          exact ⟨_, hpoll, by simp [SameOutcome, haudit]⟩
        · -- the audit passes, and the observer gets the result
          simp only [haudit] at hrow ⊢
          obtain ⟨seen, hpoll, hsame⟩ := pollJob_completed hrow rfl rfl hout
          exact ⟨_, hpoll, by simp [SameOutcome, haudit, hsame]⟩

section

variable {env : Env} (henv : Reliable env) {floatRepr : String → String}
include henv

/-- **In-process and dispatched execution** of a job that was just created, with
an executor that ends alike in both. The dispatched task ends, and it ends like
the in-process one exactly when the outcome is one that the row carries. -/
theorem interchangeable_iff (hlock : env.acquireScopeLock ≠ .cancelled)
    {outcome : Except Exc Dict} (hout : Outcome floatRepr outcome) {job : Job} {w : World}
    (hjob : w.jobs.get? job.id = some job) (hpending : job.status = .pending)
    (hmeta : ∀ dict, job.metadata = some dict → Json.Writable floatRepr (.obj dict))
    {payload : Payload} {workerKwargs : Dict}
    (hprepare : prepareExecutor env payload = .ok (fun _ => outcome, workerKwargs))
    (executorKwargs : Dict) (messageId : String) (delay : Nat) {polls : List World}
    (hpolls : ∀ v ∈ polls, ∃ row, v.jobs.get? job.id = some row ∧ row.status.unfinished = true) :
    ∃ seen, waitForTerminalJobResult floatRepr job.id
        (polls ++ [afterDispatch env job.id messageId payload delay w]) = some seen ∧
      (SameOutcome (awaitInProcess env job.id (fun _ => outcome) executorKwargs w) seen ↔
        Carried env job delay outcome) := by
  -- while the row is unfinished the observer sees nothing
  have hnone : polls.findSome? (pollJob floatRepr job.id) = none := by
    refine List.findSome?_eq_none_iff.mpr fun v hv => ?_
    obtain ⟨row, hrow, hun⟩ := hpolls v hv
    exact pollJob_unfinished floatRepr hrow hun
  simp only [waitForTerminalJobResult, List.findSome?_append, hnone, Option.none_or,
    List.findSome?_singleton, afterDispatch]
  generalize hu : claimDispatchedMessage messageId delay
    (queueDispatchedAccessJob job.id messageId payload w) = u
  -- the job is still as it was when the message is claimed
  have hujob : u.jobs.get? job.id = some job := by
    rw [← hu]
    exact hjob
  -- its payload is there within its lifetime
  have hload : loadDispatchPayload u.payloads u.now job.id =
      if delay ≤ payloadTtl then some payload else none := by
    subst hu
    simp only [claimDispatchedMessage, queueDispatchedAccessJob, loadDispatchPayload,
      Table.get?_set, if_true]
    exact if_congr (by omega) rfl rfl
  cases hanswer : env.acquireScopeLock with
  | cancelled => exact absurd hanswer hlock
  | acquired =>
      obtain ⟨v, hinProcess, -⟩ := executeBackgroundJob_after henv hanswer hout executorKwargs hjob
      simp only [awaitInProcess, hinProcess, Carried, hanswer, if_true]
      -- the lock is got in both; the worker may still find its payload expired
      by_cases hdelay : delay ≤ payloadTtl
      · obtain ⟨v', hrun, hrow⟩ := executeBackgroundJob_after henv hanswer hout workerKwargs hujob
        rw [if_pos hdelay] at hload
        obtain ⟨seen, hpoll, hsame⟩ :=
          pollJob_ended hout hmeta (processed_after henv messageId hprepare hload hrun hrow)
        refine ⟨seen, hpoll, hsame.trans ?_⟩
        -- what the row carries decides, for each kind of ending
        rcases outcome with exc | result
        · cases exc <;> simp [hdelay]
        · simp [hdelay]
      · -- the payload has expired, and the worker marks the job failed
        rw [if_neg hdelay] at hload
        obtain ⟨now, message, hrow⟩ := expired_after henv messageId hload hujob
          (by rw [hpending]; rfl)
        obtain ⟨message', hpoll⟩ := pollJob_failed floatRepr hrow rfl
        refine ⟨_, hpoll, (ended_sameFailed_iff hout _ _).trans ?_⟩
        rcases outcome with exc | result
        · cases exc <;> simp [hdelay]
        · simp [hdelay]
  | busy =>
      have hinProcess := executeBackgroundJob_busy hanswer (fun _ => outcome) executorKwargs hjob
      simp only [awaitInProcess, hinProcess, Carried, hanswer, reduceCtorEq, if_false]
      -- the lock is busy in both, and both report it the same way
      by_cases hdelay : delay ≤ payloadTtl
      · have hrun := executeBackgroundJob_busy hanswer (fun _ => outcome) workerKwargs hujob
        rw [if_pos hdelay] at hload
        have hid : u.jobs.get? (applyJobState job (blockedState u.now job.lockScope)).id =
            some job := hujob
        have hrow := processed_after henv messageId hprepare hload hrun (Table.get?_put hid)
        obtain ⟨message, hpoll⟩ := pollJob_blocked floatRepr hrow rfl
        exact ⟨_, hpoll, iff_of_true rfl hdelay⟩
      · -- unless the worker does not get that far
        rw [if_neg hdelay] at hload
        obtain ⟨now, message, hrow⟩ := expired_after henv messageId hload hujob
          (by rw [hpending]; rfl)
        obtain ⟨message', hpoll⟩ := pollJob_failed floatRepr hrow rfl
        exact ⟨_, hpoll, iff_of_false (by simp [SameOutcome, Exc.http]) hdelay⟩

end

/-! ### Two jobs -/

/-- Everything works, and the executor ends with `outcome`. -/
def workingEnv (outcome : Except Exc Dict) : Env where
  executorOverrides := []
  connectToSite := fun _ => outcome
  elapsed := 1000
  decryptCredential := fun _ => .error "Failed to decrypt credential"
  acquireScopeLock := .acquired
  removeSession := .done
  policyAudit := policyAudit
  redis := fun _ => none

theorem workingEnv_reliable (outcome : Except Exc Dict) : Reliable (workingEnv outcome) :=
  ⟨fun _ => rfl, rfl, rfl⟩

/-- The job was just created. -/
def newWorld : World where
  now := 0
  jobs := bankJobs
  payloads := .empty
  stream := []
  unacked := []
  heldScopes := []
  mfaSessions := []

/-- What `AuthenticationError("bank")` is. -/
def authenticationError : Exc :=
  .plaidify "Authentication failed for site: bank. Check your credentials." 401
    .invalidCredentials none

/-- Wrong credentials: 401 and `invalid_credentials` in-process, 500 and
`internal_error` from a worker. -/
theorem authenticationError_not_interchangeable :
    Reliable (workingEnv (.error authenticationError)) ∧
      ∃ seen, waitForTerminalJobResult id "ajob-1"
          [afterDispatch (workingEnv (.error authenticationError)) "ajob-1" "1-0"
            ⟨"connect_to_site", []⟩ 0 newWorld] = some seen ∧
        ¬ SameOutcome (awaitInProcess (workingEnv (.error authenticationError)) "ajob-1"
          (fun _ => .error authenticationError) [] newWorld) seen := by
  refine ⟨workingEnv_reliable _, _, rfl, ?_⟩
  show ¬ authenticationError.http = some (500, .internalError)
  decide

/-- A connection that succeeds looks the same in both modes. -/
theorem connected_interchangeable :
    ∃ seen, waitForTerminalJobResult id "ajob-1"
        [afterDispatch (workingEnv (.ok [("status", .str "connected")])) "ajob-1" "1-0"
          ⟨"connect_to_site", []⟩ 0 newWorld] = some seen ∧
      SameOutcome (awaitInProcess (workingEnv (.ok [("status", .str "connected")])) "ajob-1"
        (fun _ => .ok [("status", .str "connected")]) [] newWorld) seen := by
  have hout : Outcome id (.ok [("status", .str "connected")]) := by
    simp [Outcome, Json.Writable, Json.WritableMembers]
  have hprepare : prepareExecutor (workingEnv (.ok [("status", .str "connected")]))
      ⟨"connect_to_site", []⟩ = .ok (fun _ => .ok [("status", .str "connected")], []) := rfl
  have hjob : newWorld.jobs.get? bankJob.id = some bankJob := rfl
  obtain ⟨seen, hseen, hsame⟩ := interchangeable_iff (workingEnv_reliable _)
    (by simp [workingEnv]) hout hjob rfl (by simp [bankJob]) hprepare [] "1-0" 0
    (List.forall_mem_nil _)
  refine ⟨seen, hseen, hsame.mpr ?_⟩
  simp only [Carried, workingEnv, if_true]
  exact ⟨by decide, by simp, _, rfl, rfl⟩

end Plaidify.AccessJobs.Modes
