import Plaidify.Lib.Json
import Plaidify.Lib.Table

/-!
# Access jobs

The rows of `access_jobs` and what `src/src/access_jobs.py` writes into them,
with the exceptions of `src/src/exceptions.py` that a job can end with.

The two JSON columns are carried as the dictionaries they hold.
-/

namespace Plaidify.AccessJobs

/-- A Python dictionary with string keys. -/
abbrev Dict := List (String × Json)

/-- The values of `AccessJob.status`. -/
inductive Status where
  | pending
  | running
  | completed
  | failed
  | blocked
  | cancelled
  | mfaRequired
deriving Repr, DecidableEq

/-- `status in {"pending", "running"}`. -/
def Status.unfinished : Status → Bool
  | .pending | .running => true
  | _ => false

/-- A row of `access_jobs`. -/
structure Job where
  id : String
  site : String
  status : Status
  lockScope : String
  sessionId : Option String
  metadata : Option Dict
  result : Option Dict
  errorMessage : Option String
  startedAt : Option Nat
  completedAt : Option Nat

/-! ## Metadata -/

/-- `_serialize_metadata`: an empty dictionary is stored as null. -/
def serializeMetadata (metadata : Dict) : Option Dict :=
  if metadata.isEmpty then none else some metadata

/-- `_merge_metadata` of two parts. -/
def mergeMetadata (metadata update : Option Dict) : Option Dict :=
  let merged := (update.getD []).foldl Json.dictInsert (metadata.getD [])
  if merged.isEmpty then none else some merged

/-! ## Exceptions -/

/-- `LinkErrorCode`. -/
inductive LinkErrorCode where
  | invalidCredentials
  | mfaTimeout
  | institutionDown
  | rateLimited
  | unsupportedSite
  | networkError
  | internalError
deriving Repr, DecidableEq

/-- What a run of a job can raise. `asyncio.CancelledError` is no `Exception`:
only its own `except` clause stops it. -/
inductive Exc where
  | cancelled
  | mfaRequired (site mfaType sessionId : String)
  | concurrentAccess (site : String)
  /-- Any other `PlaidifyError`; `metadata` is the attribute some of them have. -/
  | plaidify (message : String) (statusCode : Nat) (errorCode : LinkErrorCode)
      (metadata : Option Dict)
  /-- Any other `Exception`. -/
  | other (message : String)

/-- `str(exc)`. -/
def Exc.message : Exc → String
  | .cancelled => ""
  | .mfaRequired site mfaType _ => s!"MFA required for site: {site} (type: {mfaType})"
  | .concurrentAccess site =>
      s!"Another access job is already in progress for site: {site}. " ++
        "Retry after the current session completes."
  | .plaidify message _ _ _ => message
  | .other message => message

/-- `getattr(exc, "metadata", None)`. -/
def Exc.metadata : Exc → Option Dict
  | .plaidify _ _ _ metadata => metadata
  | _ => none

/-- `exc.status_code` and `exc.error_code`, the answer of the handler for
`PlaidifyError`. Other exceptions have none. -/
def Exc.http : Exc → Option (Nat × LinkErrorCode)
  | .mfaRequired _ _ _ => some (403, .internalError)
  | .concurrentAccess _ => some (409, .internalError)
  | .plaidify _ statusCode errorCode _ => some (statusCode, errorCode)
  | .cancelled | .other _ => none

/-- `len(value)`. -/
def len : Json → Except Exc Nat
  | .str s => .ok s.length
  | .arr xs => .ok xs.length
  | .obj kvs => .ok kvs.length
  | .null => .error (.other "object of type 'NoneType' has no len()")
  | .bool _ => .error (.other "object of type 'bool' has no len()")
  | .int _ => .error (.other "object of type 'int' has no len()")
  | .float _ => .error (.other "object of type 'float' has no len()")

/-- The policy part of `_result_metadata`. The default of `policy.get` is
computed whether or not it is needed. -/
def policyMetadata (result : Dict) : Except Exc Dict :=
  match result.lookup "metadata" with
  | some (.obj responseMetadata) =>
      match responseMetadata.lookup "read_only_policy" with
      | some (.obj policy) => do
          let blocked ← len ((policy.lookup "blocked_actions").getD (.arr []))
          let count := (policy.lookup "blocked_action_count").getD (.int blocked)
          return [("read_only_policy", .obj policy), ("read_only_policy_blocked_count", count)]
      | _ => .ok []
  | _ => .ok []

/-- `_result_metadata`. -/
def resultMetadata (result : Dict) : Except Exc Dict := do
  let status :=
    match result.lookup "status" with
    | some status => [("result_status", status)]
    | none => []
  let data :=
    match result.lookup "data" with
    | some (.obj data) =>
        [("result_field_count", .int data.length),
          ("result_fields", .arr (((data.map Prod.fst).mergeSort (· ≤ ·)).map .str))]
    | _ => []
  let policy ← policyMetadata result
  return status ++ data ++ policy

/-! ## Writing a row -/

/-- The keyword arguments of `_apply_job_state`. -/
structure JobState where
  status : Status
  sessionId : Option String := none
  startedAt : Option Nat := none
  completedAt : Option Nat := none
  errorMessage : Option String := none
  metadata : Option Dict := none
  result : Option Dict := none

/-- `_apply_job_state`: what is not given stays. -/
def applyJobState (job : Job) (state : JobState) : Job :=
  { job with
    status := state.status
    sessionId := state.sessionId <|> job.sessionId
    startedAt := state.startedAt <|> job.startedAt
    completedAt := state.completedAt <|> job.completedAt
    errorMessage := state.errorMessage <|> job.errorMessage
    metadata := state.metadata.elim job.metadata serializeMetadata
    result := state.result.elim job.result serializeMetadata }

@[simp] theorem applyJobState_id (job : Job) (state : JobState) :
    (applyJobState job state).id = job.id := rfl

@[simp] theorem applyJobState_status (job : Job) (state : JobState) :
    (applyJobState job state).status = state.status := rfl

/-- `scope.split(":site:")[-1]`. -/
def siteOfScope (scope : String) : String :=
  ((scope.splitOn ":site:").getLast?).getD scope

/-- The state in which a job is left that did not get the lock of its scope. -/
def blockedState (now : Nat) (scope : String) : JobState :=
  { status := .blocked
    completedAt := some now
    errorMessage := some (Exc.concurrentAccess (siteOfScope scope)).message }

def runningState (now : Nat) : JobState :=
  { status := .running, startedAt := some now }

/-- The state that the `except` clauses around the executor write. -/
def raisedState (now : Nat) (job : Job) (metadata : Option Dict) : Exc → JobState
  | .cancelled =>
      { status := .cancelled
        completedAt := some now
        errorMessage := some "Access job cancelled before completion." }
  | .mfaRequired site mfaType sessionId =>
      { status := .mfaRequired
        -- `exc.session_id or job.session_id`
        sessionId := if sessionId = "" then job.sessionId else some sessionId
        completedAt := some now
        errorMessage := some (Exc.mfaRequired site mfaType sessionId).message
        metadata := mergeMetadata metadata (some [("mfa_type", .str mfaType)]) }
  | .other message =>
      { status := .failed
        completedAt := some now
        errorMessage := some message }
  | exc =>
      { status := .failed
        completedAt := some now
        errorMessage := some exc.message
        metadata := mergeMetadata metadata exc.metadata }

def completedState (now : Nat) (metadata : Option Dict) (result : Dict) : JobState :=
  { status := .completed
    completedAt := some now
    metadata := metadata
    result := some result }

/-- The state that `_mark_job_failed` writes. -/
def failedState (now : Nat) (message : String) : JobState :=
  { status := .failed
    completedAt := some now
    errorMessage := some message }

theorem raisedState_unfinished (now : Nat) (job : Job) (metadata : Option Dict) (exc : Exc) :
    (raisedState now job metadata exc).status.unfinished = false := by
  cases exc <;> rfl

/-! ## Dispatch payloads -/

/-- The JSON of a dispatch payload, as far as a worker reads it. -/
structure Payload where
  executor : String
  executorKwargs : Dict

/-- A payload key in Redis with its expiry. -/
structure PayloadEntry where
  jobId : String
  payload : Payload
  expiresAt : Nat

/-- `access_job_payload_ttl`, in milliseconds. -/
def payloadTtl : Nat := 3600 * 1000

/-- `_load_dispatch_payload`. -/
def loadDispatchPayload (payloads : Table PayloadEntry PayloadEntry.jobId) (now : Nat)
    (jobId : String) : Option Payload :=
  match payloads.get? jobId with
  | none => none
  | some entry => if now ≤ entry.expiresAt then some entry.payload else none

/-- Remove a key and return its value. -/
def dictPop (dict : Dict) (key : String) : Option Json × Dict :=
  (dict.lookup key, dict.filter fun m => m.1 != key)

section

-- `decrypt_credential`, or the text of the exception it raises
variable (decryptCredential : Json → Except String String)

/-- One round of the loop of `_decrypt_dispatch_kwargs`. -/
def decryptField (fieldName : String) (kwargs : Dict) : Except String Dict :=
  match dictPop kwargs (fieldName ++ "_encrypted") with
  | (none, kwargs) | (some .null, kwargs) => .ok kwargs
  | (some value, kwargs) => do
      let clear ← decryptCredential value
      return Json.dictInsert kwargs (fieldName, .str clear)

/-- `_decrypt_dispatch_kwargs`. -/
def decryptDispatchKwargs (kwargs : Dict) : Except String Dict := do
  let kwargs ← decryptField decryptCredential "username" kwargs
  decryptField decryptCredential "password" kwargs

end

/-- `execution_kwargs.setdefault("session_id", job.session_id)`. -/
def executionKwargs (job : Job) (kwargs : Dict) : Dict :=
  if (kwargs.lookup "session_id").isSome then kwargs
  else kwargs ++ [("session_id", job.sessionId.elim .null .str)]

/-- A job of user 1 at a bank that was just created. -/
def bankJob : Job where
  id := "ajob-1"
  site := "bank"
  status := .pending
  lockScope := "user:1:site:bank"
  sessionId := some "access-1"
  metadata := none
  result := none
  errorMessage := none
  startedAt := none
  completedAt := none

/-- A table with this job alone. -/
def bankJobs : Table Job Job.id :=
  ⟨[bankJob], List.nodup_singleton _⟩

end Plaidify.AccessJobs
