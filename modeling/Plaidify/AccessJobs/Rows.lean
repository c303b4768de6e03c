import Plaidify.Lib.JsonSorted
import Plaidify.Mfa.Manager

/-!
# The rows of access jobs, as they are read

`serialize_access_job` and `serialize_access_job_runtime` of
`src/src/access_jobs.py` and `list_access_jobs` of
`src/src/routers/access_jobs.py`, over rows whose two JSON columns are texts.
What was written into a column is read back with its keys in order
(`deserialize_columnText`).
-/

namespace Plaidify.AccessJobs

/-- A row of `access_jobs`, with the columns that the endpoints return. -/
structure AccessJob where
  id : String
  userId : Option Nat
  site : String
  jobType : String
  status : String
  sessionId : Option String
  metadataJson : Option String
  resultJson : Option String
  errorMessage : Option String
  createdAt : Nat
  startedAt : Option Nat
  completedAt : Option Nat
deriving Repr, DecidableEq

/-! ## The JSON columns -/

/-- `_serialize_metadata` of a column that holds a dictionary. -/
def columnText (column : Option Dict) : Option String :=
  column.map fun dict => Json.dumpsSorted (.obj dict)

section

variable (floatRepr : String → String)

/-- `_deserialize_metadata`. -/
def deserializeMetadata (metadataJson : Option String) : Option Json :=
  match metadataJson with
  | none => none
  | some text =>
      if text = "" then none
      else some ((Json.loads floatRepr text).getD (.obj [("raw", .str text)]))

/-! ## Responses -/

/-- What `serialize_access_job` returns. -/
structure JobPayload where
  jobId : String
  site : String
  jobType : String
  status : String
  sessionId : Option String
  mfaType : Option Json
  errorMessage : Option String
  metadata : Option Json
  result : Option Json
  createdAt : Nat
  startedAt : Option Nat
  completedAt : Option Nat

/-- `serialize_access_job`. -/
def serializeAccessJob (job : AccessJob) : JobPayload :=
  let metadata := deserializeMetadata floatRepr job.metadataJson
  { jobId := job.id
    site := job.site
    jobType := job.jobType
    status := job.status
    sessionId := job.sessionId
    mfaType := match metadata with
      | some (.obj dict) => dict.lookup "mfa_type"
      | _ => none
    errorMessage := job.errorMessage
    metadata
    result := deserializeMetadata floatRepr job.resultJson
    createdAt := job.createdAt
    startedAt := job.startedAt
    completedAt := job.completedAt }

/-- The live MFA session of a running job. -/
def liveMfa (mfa : String → Option Mfa.MfaSession) (job : AccessJob) : Option Mfa.MfaSession :=
  if job.status = "running" then (job.sessionId.filter (· ≠ "")).bind mfa else none

/-- `serialize_access_job_runtime`: a running job shows its MFA challenge. -/
def serializeAccessJobRuntime (mfa : String → Option Mfa.MfaSession) (job : AccessJob) :
    JobPayload :=
  let payload := serializeAccessJob floatRepr job
  match liveMfa mfa job with
  | none => payload
  | some session =>
      let metadata := match payload.metadata with
        | some (.obj dict) => dict
        | _ => []
      let merged := session.metadata.foldl Json.dictInsert metadata
      { payload with
        status := "mfa_required"
        mfaType := some (.str session.mfaType)
        metadata := if merged.isEmpty then none else some (.obj merged) }

/-- The query parameters of `list_access_jobs`. -/
structure JobQuery where
  limit : Int := 20
  site : Option String := none
  status : Option String := none
  jobType : Option String := none

/-- A filter that an absent or empty parameter leaves out. -/
def keeps (wanted : Option String) (value : String) : Bool :=
  (wanted.filter (· ≠ "")).all (· == value)

/-- The rows that `list_access_jobs` selects: the newest of the user's. -/
def selectJobs (jobs : List AccessJob) (userId : Nat) (query : JobQuery) : List AccessJob :=
  let rows := (jobs.filter fun job => job.userId == some userId).filter fun job =>
    keeps query.site job.site && keeps query.status job.status && keeps query.jobType job.jobType
  let pageSize := (max 1 (min query.limit 100)).toNat
  (rows.mergeSort fun a b => decide (b.createdAt ≤ a.createdAt)).take pageSize

/-- `list_access_jobs`. -/
def listAccessJobs (mfa : String → Option Mfa.MfaSession) (jobs : List AccessJob) (userId : Nat)
    (query : JobQuery) : List JobPayload :=
  (selectJobs jobs userId query).map (serializeAccessJobRuntime floatRepr mfa)

/-! ## What is read -/

variable {floatRepr}

theorem selectJobs_mem {jobs : List AccessJob} {userId : Nat} {query : JobQuery} {job : AccessJob}
    (h : job ∈ selectJobs jobs userId query) : job ∈ jobs ∧ job.userId = some userId := by
  have hsorted := List.mem_mergeSort.mp (List.mem_of_mem_take h)
  rcases List.mem_filter.mp (List.mem_filter.mp hsorted).1 with ⟨hrow, huser⟩
  exact ⟨hrow, by simpa using huser⟩

/-- A dictionary is read back with its keys in order. -/
theorem deserialize_columnText {dict : Dict} (hdict : Json.Writable floatRepr (.obj dict)) :
    deserializeMetadata floatRepr (columnText (some dict)) = some (Json.sortKeys (.obj dict)) := by
  have hne : Json.dumpsSorted (.obj dict) ≠ "" := Json.dumpsSorted_obj_ne_empty dict
  simp only [deserializeMetadata, columnText, Option.map_some, if_neg hne,
    Json.loads_dumpsSorted hdict, Option.getD_some]

/-- A job is shown with its own site and its own result, running or not. -/
theorem runtime_payload (floatRepr : String → String) (mfa : String → Option Mfa.MfaSession)
    (job : AccessJob) :
    (serializeAccessJobRuntime floatRepr mfa job).site = job.site ∧
      (serializeAccessJobRuntime floatRepr mfa job).result =
        deserializeMetadata floatRepr job.resultJson := by
  unfold serializeAccessJobRuntime
  cases liveMfa mfa job with
  | none => exact ⟨rfl, rfl⟩
  | some session => exact ⟨rfl, rfl⟩

end

end Plaidify.AccessJobs
