import Mathlib.Data.Finset.Sort
import Mathlib.Data.String.Basic
import Plaidify.AccessJobs.Rows
import Plaidify.Principals.Auth

/-!
# The three responses with extracted data

`fetch_data` (`src/src/routers/links.py`) and `get_access_job`
(`src/src/routers/access_jobs.py`), with the tables they read; the list of jobs
is with their rows. What the site access itself answers is an input: the
executor's result dictionary.
-/

namespace Plaidify.Principals

open AccessJobs (AccessJob JobPayload serializeAccessJobRuntime)

/-! ## Tables -/

structure Link where
  linkToken : String
  site : String
  userId : Nat
deriving Repr, DecidableEq

structure AccessToken where
  token : String
  linkToken : String
  userId : Nat
  scopes : Option String
  instructions : Option String
deriving Repr, DecidableEq

structure ConsentGrant where
  token : String
  scopes : String
  accessToken : String
  userId : Nat
  expiresAt : Nat
  revoked : Bool
deriving Repr, DecidableEq

/-- The tables that the three endpoints read. -/
structure Store where
  db : Db
  links : Table Link Link.linkToken
  accessTokens : Table AccessToken AccessToken.token
  consentGrants : Table ConsentGrant ConsentGrant.token
  accessJobs : Table AccessJob AccessJob.id

/-! ## Reading jobs -/

section

variable (py : PyText)

/-- `get_access_job`; `user` is what `_optional_user` answers. -/
def getAccessJob (mfaSessions : String → Option Mfa.MfaSession) (store : Store) (jobId : String)
    (user : Except HttpError (Option AuthContext)) : Except HttpError JobPayload :=
  match store.accessJobs.get? jobId with
  | none => .error ⟨404, "Access job not found."⟩
  | some job =>
      match job.userId with
      | none => .ok (serializeAccessJobRuntime py.floatRepr mfaSessions job)
      | some owner =>
          match user with
          | .error e => .error e
          | .ok none => .error ⟨401, "Authentication required for this access job."⟩
          | .ok (some auth) =>
              if auth.userId ≠ owner then .error ⟨404, "Access job not found."⟩
              else .ok (serializeAccessJobRuntime py.floatRepr mfaSessions job)

/-! ## Fetching -/

/-- What a `for` loop visits, where the value is iterable. -/
def iterate : Json → Option (List Json)
  | .arr xs => some xs
  | .str s => some (s.toList.map fun c => .str (String.singleton c))
  | .obj kvs => some (kvs.map fun kv => .str kv.1)
  | _ => none

/-- The field that one scope stands for; anything but a string raises. -/
def scopeField : Json → Option String
  | .str scope => some (Text.afterFirst ':' scope)
  | _ => none

/-- The field set of a stored scope list, `none` where the loop raises. -/
def scopeFields (scopesJson : String) : Option (Finset String) := do
  let value ← Json.loads py.floatRepr scopesJson
  let scopes ← iterate value
  let fields ← scopes.mapM scopeField
  return fields.toFinset

/-- The checks on a consent token, up to the fields it grants. -/
def consentFields (store : Store) (auth : AuthContext) (now : Nat) (accessToken : String)
    (consentToken : Option String) : Except HttpError (Option (Finset String)) :=
  match consentToken.filter (· ≠ "") with
  | none => .ok none
  | some consent =>
      match store.consentGrants.rows.find? fun g => g.token == consent && g.userId == auth.userId with
      | none => .error ⟨401, "Invalid consent token."⟩
      | some grant =>
          if grant.revoked then .error ⟨403, "Consent has been revoked."⟩
          else if grant.expiresAt < now then .error ⟨403, "Consent token has expired."⟩
          else if grant.accessToken ≠ accessToken then
            .error ⟨403, "Consent token does not match the access token."⟩
          else
            match scopeFields py grant.scopes with
            | none => .error internalError
            | some fields => .ok (some fields)

/-- The fields that an access token's scopes allow. -/
def tokenFields (scopes : Option String) : Except HttpError (Option (Finset String)) :=
  match scopes.filter (· ≠ "") with
  | none => .ok none
  | some text =>
      match scopeFields py text with
      | none => .error internalError
      | some fields => .ok (some fields)

/-- The response dictionary after the scope filter. -/
def filterResponse (allowed : Option (Finset String)) (response : Body) : Except HttpError Body :=
  match allowed with
  | none => .ok response
  | some allowed =>
      match response.lookup "data" with
      | none => .ok response
      | some (.obj data) =>
          let kept := data.filter fun kv => decide (kv.1 ∈ allowed)
          let response := Json.dictInsert response ("data", .obj kept)
          .ok (Json.dictInsert response
            ("scopes_applied", .arr (allowed.sort.map .str)))
      | some _ => .error internalError

/-- `fetch_data`: `runJob` is what `run_access_job` returns for the site and the
fields it is asked for, the job's id and the executor's dictionary. -/
def fetchData (store : Store) (auth : AuthContext) (now : Nat) (accessToken : String)
    (consentToken : Option String)
    (runJob : String → Option (List String) → Except HttpError (String × Body)) :
    Except HttpError (String × Body) := do
  let some tokenRecord := store.accessTokens.rows.find? fun t =>
      t.token == accessToken && t.userId == auth.userId
    | .error ⟨401, "Invalid access token."⟩
  let some link := store.links.rows.find? fun l =>
      l.linkToken == tokenRecord.linkToken && l.userId == auth.userId
    | .error ⟨401, "Linked data not found."⟩
  let _ ← ensureSiteAllowed py auth link.site
  let consentAllowed ← consentFields py store auth now accessToken consentToken
  let tokenAllowed ← tokenFields py tokenRecord.scopes
  let allowedFields := combineScopeSets (combineScopeSets consentAllowed tokenAllowed)
    auth.allowedScopes
  let (jobId, response) ← runJob link.site (allowedFields.map (·.sort))
  let response := Json.dictInsert response ("job_id", .str jobId)
  let response :=
    match tokenRecord.instructions.filter (· ≠ "") with
    | none => response
    | some instructions => Json.dictInsert response ("instructions_applied", .str instructions)
  let response ← filterResponse allowedFields response
  return (link.site, response)

end

end Plaidify.Principals
