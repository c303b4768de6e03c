import Plaidify.AccessJobs.Rows
import Plaidify.Links.Ownership
import Plaidify.Refresh.Quota

/-!
# The tables and who writes them

The tables of `src/src/database.py` (but for the audit log, which refers to
nothing), with the columns that name a row, its owner and the rows it refers to,
and those that the listings return. Links and access tokens, and the refresh
scheduler with its table, are the ones of the models before.

A step is a request. Requests for tables that nothing refers to are given by what
they do to the table; the others check what the source checks. A `uuid4` is new:
the history variables have every one that was handed out, with its owner.
-/

namespace Plaidify.Tenancy

open AccessJobs (AccessJob)
open Links (Backend)
open Principals (HttpError PyText)

/-! ## Rows -/

structure RefreshToken where
  id : Nat
  userId : Nat
  expiresAt : Nat
  revoked : Bool
  createdAt : Nat
deriving Repr, DecidableEq

structure PasswordResetToken where
  id : Nat
  userId : Nat
deriving Repr, DecidableEq

structure Webhook where
  id : String
  linkToken : String
  url : String
  userId : Nat
  createdAt : Nat
deriving Repr, DecidableEq

structure PublicToken where
  token : String
  linkToken : String
  accessToken : String
  userId : Nat
deriving Repr, DecidableEq

structure ConsentRequest where
  id : String
  agentName : String
  scopes : String
  durationSeconds : Nat
  accessToken : String
  userId : Nat
  status : String := "pending"
deriving Repr, DecidableEq

structure ConsentGrant where
  token : String
  consentRequestId : String
  scopes : String
  accessToken : String
  userId : Nat
  expiresAt : Nat
  revoked : Bool := false
  createdAt : Nat
deriving Repr, DecidableEq

structure BlueprintRecord where
  id : Nat
  publishedBy : Nat
deriving Repr, DecidableEq

structure ApiKey where
  id : String
  userId : Nat
deriving Repr, DecidableEq

structure Agent where
  id : String
  name : String
  description : Option String
  ownerId : Nat
  apiKeyId : Option String
  allowedScopes : Option String
  allowedSites : Option String
  rateLimit : Option String
  isActive : Bool := true
  lastActiveAt : Option Nat := none
  createdAt : Nat
deriving Repr, DecidableEq

/-! ## The state -/

/-- An access token as it was minted. -/
structure Minted where
  token : String
  linkToken : String
  userId : Nat
deriving Repr, DecidableEq

structure System where
  users : Table Principals.User Principals.User.id
  /-- Links, access tokens, link sessions, and the refresh scheduler with its
  table. -/
  api : Refresh.Api
  refreshTokens : Table RefreshToken RefreshToken.id
  passwordResetTokens : Table PasswordResetToken PasswordResetToken.id
  webhooks : Table Webhook Webhook.id
  publicTokens : Table PublicToken PublicToken.token
  consentRequests : Table ConsentRequest ConsentRequest.id
  consentGrants : Table ConsentGrant ConsentGrant.token
  blueprints : Table BlueprintRecord BlueprintRecord.id
  apiKeys : Table ApiKey ApiKey.id
  agents : Table Agent Agent.id
  accessJobs : Table AccessJob AccessJob.id
  /-- The MFA sessions that `get_session` finds. -/
  mfa : String → Option Mfa.MfaSession
  /-- History variable: the access tokens that were minted. -/
  minted : List Minted
  /-- History variable: the consent requests that were made, with their users. -/
  requested : List (String × Nat)
  /-- History variable: the API keys that were created, with their users. -/
  keyed : List (String × Nat)

/-- `access_tokens`. -/
abbrev System.accessTokens (s : System) :
    Table Principals.AccessToken Principals.AccessToken.token :=
  s.api.links.accessTokens

/-- `links`. -/
abbrev System.links (s : System) : Table Principals.Link Principals.Link.linkToken :=
  s.api.links.links

/-- `scheduled_refresh_jobs`. -/
abbrev System.scheduledRefreshJobs (s : System) : Refresh.Rows := s.api.live.scheduler.rows

/-! ## Rows by user -/

/-- The rows of every table whose user meets a condition. -/
structure OwnedRows where
  users : List Principals.User
  links : List Principals.Link
  accessTokens : List Principals.AccessToken
  scheduledRefreshJobs : List Refresh.ScheduledRefreshJob
  refreshTokens : List RefreshToken
  passwordResetTokens : List PasswordResetToken
  webhooks : List Webhook
  publicTokens : List PublicToken
  consentRequests : List ConsentRequest
  consentGrants : List ConsentGrant
  blueprints : List BlueprintRecord
  apiKeys : List ApiKey
  agents : List Agent
  accessJobs : List AccessJob
deriving DecidableEq

def System.select (s : System) (p : Option Nat → Bool) : OwnedRows where
  users := s.users.rows.filter fun r => p (some r.id)
  links := s.links.rows.filter fun r => p (some r.userId)
  accessTokens := s.accessTokens.rows.filter fun r => p (some r.userId)
  scheduledRefreshJobs := s.scheduledRefreshJobs.rows.filter fun r => p (some r.userId)
  refreshTokens := s.refreshTokens.rows.filter fun r => p (some r.userId)
  passwordResetTokens := s.passwordResetTokens.rows.filter fun r => p (some r.userId)
  webhooks := s.webhooks.rows.filter fun r => p (some r.userId)
  publicTokens := s.publicTokens.rows.filter fun r => p (some r.userId)
  consentRequests := s.consentRequests.rows.filter fun r => p (some r.userId)
  consentGrants := s.consentGrants.rows.filter fun r => p (some r.userId)
  blueprints := s.blueprints.rows.filter fun r => p (some r.publishedBy)
  apiKeys := s.apiKeys.rows.filter fun r => p (some r.userId)
  agents := s.agents.rows.filter fun r => p (some r.ownerId)
  accessJobs := s.accessJobs.rows.filter fun r => p r.userId

def OwnedRows.none : OwnedRows :=
  ⟨[], [], [], [], [], [], [], [], [], [], [], [], [], []⟩

/-! ## Steps -/

/-- A write to a table. -/
inductive Write (α : Type) where
  | insert (row : α)
  /-- Columns other than the key are assigned. -/
  | put (row : α)
  | delete (p : α → Bool)

def Write.apply {α κ : Type} {key : α → κ} [DecidableEq κ] (table : Table α key) :
    Write α → Option (Table α key)
  | .insert row => table.insert? row
  | .put row => some (table.put row)
  | .delete p => some (table.delete p)

inductive Label where
  | register (userId : Nat)
  | deleteAccount (userId : Nat)
  /-- The requests for links, access tokens and refresh schedules, and the runs of
  the scheduler. -/
  | api (l : Refresh.ApiLabel)
  | refreshTokens (w : Write RefreshToken)
  | passwordResetTokens (w : Write PasswordResetToken)
  | blueprints (w : Write BlueprintRecord)
  | accessJobs (w : Write AccessJob)
  /-- `register_webhook`. -/
  | registerWebhook (webhook : Webhook)
  | deleteWebhook (userId : Nat) (webhookId : String)
  /-- `_ensure_public_token`, for a session that has this access token. -/
  | ensurePublicToken (publicToken : PublicToken)
  /-- `consent_request`, past its checks of the body. -/
  | consentRequest (request : ConsentRequest)
  | consentApprove (userId : Nat) (requestId consentToken : String) (now : Nat)
  | consentDeny (userId : Nat) (requestId : String)
  | revokeConsent (userId : Nat) (consentToken : String)
  | createApiKey (apiKey : ApiKey)
  /-- `register_agent`: the agent with an API key of its own. -/
  | registerAgent (agent : Agent) (apiKeyId : String)
  /-- `update_agent`, `delete_agent`, and the time at which an agent was seen. -/
  | updateAgent (agentId : String) (f : Agent → Agent)
  /-- The database enforces the foreign keys: rows that refer to a deleted row go
  with it. -/
  | cascade
  /-- A fresh process loads the refresh jobs. -/
  | restart
  /-- MFA sessions come and go. -/
  | mfa (sessions : String → Option Mfa.MfaSession)

/-- The access token that a request may mint. -/
def mints : Refresh.ApiLabel → Option String
  | .submitCredentials _ _ token _ _ => some token
  | .links (.connect _ _ token _ _) => some token
  | _ => none

/-- The tokens of the table, as they were minted. -/
def mintedOf (rows : List Principals.AccessToken) : List Minted :=
  rows.map fun t => { token := t.token, linkToken := t.linkToken, userId := t.userId }

/-- Note the access tokens that a request has minted. -/
def noteMinted (s : System) (api : Refresh.Api) : System :=
  { s with
    api
    minted := s.minted ++ (mintedOf api.links.accessTokens.rows).filter (· ∉ s.minted) }

/-- A request for links, access tokens or refresh schedules. -/
def apiRequest (py : PyText) (webhook : Bool) (s : System) (l : Refresh.ApiLabel) :
    Option System :=
  if ∃ token ∈ mints l, token ∈ s.minted.map (·.token) then none
  else (Refresh.apiStep py webhook s.api l).map (noteMinted s)

/-- `filter_by(id=request_id, user_id=user.id).first()`. -/
def findRequest (s : System) (userId : Nat) (requestId : String) : Option ConsentRequest :=
  s.consentRequests.rows.find? fun cr => cr.id == requestId && cr.userId == userId

/-- Delete the rows that refer to a row that is not there; their foreign keys have
`ondelete="CASCADE"`. -/
def cascade (s : System) : System :=
  let accessTokens := s.accessTokens.delete fun t => (s.links.get? t.linkToken).isNone
  let noToken := fun token => (accessTokens.get? token).isNone
  let consentRequests := s.consentRequests.delete fun cr => noToken cr.accessToken
  { s with
    api := { s.api with
      links := { s.api.links with accessTokens }
      live := { s.api.live with scheduler := { s.api.live.scheduler with
        rows := s.scheduledRefreshJobs.delete fun r => noToken r.accessToken } } }
    publicTokens := s.publicTokens.delete fun p => noToken p.accessToken
    consentRequests
    consentGrants := s.consentGrants.delete fun g =>
      noToken g.accessToken || (consentRequests.get? g.consentRequestId).isNone }

/-! ### `delete_user_data` -/

/-- The tables of `delete_user_data`, in its order, and the user's row. -/
inductive Target where
  | consentGrants
  | consentRequests
  | publicTokens
  | scheduledRefreshJobs
  | accessTokens
  | links
  | webhooks
  | refreshTokens
  | passwordResetTokens
  | agents
  | apiKeys
  | blueprints
  | accessJobs
  | users
deriving Repr, DecidableEq

/-- One `DELETE` statement. -/
def deleteTarget (s : System) (userId : Nat) : Target → System
  | .consentGrants => { s with consentGrants := s.consentGrants.delete (·.userId == userId) }
  | .consentRequests =>
      { s with consentRequests := s.consentRequests.delete (·.userId == userId) }
  | .publicTokens => { s with publicTokens := s.publicTokens.delete (·.userId == userId) }
  | .scheduledRefreshJobs =>
      { s with api := { s.api with live := { s.api.live with scheduler :=
        { s.api.live.scheduler with
          rows := s.scheduledRefreshJobs.delete (·.userId == userId) } } } }
  | .accessTokens =>
      { s with api := { s.api with links := { s.api.links with
        accessTokens := s.accessTokens.delete (·.userId == userId) } } }
  | .links =>
      { s with api := { s.api with links := { s.api.links with
        links := s.links.delete (·.userId == userId) } } }
  | .webhooks => { s with webhooks := s.webhooks.delete (·.userId == userId) }
  | .refreshTokens => { s with refreshTokens := s.refreshTokens.delete (·.userId == userId) }
  | .passwordResetTokens =>
      { s with passwordResetTokens := s.passwordResetTokens.delete (·.userId == userId) }
  | .agents => { s with agents := s.agents.delete (·.ownerId == userId) }
  | .apiKeys => { s with apiKeys := s.apiKeys.delete (·.userId == userId) }
  | .blueprints => { s with blueprints := s.blueprints.delete (·.publishedBy == userId) }
  | .accessJobs => { s with accessJobs := s.accessJobs.delete (·.userId == some userId) }
  | .users => { s with users := s.users.delete (·.id == userId) }

/-- `targets` of `delete_user_data`. -/
def userDataTargets : List Target :=
  [.consentGrants, .consentRequests, .publicTokens, .scheduledRefreshJobs, .accessTokens, .links,
    .webhooks, .refreshTokens, .passwordResetTokens, .agents, .apiKeys, .blueprints, .accessJobs]

/-- `delete_user_data`. -/
def deleteUserData (s : System) (userId : Nat) : System :=
  userDataTargets.foldl (fun s target => deleteTarget s userId target) s

/-- `delete_account`, once the password has been confirmed. -/
def deleteAccount (s : System) (userId : Nat) : System :=
  deleteTarget (deleteUserData s userId) userId .users

/-! ### Requests -/

section

variable (py : PyText) (webhook : Bool)

def step (s : System) : Label → Option System
  | .register userId => (s.users.insert? ⟨userId⟩).map ({ s with users := · })
  | .deleteAccount userId => some (deleteAccount s userId)
  | .api l => apiRequest py webhook s l
  | .refreshTokens w => (w.apply s.refreshTokens).map ({ s with refreshTokens := · })
  | .passwordResetTokens w =>
      (w.apply s.passwordResetTokens).map ({ s with passwordResetTokens := · })
  | .blueprints w => (w.apply s.blueprints).map ({ s with blueprints := · })
  | .accessJobs w => (w.apply s.accessJobs).map ({ s with accessJobs := · })
  | .registerWebhook wh =>
      -- 404 unless the link token has a session, whosever it is
      if s.api.links.sessions.any (·.linkToken == wh.linkToken) then
        (s.webhooks.insert? wh).map ({ s with webhooks := · })
      else none
  | .deleteWebhook userId webhookId =>
      some { s with webhooks := s.webhooks.delete fun wh =>
        wh.id == webhookId && wh.userId == userId }
  | .ensurePublicToken p =>
      if s.api.links.sessions.any (fun session =>
          session.linkToken == p.linkToken && session.userId == some p.userId) ∧
          ⟨p.accessToken, p.linkToken, p.userId⟩ ∈ s.minted then
        (s.publicTokens.insert? p).map ({ s with publicTokens := · })
      else none
  | .consentRequest cr =>
      if cr.id ∉ s.requested.map Prod.fst ∧ s.api.hasToken cr.userId cr.accessToken = true then
        (s.consentRequests.insert? cr).map fun consentRequests =>
          { s with consentRequests, requested := s.requested ++ [(cr.id, cr.userId)] }
      else none
  | .consentApprove userId requestId consentToken now =>
      (findRequest s userId requestId).bind fun cr =>
        if cr.status = "pending" then
          (s.consentGrants.insert? {
            token := consentToken
            consentRequestId := requestId
            scopes := cr.scopes
            accessToken := cr.accessToken
            userId
            expiresAt := now + cr.durationSeconds
            createdAt := now }).map fun consentGrants =>
              { s with
                consentRequests := s.consentRequests.put { cr with status := "approved" }
                consentGrants }
        else none
  | .consentDeny userId requestId =>
      (findRequest s userId requestId).bind fun cr =>
        if cr.status = "pending" then
          some { s with consentRequests := s.consentRequests.put { cr with status := "denied" } }
        else none
  | .revokeConsent userId consentToken =>
      (s.consentGrants.rows.find? fun g => g.token == consentToken && g.userId == userId).map
        fun g => { s with consentGrants := s.consentGrants.put { g with revoked := true } }
  | .createApiKey key =>
      if key.id ∉ s.keyed.map Prod.fst then
        (s.apiKeys.insert? key).map fun apiKeys =>
          { s with apiKeys, keyed := s.keyed ++ [(key.id, key.userId)] }
      else none
  | .registerAgent agent apiKeyId =>
      if apiKeyId ∉ s.keyed.map Prod.fst then
        (s.apiKeys.insert? ⟨apiKeyId, agent.ownerId⟩).bind fun apiKeys =>
          (s.agents.insert? { agent with apiKeyId := some apiKeyId }).map fun agents =>
            { s with apiKeys, agents, keyed := s.keyed ++ [(apiKeyId, agent.ownerId)] }
      else none
  | .updateAgent agentId f =>
      (s.agents.get? agentId).map fun agent =>
        { s with agents := s.agents.put { f agent with
          id := agent.id, ownerId := agent.ownerId, apiKeyId := agent.apiKeyId } }
  | .cascade => some (cascade s)
  | .restart =>
      (Refresh.liveStep py.lower webhook s.api.live .restart).map fun live =>
        { s with api := { s.api with live } }
  | .mfa sessions => some { s with mfa := sessions }

end

def start (backend : Backend) : System where
  users := .empty
  api := .start backend
  refreshTokens := .empty
  passwordResetTokens := .empty
  webhooks := .empty
  publicTokens := .empty
  consentRequests := .empty
  consentGrants := .empty
  blueprints := .empty
  apiKeys := .empty
  agents := .empty
  accessJobs := .empty
  mfa _ := none
  minted := []
  requested := []
  keyed := []

end Plaidify.Tenancy
