import Plaidify.Lib.Table
import Plaidify.Principals.Scopes

/-!
# API keys and agents

The tables `users`, `api_keys` and `agents`, the endpoints that fill them
(`src/src/routers/api_keys.py`, `src/src/routers/agents.py`), and
`get_current_user_or_api_key` of `src/src/dependencies.py`, which turns the key
of a request into an `AuthContext`.

Times are in microseconds. SHA-256 is a parameter, from bytes to hex digest.
-/

namespace Plaidify.Principals

/-! ## Tables -/

structure User where
  id : Nat
deriving Repr, DecidableEq

/-- A row of `api_keys`. -/
structure ApiKey where
  id : String
  keyHash : String
  userId : Nat
  scopes : Option String
  isActive : Bool := true
  expiresAt : Option Nat := none
  lastUsedAt : Option Nat := none
deriving Repr, DecidableEq

/-- A row of `agents`. -/
structure Agent where
  id : String
  ownerId : Nat
  apiKeyId : Option String
  allowedScopes : Option String
  allowedSites : Option String
  isActive : Bool := true
  lastActiveAt : Option Nat := none
deriving Repr, DecidableEq

/-- The foreign key of an agent's row. -/
def KeyExists (apiKeys : Table ApiKey ApiKey.id) (agent : Agent) : Prop :=
  ∀ k ∈ agent.apiKeyId, k ∈ apiKeys.rows.map ApiKey.id

instance (apiKeys : Table ApiKey ApiKey.id) (agent : Agent) :
    Decidable (KeyExists apiKeys agent) :=
  inferInstanceAs (Decidable (∀ k ∈ agent.apiKeyId, k ∈ apiKeys.rows.map ApiKey.id))

/-- The three tables, with the foreign key from agents to API keys. -/
structure Db where
  users : Table User User.id
  apiKeys : Table ApiKey ApiKey.id
  agents : Table Agent Agent.id
  agentKeys : ∀ agent ∈ agents.rows, KeyExists apiKeys agent

/-- Insert an API key; its `key_hash` is unique and its user exists. -/
def Db.insertKey? (db : Db) (key : ApiKey) : Option Db :=
  if key.keyHash ∈ db.apiKeys.rows.map ApiKey.keyHash ∨ db.users.get? key.userId = none then none
  else
    match h : db.apiKeys.insert? key with
    | none => none
    | some apiKeys => some { db with
        apiKeys
        agentKeys := fun agent hagent k hk => by
          rw [(Table.insert?_eq_some h).2, List.map_append]
          exact List.mem_append_left _ (db.agentKeys agent hagent k hk) }

/-- Overwrite an API key in place. -/
def Db.putKey (db : Db) (key : ApiKey) : Db :=
  { db with
    apiKeys := db.apiKeys.put key
    agentKeys := fun agent hagent k hk => by
      rw [Table.put_rows, Table.map_key_overwrite]
      exact db.agentKeys agent hagent k hk }

/-- Insert an agent; the database checks the foreign key. -/
def Db.insertAgent? (db : Db) (agent : Agent) : Option Db :=
  match h : db.agents.insert? agent with
  | none => none
  | some agents =>
      if hkey : KeyExists db.apiKeys agent then
        some { db with
          agents
          agentKeys := fun a ha => by
            rw [(Table.insert?_eq_some h).2] at ha
            rcases List.mem_append.mp ha with ha | ha
            · exact db.agentKeys a ha
            · rw [List.mem_singleton.mp ha]
              exact hkey }
      else none

/-- Overwrite an agent in place; the database checks the foreign key. -/
def Db.putAgent? (db : Db) (agent : Agent) : Option Db :=
  if hkey : KeyExists db.apiKeys agent then
    some { db with
      agents := db.agents.put agent
      agentKeys := fun a ha => by
        obtain ⟨r, hr, hra⟩ := List.mem_map.mp ha
        by_cases h : r.id = agent.id
        · rw [if_pos h] at hra
          exact hra ▸ hkey
        · rw [if_neg h] at hra
          exact hra ▸ db.agentKeys r hr }
  else none

/-! ## Requests -/

/-- An `HTTPException`. -/
structure HttpError where
  statusCode : Nat
  detail : String
deriving Repr, DecidableEq

/-- An exception that no handler turns into an `HTTPException`. -/
def internalError : HttpError := ⟨500, "Internal Server Error"⟩

/-- A JSON object as a request body. -/
abbrev Body := List (String × Json)

/-- `body.get(field)`, and `field in body` where it is not `none`. -/
def Body.get? (body : Body) (field : String) : Option Json :=
  body.lookup field

structure AuthContext where
  userId : Nat
  authMethod : String
  apiKeyId : Option String := none
  agentId : Option String := none
  allowedScopes : Option (Finset String) := none
  allowedSites : Option (Finset String) := none

section

variable (py : PyText) (sha256 : ByteArray → String)

/-- The hash under which a raw key is stored. -/
def hashKey (rawKey : String) : String :=
  sha256 rawKey.toUTF8

/-- `create_api_key` with the random part of its key, for a `scopes` field that
the text column takes: a string or nothing. -/
def createApiKey (db : Db) (id token : String) (userId : Nat) (scopes : Option String)
    (expiresAt : Option Nat) : Except HttpError Db :=
  let rawKey := "pk_" ++ token
  match db.insertKey? { id, keyHash := hashKey sha256 rawKey, userId, scopes, expiresAt } with
  | none => .error internalError
  | some db => .ok db

/-- `revoke_api_key`. -/
def revokeApiKey (db : Db) (keyId : String) (userId : Nat) : Except HttpError Db :=
  match db.apiKeys.rows.find? fun k => k.id == keyId && k.userId == userId with
  | none => .error ⟨404, "API key not found."⟩
  | some key => .ok (db.putKey { key with isActive := false })

/-- The `ApiKey` row that `register_agent` adds. -/
def agentKeyRow (apiKeyId token : String) (userId : Nat) (body : Body) : ApiKey :=
  { id := apiKeyId
    keyHash := hashKey sha256 ("pk_agent_" ++ token)
    userId
    scopes := dumpsIfTruthy (body.get? "allowed_scopes") }

/-- The `Agent` row that `register_agent` adds. -/
def agentRow (agentId apiKeyId : String) (userId : Nat) (body : Body) : Agent :=
  { id := agentId
    ownerId := userId
    apiKeyId := some apiKeyId
    allowedScopes := dumpsIfTruthy (body.get? "allowed_scopes")
    allowedSites := dumpsIfTruthy (body.get? "allowed_sites") }

/-- `register_agent` with the random part of the agent's key. -/
def registerAgent (db : Db) (agentId apiKeyId token : String) (userId : Nat) (body : Body) :
    Except HttpError Db :=
  if !(body.get? "name").any Json.truthy then .error ⟨422, "'name' is required."⟩
  else
    match (db.insertKey? (agentKeyRow sha256 apiKeyId token userId body)).bind
        (·.insertAgent? (agentRow agentId apiKeyId userId body)) with
    | none => .error internalError
    | some db => .ok db

/-- The row that `update_agent` writes. -/
def Agent.update (agent : Agent) (body : Body) : Agent :=
  { agent with
    allowedScopes :=
      if (body.get? "allowed_scopes").isSome then dumpsIfTruthy (body.get? "allowed_scopes")
      else agent.allowedScopes
    allowedSites :=
      if (body.get? "allowed_sites").isSome then dumpsIfTruthy (body.get? "allowed_sites")
      else agent.allowedSites }

/-- `update_agent`. -/
def updateAgent (db : Db) (agentId : String) (userId : Nat) (body : Body) : Except HttpError Db :=
  match db.agents.rows.find? fun a => a.id == agentId && a.ownerId == userId with
  | none => .error ⟨404, "Agent not found."⟩
  | some agent =>
      match db.putAgent? (agent.update body) with
      | none => .error internalError
      | some db => .ok db

/-- `deactivate_agent`. -/
def deactivateAgent (db : Db) (agentId : String) (userId : Nat) : Except HttpError Db :=
  match db.agents.rows.find? fun a => a.id == agentId && a.ownerId == userId with
  | none => .error ⟨404, "Agent not found."⟩
  | some agent =>
      match db.putAgent? { agent with isActive := false } with
      | none => .error internalError
      | some db =>
          match agent.apiKeyId.bind db.apiKeys.get? with
          | none => .ok db
          | some key => .ok (db.putKey { key with isActive := false })

/-! ## Authentication -/

/-- The `AuthContext` of a key and the agent it belongs to, if any. -/
def authContext (key : ApiKey) (agent : Option Agent) : AuthContext :=
  { userId := key.userId
    authMethod := "api_key"
    apiKeyId := some key.id
    agentId := agent.map (·.id)
    allowedScopes := combineScopeSets (loadScopeSet py key.scopes)
      (agent.bind fun a => loadScopeSet py a.allowedScopes)
    allowedSites := agent.bind fun a => loadSiteSet py a.allowedSites }

/-- The columns that a request with a key updates. -/
def recordUse (db : Db) (now : Nat) (key : ApiKey) (agent : Option Agent) : Db :=
  let db := db.putKey { key with lastUsedAt := some now }
  (agent.bind fun a => db.putAgent? { a with lastActiveAt := some now }).getD db

/-- `get_current_user_or_api_key`: `xApiKey` is the header of that name, and
`bearer` what the JWT path answers when there is none. -/
def getCurrentUserOrApiKey (db : Db) (now : Nat) (xApiKey : Option String)
    (bearer : Except HttpError Nat) : Except HttpError (Db × AuthContext) :=
  match xApiKey.filter (· ≠ "") with
  | none =>
      match bearer with
      | .error e => .error e
      | .ok userId => .ok (db, { userId, authMethod := "jwt" })
  | some apiKey =>
      match db.apiKeys.rows.find? fun k => k.keyHash == hashKey sha256 apiKey && k.isActive with
      | none => .error ⟨401, "Invalid API key."⟩
      | some key =>
          if key.expiresAt.any (· < now) then .error ⟨401, "API key has expired."⟩
          else
            let agent := db.agents.rows.find? fun a => a.apiKeyId == some key.id
            if agent.any (!·.isActive) then .error ⟨401, "Agent is inactive."⟩
            else if (db.users.get? key.userId).isNone then
              .error ⟨401, "API key owner not found."⟩
            else
              .ok (recordUse db now key agent, authContext py key agent)

/-- `ensure_site_allowed_for_request`. -/
def ensureSiteAllowed (auth : AuthContext) (site : String) : Except HttpError AuthContext :=
  match auth.allowedSites with
  | none => .ok auth
  | some allowed =>
      if normalizeSite py site ∈ allowed then .ok auth
      else .error ⟨403, "This API key or agent is not allowed to access the requested site."⟩

end

end Plaidify.Principals
