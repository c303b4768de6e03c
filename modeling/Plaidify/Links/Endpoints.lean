import Plaidify.Principals.Responses

/-!
# Links and access tokens

The link scope store of `src/src/session_store.py` with its two backends, the
endpoints that create a link token with scopes (`src/src/routers/links.py`,
`src/src/routers/link_sessions.py`), and the two that mint access tokens from
it, `submit_credentials` and the hosted path of `POST /connect`
(`src/src/routers/connection.py`).

Times are in milliseconds.
-/

namespace Plaidify.Links

open Principals

/-! ## The order of the scopes -/

local instance textLe_trans : IsTrans String fun s t => s ≤ t := ⟨fun _ _ _ => le_trans⟩

local instance textLe_antisymm : Std.Antisymm fun s t : String => s ≤ t :=
  ⟨fun _ _ => le_antisymm⟩

/-! ## The scope store -/

def linkScopeTtl : Nat := 600 * 1000

def maxMemLinkScopes : Nat := 10000

/-- Redis, or the in-memory dictionary where no `redis_url` is set. -/
inductive Backend where
  | redis
  | memory
deriving Repr, DecidableEq

structure ScopeEntry where
  linkToken : String
  scopesJson : String
  /-- Only Redis goes by it. -/
  expiresAt : Nat
deriving Repr, DecidableEq

/-- The entries in the order in which they were set. -/
structure ScopeStore where
  backend : Backend
  entries : Table ScopeEntry ScopeEntry.linkToken

namespace ScopeStore

/-- `_evict_scopes_if_full`: the oldest entries go. -/
def evictIfFull (entries : Table ScopeEntry ScopeEntry.linkToken) :
    Table ScopeEntry ScopeEntry.linkToken :=
  if entries.rows.length > maxMemLinkScopes then
    entries.drop (entries.rows.length - maxMemLinkScopes)
  else entries

/-- Assign a key of a dictionary. -/
def assign (entries : Table ScopeEntry ScopeEntry.linkToken) (entry : ScopeEntry) :
    Table ScopeEntry ScopeEntry.linkToken :=
  (entries.insert? entry).getD (entries.put entry)

/-- `set_link_scopes`. -/
def set (store : ScopeStore) (now : Nat) (linkToken scopesJson : String) : ScopeStore :=
  let entry := { linkToken, scopesJson, expiresAt := now + linkScopeTtl }
  match store.backend with
  | .redis => { store with entries := assign store.entries entry }
  | .memory => { store with entries := assign (evictIfFull store.entries) entry }

/-- What a read of the key returns. -/
def peek (store : ScopeStore) (now : Nat) (linkToken : String) : Option String :=
  match store.entries.get? linkToken with
  | none => none
  | some entry =>
      match store.backend with
      | .redis => if now ≤ entry.expiresAt then some entry.scopesJson else none
      | .memory => some entry.scopesJson

/-- `pop_link_scopes`. -/
def pop (store : ScopeStore) (now : Nat) (linkToken : String) : Option String × ScopeStore :=
  match store.peek now linkToken with
  | none => (none, store)
  | some val =>
      -- Redis keeps a value that is empty
      if store.backend = .redis ∧ val = "" then (some val, store)
      else (some val, { store with entries := store.entries.delete (·.linkToken == linkToken) })

end ScopeStore

/-! ## Creating link tokens -/

/-- `constrain_requested_scopes`. -/
def constrainRequestedScopes (auth : AuthContext) (requested : Option (List String)) :
    Except HttpError (Option (List String)) :=
  match auth.allowedScopes with
  | none => .ok requested
  | some allowed =>
      match requested with
      | none => .ok (some allowed.sort)
      | some scopes =>
          let requestedSet := normalizeScopes scopes
          if requestedSet ⊆ allowed then .ok (some requestedSet.sort)
          else .error ⟨403, "Requested scopes exceed API key or agent permissions."⟩

/-- A live link session. -/
structure LinkSession where
  linkToken : String
  userId : Option Nat
deriving Repr, DecidableEq

structure State where
  now : Nat
  scopeStore : ScopeStore
  links : Table Link Link.linkToken
  sessions : List LinkSession
  accessTokens : Table AccessToken AccessToken.token
  /-- History variable: every link token, with the scopes it was created with. -/
  granted : List (String × Option (List String))

/-- Remember the scopes of a new link token, where there are any. -/
def grant (s : State) (linkToken : String) (scopes : Option (List String)) : State :=
  { s with
    scopeStore :=
      match scopes with
      | none => s.scopeStore
      | some scopes =>
          s.scopeStore.set s.now linkToken (Json.dumps (.arr (scopes.map .str)))
    granted := s.granted ++ [(linkToken, scopes)] }

section

variable (py : PyText)

/-- `create_link`; the link token is a fresh `uuid4`. -/
def createLink (s : State) (auth : AuthContext) (linkToken site : String)
    (requested : Option (List String)) : Except HttpError State := do
  let _ ← ensureSiteAllowed py auth site
  let scopes ← constrainRequestedScopes auth requested
  match s.links.insert? { linkToken, site, userId := auth.userId } with
  | none => .error internalError
  | some links => return grant { s with links } linkToken scopes

/-- The `Link` row of a session that has a site and a user. -/
def sessionLinks (s : State) (linkToken : String) (site : Option String) (userId : Option Nat) :
    Option (Table Link Link.linkToken) :=
  match site.filter (· ≠ ""), userId with
  | some site, some userId => s.links.insert? { linkToken, site, userId }
  | _, _ => some s.links

/-- `_create_ephemeral_link_session`. -/
def createEphemeralLinkSession (s : State) (linkToken : String) (site : Option String)
    (userId : Option Nat) (scopes : Option (List String)) : Except HttpError State :=
  match sessionLinks s linkToken site userId with
  | none => .error internalError
  | some links =>
      let s := grant { s with links } linkToken scopes
      .ok { s with sessions := s.sessions ++ [{ linkToken, userId }] }

/-- `create_link_session`. -/
def createLinkSession (s : State) (auth : AuthContext) (linkToken : String)
    (site : Option String) : Except HttpError State := do
  let _ ← (site.filter (· ≠ "")).elim (.ok auth) (ensureSiteAllowed py auth)
  let scopes ← constrainRequestedScopes auth none
  createEphemeralLinkSession s linkToken site (some auth.userId) scopes

end

/-- `create_public_link_session`. -/
def createPublicLinkSession (s : State) (linkToken : String) : Except HttpError State :=
  createEphemeralLinkSession s linkToken none none none

/-- `exchange_link_bootstrap`, with the claims of a launch token that it
accepts; `create_link_bootstrap` constrained the scopes before signing them. -/
def exchangeLinkBootstrap (s : State) (linkToken : String) (site : Option String) (userId : Nat)
    (scopes : Option (List String)) : Except HttpError State :=
  createEphemeralLinkSession s linkToken site (some userId) scopes

/-! ## Minting access tokens -/

/-- Pop the scopes of a link token and add an access token with them, if the
commit succeeds. -/
def mint (s : State) (links : Table Link Link.linkToken) (linkToken : String) (userId : Nat)
    (token : String) (committed : Bool) : Except HttpError State :=
  let (scopes, scopeStore) := s.scopeStore.pop s.now linkToken
  if committed then
    match s.accessTokens.insert? { token, linkToken, userId, scopes, instructions := none } with
    | none => .error internalError
    | some accessTokens => .ok { s with scopeStore, links, accessTokens }
  else .ok { s with scopeStore }

/-- `submit_credentials`, with credentials that can be read. -/
def submitCredentials (s : State) (userId : Nat) (linkToken token : String) (committed : Bool) :
    Except HttpError State :=
  match s.links.rows.find? fun l => l.linkToken == linkToken && l.userId == userId with
  | none => .error ⟨404, "Invalid link token."⟩
  | some _ => mint s s.links linkToken userId token committed

/-- The user of a hosted link session that is still in the session store. -/
def hostedUser (s : State) (linkToken : String) (sessionFound : Bool) : Option Nat :=
  if sessionFound then
    (s.sessions.find? fun session => session.linkToken == linkToken).bind (·.userId)
  else none

/-- `_ensure_hosted_link_access_token`. -/
def ensureHostedLinkAccessToken (s : State) (linkToken site token : String)
    (sessionFound committed : Bool) : Except HttpError State :=
  match hostedUser s linkToken sessionFound with
  | none => .ok s
  | some userId =>
      let links :=
        match s.links.get? linkToken with
        | none => s.links.insert? { linkToken, site, userId }
        | some link => some (if link.site ≠ site then s.links.put { link with site } else s.links)
      match links with
      | none => .error internalError
      | some links =>
          match s.accessTokens.rows.find? fun t =>
              t.linkToken == linkToken && t.userId == userId with
          | none => mint s links linkToken userId token committed
          | some _ => .ok (if committed then { s with links } else s)

/-- `delete_link`, with its access tokens. -/
def deleteLink (s : State) (userId : Nat) (linkToken : String) : Except HttpError State :=
  match s.links.rows.find? fun l => l.linkToken == linkToken && l.userId == userId with
  | none => .error ⟨404, "Link not found."⟩
  | some _ => .ok { s with
      links := s.links.delete (·.linkToken == linkToken)
      accessTokens := s.accessTokens.delete (·.linkToken == linkToken) }

/-- `delete_token`. -/
def deleteToken (s : State) (userId : Nat) (token : String) : Except HttpError State :=
  match s.accessTokens.rows.find? fun t => t.token == token && t.userId == userId with
  | none => .error ⟨404, "Token not found."⟩
  | some _ => .ok { s with accessTokens := s.accessTokens.delete (·.token == token) }

end Plaidify.Links
