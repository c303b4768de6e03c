import Plaidify.Principals.Auth

/-!
# What an agent's configuration enforces

An agent is registered once and updated any number of times; its restrictions
should be those of the last call that mentioned them. They are stored twice, on
the agent and on its API key, an update writes the first copy only, requests
are held to the intersection, and an empty list is stored like no list at all.

`configured_enforced_iff` says when the restrictions that a request is held to
are the configured ones, for every registration and every list of updates.
-/

namespace Plaidify.Principals

/-- A restriction in a request body: nothing, `null`, or a list of strings. -/
inductive Mention where
  | absent
  | null
  | list (values : List String)
deriving Repr, DecidableEq

/-- The field of a body that mentions a restriction this way. -/
def Mention.field : Mention → Option Json
  | .absent => none
  | .null => some .null
  | .list values => some (.arr (values.map .str))

/-- The mention that counts after a call: the call's own, if it has one. -/
def Mention.after (before : Mention) : Mention → Mention
  | .absent => before
  | mention => mention

/-- The restriction that counts after all calls. -/
def lastMention (registered : Mention) (updates : List Mention) : Mention :=
  updates.foldl Mention.after registered

/-- The set a restriction stands for: everything, or the normalised list. -/
def Mention.meaning (normalize : List String → Finset String) : Mention → Option (Finset String)
  | .absent | .null => none
  | .list values => some (normalize values)

/-- What the stored form of a restriction is read back as. -/
def Mention.stored (normalize : List String → Finset String) : Mention → Option (Finset String)
  | .list [] => none
  | mention => mention.meaning normalize

variable {py : PyText} {sha256 : ByteArray → String}

theorem loadList_field (mention : Mention) :
    loadList py (dumpsIfTruthy mention.field) =
      match mention with
      | .list (v :: values) => some (v :: values)
      | _ => none := by
  cases mention with
  | absent => rfl
  | null => rfl
  | list values =>
      rw [Mention.field, loadList_dumpsIfTruthy]
      cases values <;> rfl

theorem loadScopeSet_field (mention : Mention) :
    loadScopeSet py (dumpsIfTruthy mention.field) = mention.stored normalizeScopes := by
  rw [loadScopeSet, loadList_field]
  rcases mention with _ | _ | (_ | ⟨v, values⟩) <;> rfl

theorem loadSiteSet_field (mention : Mention) :
    loadSiteSet py (dumpsIfTruthy mention.field) = mention.stored (normalizeSites py) := by
  rw [loadSiteSet, loadList_field]
  rcases mention with _ | _ | (_ | ⟨v, values⟩) <;> rfl

/-! ## The tables after a call -/

theorem insertKey?_eq_some {db db' : Db} {key : ApiKey} (h : db.insertKey? key = some db') :
    key.keyHash ∉ db.apiKeys.rows.map ApiKey.keyHash ∧ db.users.get? key.userId ≠ none ∧
      key.id ∉ db.apiKeys.rows.map ApiKey.id ∧
      db'.apiKeys.rows = db.apiKeys.rows ++ [key] ∧ db'.agents = db.agents ∧
      db'.users = db.users := by
  unfold Db.insertKey? at h
  split at h
  · exact absurd h (by simp)
  · rename_i hcheck
    obtain ⟨hhash, huser⟩ := not_or.mp hcheck
    split at h
    · exact absurd h (by simp)
    · rename_i apiKeys hkeys
      obtain ⟨hid, hrows⟩ := Table.insert?_eq_some hkeys
      obtain rfl := Option.some.inj h
      exact ⟨hhash, huser, hid, hrows, rfl, rfl⟩

theorem insertAgent?_eq_some {db db' : Db} {agent : Agent}
    (h : db.insertAgent? agent = some db') :
    db'.agents.rows = db.agents.rows ++ [agent] ∧ db'.apiKeys = db.apiKeys ∧
      db'.users = db.users := by
  unfold Db.insertAgent? at h
  split at h
  · exact absurd h (by simp)
  · rename_i agents hagents
    split at h
    · obtain rfl := Option.some.inj h
      exact ⟨(Table.insert?_eq_some hagents).2, rfl, rfl⟩
    · exact absurd h (by simp)

/-- Overwriting an agent that keeps its key passes the foreign key check. -/
theorem putAgent?_of_mem {db : Db} {agent : Agent} (hmem : agent ∈ db.agents.rows) (row : Agent)
    (hkey : row.apiKeyId = agent.apiKeyId) :
    ∃ db', db.putAgent? row = some db' ∧ db'.agents = db.agents.put row ∧
      db'.apiKeys = db.apiKeys ∧ db'.users = db.users := by
  have hexists : KeyExists db.apiKeys row := by
    have h := db.agentKeys agent hmem
    unfold KeyExists at h ⊢
    rw [hkey]
    exact h
  exact ⟨_, dif_pos hexists, rfl, rfl, rfl⟩

/-- The rows that a request with the agent's key finds. -/
structure Found (db : Db) (keyHash : String) (key : ApiKey) (agent : Agent) : Prop where
  keyFound : db.apiKeys.rows.find? (fun k => k.keyHash == keyHash && k.isActive) = some key
  agentFound : db.agents.rows.find? (fun a => a.apiKeyId == some key.id) = some agent
  ownerFound : db.users.get? key.userId ≠ none

theorem find?_append_new {α : Type} {p : α → Bool} {l : List α} {a : α}
    (h : ∀ x ∈ l, p x = false) (ha : p a = true) : (l ++ [a]).find? p = some a := by
  rw [List.find?_append, List.find?_eq_none.mpr (by simpa using h)]
  simp [ha]

theorem registerAgent_ok {db db' : Db} {agentId apiKeyId token : String} {userId : Nat}
    {body : Body} (h : registerAgent sha256 db agentId apiKeyId token userId body = .ok db') :
    ∃ db₁, db.insertKey? (agentKeyRow sha256 apiKeyId token userId body) = some db₁ ∧
      db₁.insertAgent? (agentRow agentId apiKeyId userId body) = some db' := by
  unfold registerAgent at h
  split at h
  · exact absurd h (by simp)
  · split at h
    · exact absurd h (by simp)
    · rename_i db₂ hwrite
      obtain rfl := Except.ok.inj h
      exact Option.bind_eq_some_iff.mp hwrite

/-- Registration stores both copies of the restriction. -/
theorem registerAgent_found {db db' : Db} {agentId apiKeyId token : String} {userId : Nat}
    {body : Body} (h : registerAgent sha256 db agentId apiKeyId token userId body = .ok db') :
    Found db' (hashKey sha256 ("pk_agent_" ++ token))
      (agentKeyRow sha256 apiKeyId token userId body)
      (agentRow agentId apiKeyId userId body) := by
  obtain ⟨db₁, hinsert, hagent⟩ := registerAgent_ok h
  obtain ⟨hhash, huser, hid, hkeys, hagents, husers⟩ := insertKey?_eq_some hinsert
  obtain ⟨hagents', hkeys', husers'⟩ := insertAgent?_eq_some hagent
  refine ⟨?_, ?_, ?_⟩
  · rw [hkeys', hkeys]
    refine find?_append_new ?_ (by simp [agentKeyRow])
    intro k hk
    have hne : k.keyHash ≠ hashKey sha256 ("pk_agent_" ++ token) := fun heq =>
      hhash (List.mem_map.mpr ⟨k, hk, heq⟩)
    simp [hne]
  · rw [hagents', hagents]
    refine find?_append_new ?_ (by simp [agentRow, agentKeyRow])
    intro a ha
    -- the key is new, so no agent refers to it yet
    have hne : a.apiKeyId ≠ some apiKeyId := fun heq =>
      hid (db.agentKeys a ha apiKeyId heq)
    show (a.apiKeyId == some apiKeyId) = false
    simpa using hne
  · rw [husers', husers]
    exact huser

/-- An update succeeds and writes the agent's copy only. -/
theorem updateAgent_found {db : Db} {keyHash : String} {key : ApiKey} {agent : Agent}
    (hfound : Found db keyHash key agent) (body : Body) :
    ∃ db', updateAgent db agent.id agent.ownerId body = .ok db' ∧
      Found db' keyHash key (agent.update body) := by
  have hmem : agent ∈ db.agents.rows := List.mem_of_find?_eq_some hfound.agentFound
  have hself : db.agents.rows.find? (fun a => a.id == agent.id && a.ownerId == agent.ownerId) =
      some agent := by
    cases hfind : db.agents.rows.find? (fun a => a.id == agent.id && a.ownerId == agent.ownerId) with
    | none => exact absurd (List.find?_eq_none.mp hfind agent hmem) (by simp)
    | some a =>
        have hid : a.id = agent.id := by
          have := List.find?_some hfind
          simp only [Bool.and_eq_true, beq_iff_eq] at this
          exact this.1
        rw [Table.eq_of_key_eq (List.mem_of_find?_eq_some hfind) hmem hid]
  obtain ⟨db', hput, hagents, hkeys, husers⟩ := putAgent?_of_mem hmem (agent.update body) rfl
  refine ⟨db', ?_, ⟨?_, ?_, ?_⟩⟩
  · simp only [updateAgent, hself, hput]
  · rw [hkeys]
    exact hfound.keyFound
  · rw [hagents]
    have hp := List.find?_some hfound.agentFound
    exact Table.find?_put hfound.agentFound rfl hp
  · rw [husers]
    exact hfound.ownerFound

/-! ## Every history of one agent -/

/-- A `register_agent` or `update_agent` call with well-formed restrictions. -/
structure AgentCall where
  body : Body
  scopes : Mention
  sites : Mention
  scopesField : body.get? "allowed_scopes" = scopes.field
  sitesField : body.get? "allowed_sites" = sites.field

/-- A registration and then updates, all by one user on one agent. -/
def configure (sha256 : ByteArray → String) (db : Db) (agentId apiKeyId token : String)
    (userId : Nat) (registration : AgentCall) (updates : List AgentCall) : Except HttpError Db :=
  match registerAgent sha256 db agentId apiKeyId token userId registration.body with
  | .error e => .error e
  | .ok db => updates.foldlM (fun db call => updateAgent db agentId userId call.body) db

/-- The agent's restrictions are those of these mentions. -/
structure Configured (agent : Agent) (scopes sites : Mention) : Prop where
  scopes : agent.allowedScopes = dumpsIfTruthy scopes.field
  sites : agent.allowedSites = dumpsIfTruthy sites.field

theorem Configured.update {agent : Agent} {scopes sites : Mention}
    (h : Configured agent scopes sites) (call : AgentCall) :
    Configured (agent.update call.body) (scopes.after call.scopes) (sites.after call.sites) := by
  have hafter : ∀ (column : Option String) (before mention : Mention),
      column = dumpsIfTruthy before.field →
      (if mention.field.isSome then dumpsIfTruthy mention.field else column) =
        dumpsIfTruthy (before.after mention).field := by
    intro column before mention hcolumn
    cases mention with
    | absent => exact hcolumn
    | null => rfl
    | list values => rfl
  constructor
  · rw [Agent.update, call.scopesField]
    exact hafter _ _ _ h.scopes
  · rw [Agent.update, call.sitesField]
    exact hafter _ _ _ h.sites

/-- The updates keep the key's copy and leave the agent with the restrictions
of the last calls that mentioned them. -/
theorem updates_found {updates : List AgentCall} {db db' : Db} {keyHash : String} {key : ApiKey}
    {agent : Agent} {scopes sites : Mention} (hfound : Found db keyHash key agent)
    (hconfigured : Configured agent scopes sites)
    (h : updates.foldlM (fun db call => updateAgent db agent.id agent.ownerId call.body) db =
      .ok db') :
    ∃ agent', Found db' keyHash key agent' ∧ agent'.isActive = agent.isActive ∧
      Configured agent' (lastMention scopes (updates.map (·.scopes)))
        (lastMention sites (updates.map (·.sites))) := by
  induction updates generalizing db agent scopes sites with
  | nil =>
      obtain rfl := Except.ok.inj h
      exact ⟨agent, hfound, rfl, hconfigured⟩
  | cons call updates ih =>
      obtain ⟨db₁, hupdate, hfound₁⟩ := updateAgent_found hfound call.body
      rw [List.foldlM_cons, hupdate] at h
      obtain ⟨agent', hfound', hactive, hconfigured'⟩ :=
        ih hfound₁ (hconfigured.update call) h
      exact ⟨agent', hfound', hactive, hconfigured'⟩

/-- A request with the agent's key gets the intersection of the two copies. -/
theorem authenticate_found (py : PyText) {db : Db} {rawKey : String} {key : ApiKey} {agent : Agent}
    (hfound : Found db (hashKey sha256 rawKey) key agent) (hkey : rawKey ≠ "")
    (hexpires : key.expiresAt = none) (hactive : agent.isActive = true) (now : Nat)
    (bearer : Except HttpError Nat) :
    getCurrentUserOrApiKey py sha256 db now (some rawKey) bearer =
      .ok (recordUse db now key (some agent), authContext py key (some agent)) := by
  have howner : (db.users.get? key.userId).isNone = false := by
    simpa [Option.isNone_eq_false_iff, Option.isSome_iff_ne_none] using hfound.ownerFound
  simp [getCurrentUserOrApiKey, Option.filter, hkey, hfound.keyFound, hexpires, hfound.agentFound,
    hactive, howner]

/-! ## When the configuration is what is enforced -/

/-- The list of a mention, empty when there is none. -/
def Mention.values : Mention → List String
  | .list values => values
  | _ => []

/-- The key's copy of the scopes, which registration wrote, does not get in the
way of the agent's copy. -/
def ScopesTakeEffect (registered last : Mention) : Prop :=
  match last with
  | .absent | .null => registered.values = []
  | .list [] => registered.values ≠ [] ∧ normalizeScopes registered.values = ∅
  | .list values =>
      registered.values = [] ∨ normalizeScopes values ⊆ normalizeScopes registered.values

theorem stored_eq (normalize : List String → Finset String) (mention : Mention) :
    mention.stored normalize =
      if mention.values = [] then none else some (normalize mention.values) := by
  rcases mention with _ | _ | (_ | ⟨v, values⟩) <;> rfl

theorem combined_eq_meaning_iff (registered last : Mention) :
    combineScopeSets (registered.stored normalizeScopes) (last.stored normalizeScopes) =
      last.meaning normalizeScopes ↔ ScopesTakeEffect registered last := by
  rw [stored_eq normalizeScopes registered]
  by_cases hregistered : registered.values = []
  · -- the key allows everything: only an empty list is lost
    rw [if_pos hregistered, combineScopeSets_none_left]
    rcases last with _ | _ | (_ | ⟨v, values⟩)
    · simp [Mention.stored, Mention.meaning, ScopesTakeEffect, hregistered]
    · simp [Mention.stored, Mention.meaning, ScopesTakeEffect, hregistered]
    · simp [Mention.stored, Mention.meaning, ScopesTakeEffect, hregistered]
    · simp [Mention.stored, Mention.meaning, ScopesTakeEffect, hregistered]
  · rw [if_neg hregistered]
    rcases last with _ | _ | (_ | ⟨v, values⟩)
    · simp [Mention.stored, Mention.meaning, ScopesTakeEffect, hregistered]
    · simp [Mention.stored, Mention.meaning, ScopesTakeEffect, hregistered]
    · simp [Mention.stored, Mention.meaning, ScopesTakeEffect, hregistered, normalizeScopes]
    · simp [Mention.stored, Mention.meaning, ScopesTakeEffect, hregistered,
        Finset.inter_eq_right]

theorem stored_eq_meaning_iff (normalize : List String → Finset String) (last : Mention) :
    last.stored normalize = last.meaning normalize ↔ last ≠ .list [] := by
  rcases last with _ | _ | (_ | ⟨v, values⟩) <;> simp [Mention.stored, Mention.meaning]

/-- After any registration and any updates, the restrictions that a request
with the agent's key is held to are the ones mentioned last, exactly when the
scopes that were registered do not get in their way and the sites were not set
to the empty list. -/
theorem configured_enforced_iff (py : PyText) {db db' : Db} {agentId apiKeyId token : String}
    {userId : Nat}
    {registration : AgentCall} {updates : List AgentCall}
    (h : configure sha256 db agentId apiKeyId token userId registration updates = .ok db')
    (now : Nat) (bearer : Except HttpError Nat) :
    ∃ used auth,
      getCurrentUserOrApiKey py sha256 db' now (some ("pk_agent_" ++ token)) bearer =
        .ok (used, auth) ∧
      (auth.allowedScopes = (lastMention registration.scopes
            (updates.map (·.scopes))).meaning normalizeScopes ∧
          auth.allowedSites = (lastMention registration.sites
            (updates.map (·.sites))).meaning (normalizeSites py) ↔
        ScopesTakeEffect registration.scopes
            (lastMention registration.scopes (updates.map (·.scopes))) ∧
          lastMention registration.sites (updates.map (·.sites)) ≠ .list []) := by
  unfold configure at h
  split at h
  · exact absurd h (by simp)
  · rename_i db₁ hregister
    have hfound := registerAgent_found hregister
    have hconfigured : Configured (agentRow agentId apiKeyId userId registration.body)
        registration.scopes registration.sites :=
      ⟨by rw [agentRow, registration.scopesField], by rw [agentRow, registration.sitesField]⟩
    obtain ⟨agent, hfound', hactive, hscopes, hsites⟩ := updates_found hfound hconfigured h
    have hauth := authenticate_found py hfound' (by simp) rfl (hactive.trans rfl) now bearer
    refine ⟨_, _, hauth, ?_⟩
    have hkeyScopes : (agentKeyRow sha256 apiKeyId token userId registration.body).scopes =
        dumpsIfTruthy registration.scopes.field := by
      rw [agentKeyRow, registration.scopesField]
    simp only [authContext, hkeyScopes, Option.bind_some, hscopes, hsites, loadScopeSet_field,
      loadSiteSet_field, combined_eq_meaning_iff, stored_eq_meaning_iff]

/-- A registration or an update that lists these scopes and no sites. -/
def scopesCall (scopes : List String) : AgentCall where
  body := [("name", .str "reader"), ("allowed_scopes", .arr (scopes.map .str))]
  scopes := .list scopes
  sites := .absent
  scopesField := by simp [Body.get?, List.lookup_cons, Mention.field]
  sitesField := by simp [Body.get?, List.lookup_cons, Mention.field]

/-- One user, no keys, no agents. -/
def oneUser : Db where
  users := ⟨[⟨1⟩], by decide⟩
  apiKeys := Table.empty
  agents := Table.empty
  agentKeys := by simp

/-- `str.lower` on ASCII text; the other two are not called on strings. -/
def asciiText : PyText where
  lower := Text.asciiLower
  strOf _ := ""
  floatRepr s := s

local instance (priority := 1100) agentKeyDecEq : DecidableEq ByteArray :=
  ByteArray.instDecidableEq

/-- SHA-256 of the key `pk_agent_A`. -/
def agentKeyDigest (payload : ByteArray) : String :=
  if payload = "pk_agent_A".toUTF8 then
    "bd3e18f86186ed992616de81614a5ff2a9fe44cbb708d02fd10f6829d103c72b"
  else ""

/-- An agent registered for `balance` and then widened to `transactions` as
well is still held to `balance`. -/
theorem widening_not_enforced :
    ∃ db used auth,
      configure agentKeyDigest oneUser "agent-1" "key-1" "A" 1 (scopesCall ["balance"])
        [scopesCall ["balance", "transactions"]] = .ok db ∧
      getCurrentUserOrApiKey asciiText agentKeyDigest db 0 (some "pk_agent_A")
        (.error internalError) = .ok (used, auth) ∧
      auth.allowedScopes = some {"balance"} ∧
      (lastMention (.list ["balance"]) [.list ["balance", "transactions"]]).meaning
        normalizeScopes = some {"balance", "transactions"} := by
  refine ⟨_, _, _, rfl, rfl, ?_, ?_⟩
  · decide +kernel
  · decide +kernel

/-- Narrowing it takes effect. -/
theorem narrowing_enforced :
    ∃ db used auth,
      configure agentKeyDigest oneUser "agent-1" "key-1" "A" 1
        (scopesCall ["balance", "transactions"]) [scopesCall ["balance"]] = .ok db ∧
      getCurrentUserOrApiKey asciiText agentKeyDigest db 0 (some "pk_agent_A")
        (.error internalError) = .ok (used, auth) ∧
      auth.allowedScopes = some {"balance"} := by
  have hrun : configure agentKeyDigest oneUser "agent-1" "key-1" "A" 1
      (scopesCall ["balance", "transactions"]) [scopesCall ["balance"]] = .ok _ := rfl
  obtain ⟨used, auth, hauth, hiff⟩ :=
    configured_enforced_iff asciiText hrun 0 (.error internalError)
  refine ⟨_, used, auth, hrun, hauth, ?_⟩
  obtain ⟨hscopes, -⟩ := hiff.mpr ⟨Or.inr (by decide +kernel), by decide⟩
  rw [hscopes]
  decide +kernel

end Plaidify.Principals
