import Plaidify.Principals.Configuration
import Plaidify.Principals.Responses
import Plaidify.Lib.Runs

/-!
# A restricted principal in the tables

The owner of an API key or an agent may restrict it to scopes and sites. The
state follows one such principal, with the restriction its owner asked for
last, next to the tables; the steps are the endpoints that write API keys and
agents, the jobs that store what their executors return, and any change of the
link, token and consent tables.

A request of the principal is held to its restriction as long as its rows say
so (`auth_restricted`), and no step but the owner's own calls changes what they
say (`RowsOk.write`).
-/

namespace Plaidify.Principals

open AccessJobs (AccessJob)

/-! ## The principal and its restriction -/

/-- A restriction as its owner supplied it. -/
inductive Supplied where
  /-- The `scopes` of an API key, which are stored as they are. -/
  | text (value : String)
  /-- A field in the body of `register_agent` or `update_agent`. -/
  | value (value : Json)

/-- The list that a restriction names; a text names a list as JSON. -/
def Supplied.list? (py : PyText) : Supplied → Option (List String)
  | .text column | .value (.str column) => loadList py (some column)
  | .value (.arr values) => some (values.map py.str)
  | .value _ => none

/-- The scopes that it normalises to. -/
def Supplied.scopes (py : PyText) (supplied : Supplied) : Option (Finset String) :=
  (supplied.list? py).map normalizeScopes

/-- The sites that it normalises to. -/
def Supplied.sites (py : PyText) (supplied : Supplied) : Option (Finset String) :=
  (supplied.list? py).map (normalizeSites py)

/-- The principal under observation. -/
structure Principal where
  rawKey : String
  userId : Nat
  keyId : String
  /-- `none` for a plain API key. -/
  agentId : Option String
  scopes : Option Supplied
  sites : Option Supplied

/-! ## Steps -/

/-- What an executor returns: a dictionary that `json.dumps` writes without loss. -/
structure Answer (py : PyText) where
  body : Body
  writable : Json.Writable py.floatRepr (.obj body)

structure State (py : PyText) where
  store : Store
  /-- History variable: what the executor of a job has returned last. -/
  answers : String → Option (Answer py)
  principal : Option Principal

inductive Label (py : PyText) where
  /-- `create_api_key`; `followed` when this is the principal to observe. -/
  | createKey (followed : Bool) (id token : String) (userId : Nat) (scopes : Option String)
      (expiresAt : Option Nat)
  | registerAgent (followed : Bool) (agentId apiKeyId token : String) (userId : Nat) (body : Body)
  | updateAgent (agentId : String) (userId : Nat) (body : Body)
  | revokeKey (keyId : String) (userId : Nat)
  | deactivateAgent (agentId : String) (userId : Nat)
  /-- A request with a key, which updates the columns of its last use. -/
  | authenticate (now : Nat) (rawKey : String)
  /-- A job row is added or written, with what its executor has returned. -/
  | storeJob (job : AccessJob) (answer : Option (Answer py))
  | deleteJobs (p : AccessJob → Bool)
  /-- Any change of the links, access tokens and consent grants. -/
  | other (links : Table Link Link.linkToken) (accessTokens : Table AccessToken AccessToken.token)
      (consentGrants : Table ConsentGrant ConsentGrant.token)

/-- A restriction after a call with this field in its body. An empty text is none. -/
def override (before : Option Supplied) : Option Json → Option Supplied
  | none => before
  | some .null | some (.str "") => none
  | some value => some (.value value)

section

variable {py : PyText}

/-- The principal that a step creates or restricts anew. -/
def restricted (s : State py) : Label py → Option Principal
  | .createKey true id token userId scopes _ =>
      some { rawKey := "pk_" ++ token, userId, keyId := id, agentId := none
             scopes := (scopes.filter (· ≠ "")).map .text, sites := none }
  | .registerAgent true agentId apiKeyId token userId body =>
      some { rawKey := "pk_agent_" ++ token, userId, keyId := apiKeyId, agentId := some agentId
             scopes := override none (body.get? "allowed_scopes")
             sites := override none (body.get? "allowed_sites") }
  | .updateAgent agentId _ body =>
      match s.principal with
      | none => none
      | some p =>
          if p.agentId = some agentId then
            some { p with
              scopes := override p.scopes (body.get? "allowed_scopes")
              sites := override p.sites (body.get? "allowed_sites") }
          else none
  | _ => none

/-- The row of a job with what its executor returned, as `_apply_job_state`
writes it. -/
def jobRow (job : AccessJob) (answer : Option (Answer py)) : AccessJob :=
  { job with
    resultJson := AccessJobs.columnText
      (answer.bind fun answer => AccessJobs.serializeMetadata answer.body) }

end

section

variable (py : PyText) (sha256 : ByteArray → String)

/-- The tables after a step; a request that fails is no step. -/
def write (store : Store) : Label py → Option Store
  | .createKey _ id token userId scopes expiresAt =>
      (createApiKey sha256 store.db id token userId scopes expiresAt).toOption.map fun db =>
        { store with db }
  | .registerAgent _ agentId apiKeyId token userId body =>
      (registerAgent sha256 store.db agentId apiKeyId token userId body).toOption.map fun db =>
        { store with db }
  | .updateAgent agentId userId body =>
      (updateAgent store.db agentId userId body).toOption.map fun db => { store with db }
  | .revokeKey keyId userId =>
      (revokeApiKey store.db keyId userId).toOption.map fun db => { store with db }
  | .deactivateAgent agentId userId =>
      (deactivateAgent store.db agentId userId).toOption.map fun db => { store with db }
  | .authenticate now rawKey =>
      (getCurrentUserOrApiKey py sha256 store.db now (some rawKey)
        (.error internalError)).toOption.map fun r => { store with db := r.1 }
  | .storeJob job answer =>
      some { store with
        accessJobs :=
          (store.accessJobs.insert? (jobRow job answer)).getD
            (store.accessJobs.put (jobRow job answer)) }
  | .deleteJobs p => some { store with accessJobs := store.accessJobs.delete p }
  | .other links accessTokens consentGrants =>
      some { store with links, accessTokens, consentGrants }

/-- The answers after a step. -/
def record (answers : String → Option (Answer py)) : Label py → String → Option (Answer py)
  | .storeJob job answer => fun id => if id = job.id then answer else answers id
  | _ => answers

/-- One step; a principal to follow is chosen at most once. -/
def step (s : State py) (l : Label py) : Option (State py) :=
  match write py sha256 s.store l with
  | none => none
  | some store =>
      let t := { s with store, answers := record py s.answers l }
      match restricted s l with
      | none => some t
      | some p =>
          match l with
          | .updateAgent _ _ _ => some { t with principal := some p }
          | _ => if s.principal.isSome then none else some { t with principal := some p }

/-- No job has run yet. -/
def start (store : Store) : State py where
  store := { store with accessJobs := Table.empty }
  answers := fun _ => none
  principal := none

/-- The state that a run leaves, from any tables without jobs. -/
def run (store : Store) (tr : List (Label py)) : Option (State py) :=
  Runs.exec (step py sha256) (start py store) tr

end

/-! ## Restrictions that can be read back -/

/-- A text that is a JSON list, or a list that is not empty. -/
def Supplied.Readable (py : PyText) : Supplied → Prop
  | .text column => loadList py (some column) ≠ none
  | .value (.arr values) => values ≠ [] ∧ Json.Writable py.floatRepr (.arr values)
  | .value _ => False

/-- The restriction can be read back. -/
structure Readable (py : PyText) (p : Principal) : Prop where
  scopes : ∀ S ∈ p.scopes, S.Readable py
  sites : ∀ T ∈ p.sites, T.Readable py

variable {py : PyText} {sha256 : ByteArray → String}

theorem Supplied.Readable.list?_ne_none {S : Supplied} (h : S.Readable py) : S.list? py ≠ none := by
  cases S with
  | text text => exact h
  | value value =>
      cases value with
      | arr values => exact Option.some_ne_none _
      | _ => exact h.elim

/-- A restriction that an agent is given as a text is read back as none, whatever
the text is. -/
theorem loadList_agentText (text : String) :
    loadList py (dumpsIfTruthy (some (.str text))) = none := by
  have hloads : Json.loads py.floatRepr (Json.dumps (.str text)) = some (.str text) :=
    Json.loads_dumps (by simp [Json.Writable])
  unfold dumpsIfTruthy
  dsimp only
  split
  · unfold loadList
    dsimp only
    rw [hloads]
    split <;> rfl
  · rfl

/-- A list that an agent is given is read back, unless it is empty. -/
theorem loadList_agentList {values : List Json} (hne : values ≠ [])
    (hwritable : Json.Writable py.floatRepr (.arr values)) :
    loadList py (dumpsIfTruthy (some (.arr values))) = some (values.map py.str) := by
  have htruthy : Json.truthy (.arr values) = true := by
    cases values with
    | nil => exact absurd rfl hne
    | cons value values => rfl
  simp only [dumpsIfTruthy, htruthy, if_true, loadList, if_neg (dumps_arr_ne_empty values),
    Json.loads_dumps hwritable]

/-! ## What authentication finds -/

theorem getCurrentUserOrApiKey_ok {db used : Db} {now : Nat} {rawKey : String} {auth : AuthContext}
    (hkey : rawKey ≠ "")
    (h : getCurrentUserOrApiKey py sha256 db now (some rawKey) (.error internalError) =
      .ok (used, auth)) :
    ∃ key ∈ db.apiKeys.rows, key.keyHash = hashKey sha256 rawKey ∧
      used = recordUse db now key (db.agents.rows.find? fun a => a.apiKeyId == some key.id) ∧
      auth = authContext py key (db.agents.rows.find? fun a => a.apiKeyId == some key.id) := by
  have hheader : (some rawKey).filter (· ≠ "") = some rawKey := by simp [Option.filter, hkey]
  simp only [getCurrentUserOrApiKey, hheader] at h
  split at h
  · exact absurd h (by simp)
  · rename_i key hfind
    split at h
    · exact absurd h (by simp)
    · split at h
      · exact absurd h (by simp)
      · split at h
        · exact absurd h (by simp)
        · obtain ⟨rfl, rfl⟩ := Prod.mk.inj (Except.ok.inj h)
          have hhash := List.find?_some hfind
          simp only [Bool.and_eq_true, beq_iff_eq] at hhash
          exact ⟨key, List.mem_of_find?_eq_some hfind, hhash.1, rfl, rfl⟩

/-- The rows of the principal hold its restriction. -/
structure RowsOk (py : PyText) (sha256 : ByteArray → String) (db : Db) (p : Principal) : Prop where
  rawKey : p.rawKey ≠ ""
  keyExists : ∃ k ∈ db.apiKeys.rows, k.keyHash = hashKey sha256 p.rawKey
  key : ∀ k ∈ db.apiKeys.rows, k.keyHash = hashKey sha256 p.rawKey →
    k.id = p.keyId ∧ k.userId = p.userId ∧
      (p.agentId = none → ∀ S ∈ p.scopes, loadList py k.scopes = S.list? py)
  agentExists : p.agentId ≠ none → ∃ a ∈ db.agents.rows, a.apiKeyId = some p.keyId
  agent : ∀ a ∈ db.agents.rows, a.apiKeyId = some p.keyId →
    p.agentId = some a.id ∧ (∀ S ∈ p.scopes, loadList py a.allowedScopes = S.list? py) ∧
      ∀ T ∈ p.sites, loadList py a.allowedSites = T.list? py
  plain : p.agentId = none → p.sites = none

/-- A request of the principal is held to its restriction. -/
theorem auth_restricted {db used : Db} {now : Nat} {p : Principal} {auth : AuthContext}
    (hrows : RowsOk py sha256 db p) (hread : Readable py p)
    (h : getCurrentUserOrApiKey py sha256 db now (some p.rawKey) (.error internalError) =
      .ok (used, auth)) :
    auth.userId = p.userId ∧
      (∀ S ∈ p.scopes, ∃ A, auth.allowedScopes = some A ∧ ∀ set ∈ S.scopes py, A ⊆ set) ∧
      ∀ T ∈ p.sites, ∃ B, auth.allowedSites = some B ∧ T.sites py = some B := by
  obtain ⟨key, hmem, hhash, -, rfl⟩ := getCurrentUserOrApiKey_ok hrows.rawKey h
  obtain ⟨hid, huser, hplain⟩ := hrows.key key hmem hhash
  refine ⟨huser, ?_⟩
  -- is there an agent for the key?
  cases hagent : db.agents.rows.find? fun a => a.apiKeyId == some key.id with
  | none =>
      -- no agent: the principal is a plain key, restricted by the key's column
      have hnone : p.agentId = none := by
        by_contra hsome
        obtain ⟨a, ha, hkeyId⟩ := hrows.agentExists hsome
        exact absurd (List.find?_eq_none.mp hagent a ha) (by simp [hkeyId, hid])
      refine ⟨?_, ?_⟩
      · intro S hS
        obtain ⟨values, hvalues⟩ := Option.ne_none_iff_exists'.mp (hread.scopes S hS).list?_ne_none
        have hcolumn : loadList py key.scopes = some values := (hplain hnone S hS).trans hvalues
        refine ⟨normalizeScopes values, ?_, ?_⟩
        · simp [authContext, loadScopeSet, hcolumn]
        · intro set hset
          rw [Supplied.scopes, hvalues, Option.map_some] at hset
          obtain rfl := Option.some.inj hset
          exact Finset.Subset.refl _
      · intro T hT
        -- a plain key has no restriction of sites
        rw [hrows.plain hnone] at hT
        exact absurd hT (by simp)
  | some a =>
      -- the agent is the principal's
      have ha : a.apiKeyId = some p.keyId := by
        have := List.find?_some hagent
        simpa [hid] using this
      obtain ⟨-, hscopes, hsites⟩ := hrows.agent a (List.mem_of_find?_eq_some hagent) ha
      refine ⟨?_, ?_⟩
      · intro S hS
        obtain ⟨values, hvalues⟩ := Option.ne_none_iff_exists'.mp (hread.scopes S hS).list?_ne_none
        have hcolumn : loadList py a.allowedScopes = some values := (hscopes S hS).trans hvalues
        -- whatever the key's copy says, it can only take away
        refine ⟨(loadScopeSet py key.scopes).elim (normalizeScopes values)
          (· ∩ normalizeScopes values), ?_, ?_⟩
        · have hcopy : loadScopeSet py a.allowedScopes = some (normalizeScopes values) := by
            rw [loadScopeSet, hcolumn, Option.map_some]
          cases hown : loadScopeSet py key.scopes <;> simp [authContext, hcopy, hown]
        · intro set hset
          rw [Supplied.scopes, hvalues, Option.map_some] at hset
          obtain rfl := Option.some.inj hset
          cases loadScopeSet py key.scopes with
          | none => exact Finset.Subset.refl _
          | some own => exact Finset.inter_subset_right
      · -- the sites are read from the agent alone
        intro T hT
        obtain ⟨values, hvalues⟩ := Option.ne_none_iff_exists'.mp (hread.sites T hT).list?_ne_none
        have hcolumn : loadList py a.allowedSites = some values := (hsites T hT).trans hvalues
        refine ⟨normalizeSites py values, ?_, ?_⟩
        · simp [authContext, loadSiteSet, hcolumn]
        · rw [Supplied.sites, hvalues, Option.map_some]

/-! ## The rows through a step -/

/-- The columns of a key that authentication goes by. -/
def ApiKey.identity (k : ApiKey) : String × String × Nat × Option String :=
  (k.id, k.keyHash, k.userId, k.scopes)

/-- The columns of an agent that authentication goes by. -/
def Agent.identity (a : Agent) : String × Option String × Option String × Option String :=
  (a.id, a.apiKeyId, a.allowedScopes, a.allowedSites)

/-- Only columns that no restriction depends on differ. -/
structure SameRestrictions (db db' : Db) : Prop where
  apiKeys : db'.apiKeys.rows.map ApiKey.identity = db.apiKeys.rows.map ApiKey.identity
  agents : db'.agents.rows.map Agent.identity = db.agents.rows.map Agent.identity

theorem SameRestrictions.refl (db : Db) : SameRestrictions db db := ⟨rfl, rfl⟩

theorem SameRestrictions.trans {db₁ db₂ db₃ : Db} (h₁ : SameRestrictions db₁ db₂)
    (h₂ : SameRestrictions db₂ db₃) : SameRestrictions db₁ db₃ :=
  ⟨h₂.apiKeys.trans h₁.apiKeys, h₂.agents.trans h₁.agents⟩

theorem sameRestrictions_putKey {db : Db} {key row : ApiKey} (hmem : key ∈ db.apiKeys.rows)
    (hrow : row.identity = key.identity) : SameRestrictions db (db.putKey row) := by
  have hid : row.id = key.id := congrArg Prod.fst hrow
  exact ⟨Table.map_put hmem hid.symm hrow, rfl⟩

theorem sameRestrictions_putAgent? {db db' : Db} {agent row : Agent}
    (hmem : agent ∈ db.agents.rows) (h : db.putAgent? row = some db')
    (hrow : row.identity = agent.identity) : SameRestrictions db db' := by
  have hid : row.id = agent.id := congrArg Prod.fst hrow
  have hkey : row.apiKeyId = agent.apiKeyId := congrArg (fun c => c.2.1) hrow
  obtain ⟨db'', hput, hagents, hkeys, -⟩ := putAgent?_of_mem hmem row hkey
  obtain rfl : db'' = db' := Option.some.inj (hput.symm.trans h)
  exact ⟨by rw [hkeys], by rw [hagents]; exact Table.map_put hmem hid.symm hrow⟩

/-- A condition on what authentication goes by carries over. -/
theorem SameRestrictions.apiKeys_iff {db db' : Db} (h : SameRestrictions db db')
    (P : String × String × Nat × Option String → Prop) :
    (∀ k ∈ db'.apiKeys.rows, P k.identity) ↔ ∀ k ∈ db.apiKeys.rows, P k.identity := by
  rw [← List.forall_mem_map (P := P), h.apiKeys, List.forall_mem_map]

theorem SameRestrictions.agents_iff {db db' : Db} (h : SameRestrictions db db')
    (P : String × Option String × Option String × Option String → Prop) :
    (∀ a ∈ db'.agents.rows, P a.identity) ↔ ∀ a ∈ db.agents.rows, P a.identity := by
  rw [← List.forall_mem_map (P := P), h.agents, List.forall_mem_map]

theorem RowsOk.of_same {db db' : Db} {p : Principal} (hrows : RowsOk py sha256 db p)
    (h : SameRestrictions db db') : RowsOk py sha256 db' p where
  rawKey := hrows.rawKey
  keyExists := by
    by_contra hnone
    push Not at hnone
    obtain ⟨k, hk, hhash⟩ := hrows.keyExists
    exact (h.apiKeys_iff fun c => c.2.1 ≠ hashKey sha256 p.rawKey).mp hnone k hk hhash
  key := (h.apiKeys_iff fun c => c.2.1 = hashKey sha256 p.rawKey → c.1 = p.keyId ∧
    c.2.2.1 = p.userId ∧
    (p.agentId = none → ∀ S ∈ p.scopes, loadList py c.2.2.2 = S.list? py)).mpr hrows.key
  agentExists := by
    intro hagent
    by_contra hnone
    push Not at hnone
    obtain ⟨a, ha, hkey⟩ := hrows.agentExists hagent
    exact (h.agents_iff fun c => c.2.1 ≠ some p.keyId).mp hnone a ha hkey
  agent := (h.agents_iff fun c => c.2.1 = some p.keyId → p.agentId = some c.1 ∧
    (∀ S ∈ p.scopes, loadList py c.2.2.1 = S.list? py) ∧
    ∀ T ∈ p.sites, loadList py c.2.2.2 = T.list? py).mpr hrows.agent
  plain := hrows.plain

theorem keyId_mem {db : Db} {p : Principal} (hrows : RowsOk py sha256 db p) :
    p.keyId ∈ db.apiKeys.rows.map ApiKey.id := by
  obtain ⟨k, hk, hhash⟩ := hrows.keyExists
  exact List.mem_map.mpr ⟨k, hk, (hrows.key k hk hhash).1⟩

/-- A new key has another hash than the principal's. -/
theorem RowsOk.insertKey {db db' : Db} {p : Principal} {row : ApiKey}
    (hrows : RowsOk py sha256 db p) (h : db.insertKey? row = some db') :
    RowsOk py sha256 db' p := by
  obtain ⟨hhash, -, -, hkeys, hagents, -⟩ := insertKey?_eq_some h
  obtain ⟨k, hk, hkhash⟩ := hrows.keyExists
  have hne : row.keyHash ≠ hashKey sha256 p.rawKey := fun heq =>
    hhash (List.mem_map.mpr ⟨k, hk, hkhash.trans heq.symm⟩)
  refine ⟨hrows.rawKey, ⟨k, ?_, hkhash⟩, ?_, ?_, ?_, hrows.plain⟩
  · rw [hkeys]
    exact List.mem_append_left _ hk
  · intro k' hk' hk'hash
    rw [hkeys] at hk'
    rcases List.mem_append.mp hk' with hold | hnew
    · exact hrows.key k' hold hk'hash
    · rw [List.mem_singleton.mp hnew] at hk'hash
      exact absurd hk'hash hne
  · rw [hagents]
    exact hrows.agentExists
  · rw [hagents]
    exact hrows.agent

/-- A new agent with another key. -/
theorem RowsOk.insertAgent {db db' : Db} {p : Principal} {row : Agent}
    (hrows : RowsOk py sha256 db p) (hkey : row.apiKeyId ≠ some p.keyId)
    (h : db.insertAgent? row = some db') : RowsOk py sha256 db' p := by
  obtain ⟨hagents, hkeys, -⟩ := insertAgent?_eq_some h
  refine ⟨hrows.rawKey, ?_, ?_, ?_, ?_, hrows.plain⟩
  · rw [hkeys]
    exact hrows.keyExists
  · rw [hkeys]
    exact hrows.key
  · intro hagent
    obtain ⟨a, ha, hakey⟩ := hrows.agentExists hagent
    exact ⟨a, by rw [hagents]; exact List.mem_append_left _ ha, hakey⟩
  · intro a ha hakey
    rw [hagents] at ha
    rcases List.mem_append.mp ha with hold | hnew
    · exact hrows.agent a hold hakey
    · rw [List.mem_singleton.mp hnew] at hakey
      exact absurd hakey hkey

theorem createApiKey_ok {db db' : Db} {id token : String} {userId : Nat} {scopes : Option String}
    {expiresAt : Option Nat}
    (h : createApiKey sha256 db id token userId scopes expiresAt = .ok db') :
    db.insertKey? { id, keyHash := hashKey sha256 ("pk_" ++ token), userId, scopes, expiresAt } =
      some db' := by
  unfold createApiKey at h
  dsimp only at h
  split at h
  · exact absurd h (by simp)
  · rename_i hinsert
    obtain rfl := Except.ok.inj h
    exact hinsert

theorem revokeApiKey_same {db db' : Db} {keyId : String} {userId : Nat}
    (h : revokeApiKey db keyId userId = .ok db') : SameRestrictions db db' := by
  unfold revokeApiKey at h
  split at h
  · exact absurd h (by simp)
  · rename_i key hfind
    obtain rfl := Except.ok.inj h
    exact sameRestrictions_putKey (List.mem_of_find?_eq_some hfind) rfl

theorem deactivateAgent_same {db db' : Db} {agentId : String} {userId : Nat}
    (h : deactivateAgent db agentId userId = .ok db') : SameRestrictions db db' := by
  unfold deactivateAgent at h
  split at h
  · exact absurd h (by simp)
  · rename_i agent hfind
    split at h
    · exact absurd h (by simp)
    · rename_i db₁ hput
      have hagent := sameRestrictions_putAgent? (List.mem_of_find?_eq_some hfind) hput rfl
      split at h
      · obtain rfl := Except.ok.inj h
        exact hagent
      · rename_i key hkey
        obtain rfl := Except.ok.inj h
        obtain ⟨keyId, -, hget⟩ := Option.bind_eq_some_iff.mp hkey
        exact hagent.trans (sameRestrictions_putKey (Table.get?_mem hget).1 rfl)

theorem recordUse_same {db : Db} {now : Nat} {key : ApiKey} {agent : Option Agent}
    (hkey : key ∈ db.apiKeys.rows) (hagent : ∀ a ∈ agent, a ∈ db.agents.rows) :
    SameRestrictions db (recordUse db now key agent) := by
  have hput : SameRestrictions db (db.putKey { key with lastUsedAt := some now }) :=
    sameRestrictions_putKey hkey rfl
  unfold recordUse
  dsimp only
  cases agent with
  | none => exact hput
  | some a =>
      rw [Option.bind_some]
      cases hwrite : (db.putKey { key with lastUsedAt := some now }).putAgent?
          { a with lastActiveAt := some now } with
      | none => exact hput
      | some db' =>
          exact hput.trans (sameRestrictions_putAgent? (hagent a rfl) hwrite rfl)

theorem getCurrentUserOrApiKey_same {db used : Db} {now : Nat} {rawKey : String}
    {auth : AuthContext}
    (h : getCurrentUserOrApiKey py sha256 db now (some rawKey) (.error internalError) =
      .ok (used, auth)) : SameRestrictions db used := by
  by_cases hkey : rawKey = ""
  · -- an empty header is no header
    subst hkey
    exact absurd h (by simp [getCurrentUserOrApiKey, Option.filter])
  · obtain ⟨key, hmem, -, rfl, -⟩ := getCurrentUserOrApiKey_ok hkey h
    exact recordUse_same hmem fun a ha => List.mem_of_find?_eq_some ha

/-! ### What a call stores -/

/-- A registration writes a column that was empty. -/
theorem dumps_field_eq (field : Option Json) :
    dumpsIfTruthy field = if field.isSome then dumpsIfTruthy field else none := by
  cases field <;> rfl

/-- A column of scopes or sites after a call that may mention them. -/
theorem loadList_override {column : Option String} {before : Option Supplied}
    (field : Option Json) (hbefore : ∀ S ∈ before, loadList py column = S.list? py)
    (hread : ∀ S ∈ override before field, S.Readable py) :
    ∀ S ∈ override before field,
      loadList py (if field.isSome then dumpsIfTruthy field else column) = S.list? py := by
  intro S hS
  cases field with
  | none => exact hbefore S hS
  | some value =>
      have hreadable := hread S hS
      rw [Option.isSome_some, if_pos rfl]
      unfold override at hS
      split at hS
      · rename_i hnone
        cases hnone
      · cases hS
      · cases hS
      · rename_i value' _ _ heq
        obtain rfl := Option.some.inj heq
        obtain rfl := Option.some.inj hS
        -- of all values, only a list that is not empty is readable
        cases value with
        | arr values => exact loadList_agentList hreadable.1 hreadable.2
        | _ => exact hreadable.elim

/-- A plain key with the text its owner supplied. -/
theorem rowsOk_createApiKey {db db' : Db} {id token : String} {userId : Nat}
    {scopes : Option String} {expiresAt : Option Nat}
    (h : createApiKey sha256 db id token userId scopes expiresAt = .ok db') :
    RowsOk py sha256 db'
      { rawKey := "pk_" ++ token, userId, keyId := id, agentId := none
        scopes := (scopes.filter (· ≠ "")).map .text, sites := none } := by
  obtain ⟨hhash, -, hid, hkeys, hagents, -⟩ := insertKey?_eq_some (createApiKey_ok h)
  refine ⟨by simp, ?_, ?_, fun hagent => absurd rfl hagent, ?_, fun _ => rfl⟩
  · exact ⟨_, by rw [hkeys]; exact List.mem_append_right _ (List.mem_singleton_self _), rfl⟩
  · intro k hk hkhash
    rw [hkeys] at hk
    rcases List.mem_append.mp hk with hold | hnew
    · exact absurd (List.mem_map.mpr ⟨k, hold, hkhash⟩) hhash
    · obtain rfl := List.mem_singleton.mp hnew
      refine ⟨rfl, rfl, fun _ S hS => ?_⟩
      obtain ⟨text, htext, rfl⟩ := Option.map_eq_some_iff.mp hS
      rw [Option.eq_some_of_filter_eq_some htext]
      rfl
  · -- no agent refers to a key that is new
    intro a ha hkey
    rw [hagents] at ha
    exact absurd (db.agentKeys a ha id hkey) hid

/-- An agent with the restriction of its registration. -/
theorem rowsOk_registerAgent {db db' : Db} {agentId apiKeyId token : String} {userId : Nat}
    {body : Body}
    (h : registerAgent sha256 db agentId apiKeyId token userId body = .ok db')
    (hscopes : ∀ S ∈ override none (body.get? "allowed_scopes"), S.Readable py)
    (hsites : ∀ T ∈ override none (body.get? "allowed_sites"), T.Readable py) :
    RowsOk py sha256 db'
      { rawKey := "pk_agent_" ++ token, userId, keyId := apiKeyId, agentId := some agentId
        scopes := override none (body.get? "allowed_scopes")
        sites := override none (body.get? "allowed_sites") } := by
  obtain ⟨db₁, hinsert, hagent⟩ := registerAgent_ok h
  obtain ⟨hhash, -, hid, hkeys, hagents, -⟩ := insertKey?_eq_some hinsert
  obtain ⟨hagents', hkeys', -⟩ := insertAgent?_eq_some hagent
  refine ⟨by simp, ?_, ?_, ?_, ?_, fun hagent => absurd hagent (by simp)⟩
  · refine ⟨agentKeyRow sha256 apiKeyId token userId body, ?_, rfl⟩
    rw [hkeys', hkeys]
    exact List.mem_append_right _ (List.mem_singleton_self _)
  · intro k hk hkhash
    rw [hkeys', hkeys] at hk
    rcases List.mem_append.mp hk with hold | hnew
    · exact absurd (List.mem_map.mpr ⟨k, hold, hkhash⟩) hhash
    · obtain rfl := List.mem_singleton.mp hnew
      exact ⟨rfl, rfl, fun hagent => absurd hagent (by simp)⟩
  · intro _
    refine ⟨agentRow agentId apiKeyId userId body, ?_, rfl⟩
    rw [hagents']
    exact List.mem_append_right _ (List.mem_singleton_self _)
  · intro a ha hkey
    rw [hagents', hagents] at ha
    rcases List.mem_append.mp ha with hold | hnew
    · exact absurd (db.agentKeys a hold apiKeyId hkey) hid
    · obtain rfl := List.mem_singleton.mp hnew
      refine ⟨rfl, ?_, ?_⟩
      · intro S hS
        rw [agentRow, dumps_field_eq]
        exact loadList_override _ (by simp) hscopes S hS
      · intro T hT
        rw [agentRow, dumps_field_eq (body.get? "allowed_sites")]
        exact loadList_override _ (by simp) hsites T hT

theorem updateAgent_ok {db db' : Db} {agentId : String} {userId : Nat} {body : Body}
    (h : updateAgent db agentId userId body = .ok db') :
    ∃ agent ∈ db.agents.rows, agent.id = agentId ∧ db'.apiKeys = db.apiKeys ∧
      db'.agents = db.agents.put (agent.update body) := by
  unfold updateAgent at h
  split at h
  · exact absurd h (by simp)
  · rename_i agent hfind
    split at h
    · exact absurd h (by simp)
    · rename_i db₁ hput
      obtain rfl := Except.ok.inj h
      have hmem := List.mem_of_find?_eq_some hfind
      have hid : agent.id = agentId := by
        have := List.find?_some hfind
        simp only [Bool.and_eq_true, beq_iff_eq] at this
        exact this.1
      obtain ⟨db₂, hput₂, hagents, hkeys, -⟩ := putAgent?_of_mem hmem (agent.update body) rfl
      obtain rfl : db₂ = db₁ := Option.some.inj (hput₂.symm.trans hput)
      exact ⟨agent, hmem, hid, hkeys, hagents⟩

/-- The update of another agent. -/
theorem RowsOk.updateOther {db db' : Db} {p : Principal} {agentId : String} {userId : Nat}
    {body : Body} (hrows : RowsOk py sha256 db p) (hne : p.agentId ≠ some agentId)
    (h : updateAgent db agentId userId body = .ok db') : RowsOk py sha256 db' p := by
  obtain ⟨agent, hmem, hid, hkeys, hagents⟩ := updateAgent_ok h
  -- the agent that is written does not have the principal's key
  have hother : agent.apiKeyId ≠ some p.keyId := fun hkey =>
    hne (by rw [(hrows.agent agent hmem hkey).1, hid])
  refine ⟨hrows.rawKey, ?_, ?_, ?_, ?_, hrows.plain⟩
  · rw [hkeys]
    exact hrows.keyExists
  · rw [hkeys]
    exact hrows.key
  · intro hagent
    obtain ⟨a, ha, hakey⟩ := hrows.agentExists hagent
    refine ⟨a, ?_, hakey⟩
    rw [hagents]
    refine Table.mem_put_of_ne ha ?_
    intro heq
    have hsame : a = agent := Table.eq_of_key_eq ha hmem heq
    exact hother (hsame ▸ hakey)
  · intro a ha hakey
    rw [hagents] at ha
    rcases Table.mem_put ha with rfl | ⟨hold, -⟩
    · exact absurd hakey hother
    · exact hrows.agent a hold hakey

/-- The update of the principal's own agent. -/
theorem RowsOk.updateOwn {db db' : Db} {p : Principal} {agentId : String} {userId : Nat}
    {body : Body} (hrows : RowsOk py sha256 db p) (hown : p.agentId = some agentId)
    (hscopes : ∀ S ∈ override p.scopes (body.get? "allowed_scopes"), S.Readable py)
    (hsites : ∀ T ∈ override p.sites (body.get? "allowed_sites"), T.Readable py)
    (h : updateAgent db agentId userId body = .ok db') :
    RowsOk py sha256 db'
      { p with
        scopes := override p.scopes (body.get? "allowed_scopes")
        sites := override p.sites (body.get? "allowed_sites") } := by
  obtain ⟨agent, hmem, hid, hkeys, hagents⟩ := updateAgent_ok h
  have hnotPlain : p.agentId ≠ none := by
    rw [hown]
    exact Option.some_ne_none agentId
  refine ⟨hrows.rawKey, ?_, ?_, ?_, ?_, fun hplain => absurd hplain hnotPlain⟩
  · rw [hkeys]
    exact hrows.keyExists
  · intro k hk hhash
    rw [hkeys] at hk
    obtain ⟨hkid, huser, -⟩ := hrows.key k hk hhash
    exact ⟨hkid, huser, fun hplain => absurd hplain hnotPlain⟩
  · intro _
    obtain ⟨a, ha, hakey⟩ := hrows.agentExists hnotPlain
    -- the agent with the principal's key is the one that is written
    have hsame : a = agent := by
      refine Table.eq_of_key_eq ha hmem ?_
      have haid := (hrows.agent a ha hakey).1
      rw [hown] at haid
      rw [hid]
      exact (Option.some.inj haid).symm
    refine ⟨agent.update body, ?_, hsame ▸ hakey⟩
    rw [hagents]
    exact Table.mem_put_self hmem rfl
  · intro a ha hakey
    rw [hagents] at ha
    rcases Table.mem_put ha with rfl | ⟨hold, hne⟩
    · obtain ⟨haid, hbeforeScopes, hbeforeSites⟩ := hrows.agent agent hmem hakey
      refine ⟨haid, ?_, ?_⟩
      · intro S hS
        exact loadList_override _ hbeforeScopes hscopes S hS
      · intro T hT
        exact loadList_override _ hbeforeSites hsites T hT
    · have haid := (hrows.agent a hold hakey).1
      rw [hown] at haid
      exact absurd ((Option.some.inj haid).symm.trans hid.symm) hne

/-! ### Steps -/

theorem toOption_map_eq_some {α β : Type} {e : Except HttpError α} {f : α → β} {b : β}
    (h : e.toOption.map f = some b) : ∃ a, e = .ok a ∧ f a = b := by
  cases e with
  | error e => exact absurd h (by simp [Except.toOption])
  | ok a => exact ⟨a, rfl, Option.some.inj h⟩

/-- Nothing but the restriction of the principal itself moves its rows. -/
theorem RowsOk.write {store store' : Store} {p : Principal} {l : Label py}
    (hrows : RowsOk py sha256 store.db p) (h : write py sha256 store l = some store')
    (hother : ∀ agentId userId body, l = .updateAgent agentId userId body →
      p.agentId ≠ some agentId) : RowsOk py sha256 store'.db p := by
  cases l with
  | createKey followed id token userId scopes expiresAt =>
      obtain ⟨db, hdb, rfl⟩ := toOption_map_eq_some h
      exact hrows.insertKey (createApiKey_ok hdb)
  | registerAgent followed agentId apiKeyId token userId body =>
      obtain ⟨db, hdb, rfl⟩ := toOption_map_eq_some h
      obtain ⟨db₁, hinsert, hagent⟩ := registerAgent_ok hdb
      obtain ⟨-, -, hid, -⟩ := insertKey?_eq_some hinsert
      refine (hrows.insertKey hinsert).insertAgent ?_ hagent
      intro heq
      exact hid (Option.some.inj heq ▸ keyId_mem hrows)
  | updateAgent agentId userId body =>
      obtain ⟨db, hdb, rfl⟩ := toOption_map_eq_some h
      exact hrows.updateOther (hother agentId userId body rfl) hdb
  | revokeKey keyId userId =>
      obtain ⟨db, hdb, rfl⟩ := toOption_map_eq_some h
      exact hrows.of_same (revokeApiKey_same hdb)
  | deactivateAgent agentId userId =>
      obtain ⟨db, hdb, rfl⟩ := toOption_map_eq_some h
      exact hrows.of_same (deactivateAgent_same hdb)
  | authenticate now rawKey =>
      obtain ⟨⟨used, auth⟩, hauth, rfl⟩ := toOption_map_eq_some h
      exact hrows.of_same (getCurrentUserOrApiKey_same hauth)
  | storeJob job answer =>
      obtain rfl := Option.some.inj h
      exact hrows
  | deleteJobs d =>
      obtain rfl := Option.some.inj h
      exact hrows
  | other links accessTokens consentGrants =>
      obtain rfl := Option.some.inj h
      exact hrows

/-- A job of the table after a step is the one stored, or one with another id
that was there before. -/
theorem write_jobs {store store' : Store} {l : Label py} (h : write py sha256 store l = some store') :
    ∀ row ∈ store'.accessJobs.rows,
      (∃ job answer, l = .storeJob job answer ∧ row = jobRow job answer) ∨
        row ∈ store.accessJobs.rows ∧ ∀ job answer, l = .storeJob job answer → row.id ≠ job.id := by
  intro row hrow
  cases l with
  | storeJob job answer =>
      obtain rfl := Option.some.inj h
      dsimp only at hrow
      cases hinsert : store.accessJobs.insert? (jobRow job answer) with
      | none =>
          rw [hinsert, Option.getD_none] at hrow
          rcases Table.mem_put hrow with rfl | ⟨hold, hne⟩
          · exact .inl ⟨job, answer, rfl, rfl⟩
          · refine .inr ⟨hold, ?_⟩
            rintro _ _ ⟨⟩
            exact hne
      | some jobs =>
          obtain ⟨hfresh, hrows⟩ := Table.insert?_eq_some hinsert
          rw [hinsert, Option.getD_some, hrows] at hrow
          rcases List.mem_append.mp hrow with hold | hnew
          · refine .inr ⟨hold, ?_⟩
            rintro _ _ ⟨⟩ heq
            exact hfresh (heq ▸ List.mem_map_of_mem hold)
          · obtain rfl := List.mem_singleton.mp hnew
            exact .inl ⟨job, answer, rfl, rfl⟩
  | deleteJobs d =>
      obtain rfl := Option.some.inj h
      exact .inr ⟨(List.mem_filter.mp hrow).1, by rintro _ _ ⟨⟩⟩
  | other links accessTokens consentGrants =>
      obtain rfl := Option.some.inj h
      exact .inr ⟨hrow, by rintro _ _ ⟨⟩⟩
  | createKey | registerAgent | updateAgent | revokeKey | deactivateAgent | authenticate =>
      obtain ⟨_, -, rfl⟩ := toOption_map_eq_some h
      exact .inr ⟨hrow, by rintro _ _ ⟨⟩⟩

theorem step_eq_some {s t : State py} {l : Label py} (h : step py sha256 s l = some t) :
    ∃ store, write py sha256 s.store l = some store ∧
      ((restricted s l = none ∧ t = { s with store, answers := record py s.answers l }) ∨
        ∃ p, restricted s l = some p ∧
          t = { store, answers := record py s.answers l, principal := some p }) := by
  unfold step at h
  split at h
  · exact absurd h (by simp)
  · rename_i store hwrite
    refine ⟨store, hwrite, ?_⟩
    split at h
    · rename_i hnone
      exact .inl ⟨hnone, (Option.some.inj h).symm⟩
    · rename_i p hsome
      refine .inr ⟨p, hsome, ?_⟩
      split at h
      · exact (Option.some.inj h).symm
      · split at h
        · exact absurd h (by simp)
        · exact (Option.some.inj h).symm

/-- A restriction that can be read back is in the tables once it is set. -/
theorem rowsOk_restricted {s : State py} {l : Label py} {p : Principal} {store : Store}
    (hrows : ∀ q ∈ s.principal, RowsOk py sha256 s.store.db q) (hread : Readable py p)
    (hrestricted : restricted s l = some p) (h : write py sha256 s.store l = some store) :
    RowsOk py sha256 store.db p := by
  cases l with
  | createKey followed id token userId scopes expiresAt =>
      cases followed with
      | false => exact absurd hrestricted (by simp [restricted])
      | true =>
          obtain rfl := Option.some.inj hrestricted
          obtain ⟨db, hdb, rfl⟩ := toOption_map_eq_some h
          exact rowsOk_createApiKey hdb
  | registerAgent followed agentId apiKeyId token userId body =>
      cases followed with
      | false => exact absurd hrestricted (by simp [restricted])
      | true =>
          obtain rfl := Option.some.inj hrestricted
          obtain ⟨db, hdb, rfl⟩ := toOption_map_eq_some h
          exact rowsOk_registerAgent hdb hread.scopes hread.sites
  | updateAgent agentId userId body =>
      obtain ⟨db, hdb, rfl⟩ := toOption_map_eq_some h
      cases hq : s.principal with
      | none =>
          simp only [restricted, hq] at hrestricted
          exact absurd hrestricted (by simp)
      | some q =>
          simp only [restricted, hq] at hrestricted
          split at hrestricted
          · rename_i hown
            obtain rfl := Option.some.inj hrestricted
            exact (hrows q hq).updateOwn hown hread.scopes hread.sites hdb
          · exact absurd hrestricted (by simp)
  | revokeKey | deactivateAgent | authenticate | storeJob | deleteJobs | other =>
      exact absurd hrestricted (by simp [restricted])

end Plaidify.Principals
