import Mathlib.Data.List.ReduceOption
import Plaidify.Principals.Confinement

/-!
# What `fetch_data` returns

A request to `fetch_data` may be restricted by the scopes of the access token, by
those of a consent grant, and by those of the API key and of its agent. Each is a
list of scopes or null; `fetchData_filtered` says that the executor is asked for
the fields that all of them allow, and that only these are returned.

The endpoint takes the field of a scope as it stands. The scopes of a principal
are trimmed, and an empty one is left out, which `emptyScope_not_filtered` is
about.
-/

namespace Plaidify.Principals

/-! ## The scopes of a request -/

/-- The scope lists that restrict a request, where there are any. -/
structure Sources where
  token : Option (List String)
  consent : Option (List String)
  key : Option (List String)
  agent : Option (List String)

/-- The column in which a scope list is stored. -/
def scopesColumn (scopes : Option (List String)) : Option String :=
  scopes.map fun scopes => Json.dumps (.arr (scopes.map .str))

section

variable (py : PyText) (sha256 : ByteArray → String)

/-- The API key of a request, with `X-API-Key` as its header of that name. -/
def requestKey (db : Db) (xApiKey : Option String) : Option ApiKey :=
  (xApiKey.filter (· ≠ "")).bind fun apiKey =>
    db.apiKeys.rows.find? fun k => k.keyHash == hashKey sha256 apiKey && k.isActive

def keyAgent (db : Db) (key : ApiKey) : Option Agent :=
  db.agents.rows.find? fun a => a.apiKeyId == some key.id

def requestGrant (store : Store) (userId : Nat) (consentToken : Option String) :
    Option ConsentGrant :=
  (consentToken.filter (· ≠ "")).bind fun consent =>
    store.consentGrants.rows.find? fun g => g.token == consent && g.userId == userId

/-- The lists that the rows of a request hold. -/
structure Sources.Of (src : Sources) (store : Store) (xApiKey : Option String) (userId : Nat)
    (accessToken : String) (consentToken : Option String) : Prop where
  token : ∀ t ∈ store.accessTokens.rows, t.token = accessToken → t.scopes = scopesColumn src.token
  consent : (requestGrant store userId consentToken).map ConsentGrant.scopes =
    scopesColumn src.consent
  key : (requestKey sha256 store.db xApiKey).bind ApiKey.scopes = scopesColumn src.key
  agent : ((requestKey sha256 store.db xApiKey).bind (keyAgent store.db)).bind
    Agent.allowedScopes = scopesColumn src.agent

end

/-! ## What is allowed -/

/-- The fields of scopes, each without what stands before its first colon. -/
def scopeNames (scopes : List String) : Finset String :=
  (scopes.map (Text.afterFirst ':')).toFinset

/-- The fields of a principal's scopes are trimmed. -/
def trimmedNames (scopes : List String) : Finset String :=
  (scopes.map fun scope => Text.strip (Text.afterFirst ':' scope)).toFinset

/-- A scope of a principal that names nothing is left out. -/
def principalNames (scopes : List String) : Finset String :=
  (trimmedNames scopes).erase ""

/-- The field sets that are not null. -/
def Sources.sets (principal : List String → Finset String) (src : Sources) :
    List (Finset String) :=
  [src.consent.map scopeNames, src.token.map scopeNames, src.key.map principal,
    src.agent.map principal].reduceOption

/-- The executor, asked for some fields or for all, returned `result`, and what
is passed on of it is what all sets allow. -/
structure Filtered (sets : List (Finset String)) (asked : Option (List String))
    (result response : Body) : Prop where
  asked_none : asked = none ↔ sets = []
  sorted : ∀ fields ∈ asked, fields.Pairwise (· ≤ ·) ∧ fields.Nodup
  intersection : ∀ fields ∈ asked, ∀ field, field ∈ fields ↔ ∀ set ∈ sets, field ∈ set
  data : dataItems (some (.obj response)) =
    (dataItems (some (.obj result))).filter fun kv => ∀ set ∈ sets, kv.1 ∈ set
  unfiltered : sets = [] → response.lookup "data" = result.lookup "data"

/-! ## Reading the columns -/

variable {py : PyText} {sha256 : ByteArray → String}

theorem scopeFields_dumps (scopes : List String) :
    scopeFields py (Json.dumps (.arr (scopes.map .str))) = some (scopeNames scopes) := by
  have hmap : (scopes.map Json.str).mapM scopeField =
      some (scopes.map (Text.afterFirst ':')) := by
    induction scopes with
    | nil => rfl
    | cons scope scopes ih =>
        rw [List.map_cons, List.mapM_cons, ih]
        rfl
  unfold scopeFields
  rw [Json.loads_dumps (Json.writable_strings py.floatRepr scopes)]
  simp only [iterate, Option.bind_eq_bind, Option.bind_some, hmap]
  rfl

theorem scopesColumn_filter (scopes : Option (List String)) :
    (scopesColumn scopes).filter (· ≠ "") = scopesColumn scopes := by
  cases scopes with
  | none => rfl
  | some scopes => simp [scopesColumn, Option.filter, dumps_arr_ne_empty]

theorem tokenFields_column (scopes : Option (List String)) :
    tokenFields py (scopesColumn scopes) = .ok (scopes.map scopeNames) := by
  unfold tokenFields
  rw [scopesColumn_filter]
  cases scopes with
  | none => rfl
  | some scopes => simp only [scopesColumn, Option.map_some, scopeFields_dumps]

theorem consentFields_ok {store : Store} {auth : AuthContext} {now : Nat} {accessToken : String}
    {consentToken : Option String} {fields : Option (Finset String)}
    {scopes : Option (List String)}
    (h : consentFields py store auth now accessToken consentToken = .ok fields)
    (hscopes : (requestGrant store auth.userId consentToken).map ConsentGrant.scopes =
      scopesColumn scopes) :
    fields = scopes.map scopeNames := by
  unfold consentFields at h
  unfold requestGrant at hscopes
  cases hconsent : consentToken.filter (· ≠ "") with
  | none =>
      -- no consent token, and so no scopes of one
      rw [hconsent] at h hscopes
      obtain rfl := Except.ok.inj h
      cases scopes with
      | none => rfl
      | some scopes => cases hscopes
  | some consent =>
      rw [hconsent] at h hscopes
      simp only [Option.bind_some] at h hscopes
      cases hgrant : store.consentGrants.rows.find? fun g =>
          g.token == consent && g.userId == auth.userId with
      | none =>
          rw [hgrant] at h
          cases h
      | some grant =>
          rw [hgrant] at h hscopes
          cases scopes with
          | none => cases hscopes
          | some scopes =>
              have htext : grant.scopes = Json.dumps (.arr (scopes.map .str)) := by
                simpa [scopesColumn] using hscopes
              simp only [htext, scopeFields_dumps] at h
              split at h
              · cases h
              · split at h
                · cases h
                · split at h
                  · cases h
                  · exact (Except.ok.inj h).symm

/-- The normalisation in the words of the restriction. -/
theorem normalizeScopes_eq (scopes : List String) :
    normalizeScopes scopes = principalNames scopes := by
  ext field
  simp only [normalizeScopes, normalizeScopeName, principalNames, trimmedNames,
    Text.strip_afterFirst_strip (show Text.isSpace ':' = false by decide), List.mem_toFinset,
    List.mem_filter, List.mem_map, Finset.mem_erase, decide_eq_true_eq]
  exact and_comm

theorem loadScopeSet_column (scopes : Option (List String)) :
    loadScopeSet py (scopesColumn scopes) = scopes.map principalNames := by
  cases scopes with
  | none => rfl
  | some scopes =>
      simp only [scopesColumn, Option.map_some, loadScopeSet, loadList_dumps, normalizeScopes_eq]

/-- Whoever is let in has the scopes of the key and of its agent. -/
theorem auth_allowedScopes {db used : Db} {now : Nat} {xApiKey : Option String}
    {bearer : Except HttpError Nat} {auth : AuthContext} {key agent : Option (List String)}
    (h : getCurrentUserOrApiKey py sha256 db now xApiKey bearer = .ok (used, auth))
    (hkey : (requestKey sha256 db xApiKey).bind ApiKey.scopes = scopesColumn key)
    (hagent : ((requestKey sha256 db xApiKey).bind (keyAgent db)).bind Agent.allowedScopes =
      scopesColumn agent) :
    auth.allowedScopes = combineScopeSets (key.map principalNames) (agent.map principalNames) := by
  have hload : ∀ column : Option String, ∀ scopes, column = scopesColumn scopes →
      loadScopeSet py column = scopes.map principalNames := by
    rintro _ scopes rfl
    exact loadScopeSet_column scopes
  unfold getCurrentUserOrApiKey at h
  unfold requestKey at hkey hagent
  cases hheader : xApiKey.filter (· ≠ "") with
  | none =>
      -- a JWT has no scopes
      rw [hheader] at h hkey hagent
      have hnone : key.map principalNames = none := by
        rw [← hload none key hkey]
        rfl
      have hnone' : agent.map principalNames = none := by
        rw [← hload none agent hagent]
        rfl
      rw [hnone, hnone']
      cases bearer with
      | error e => cases h
      | ok userId =>
          obtain ⟨-, rfl⟩ := Prod.mk.inj (Except.ok.inj h)
          rfl
  | some apiKey =>
      rw [hheader] at h hkey hagent
      simp only [Option.bind_some] at h hkey hagent
      cases hfind : db.apiKeys.rows.find? fun k =>
          k.keyHash == hashKey sha256 apiKey && k.isActive with
      | none =>
          rw [hfind] at h
          cases h
      | some row =>
          rw [hfind] at h hkey hagent
          simp only [Option.bind_some] at h hkey hagent
          split at h
          · cases h
          · split at h
            · cases h
            · split at h
              · cases h
              · obtain ⟨-, rfl⟩ := Prod.mk.inj (Except.ok.inj h)
                have hagent' : (keyAgent db row).bind (fun a => loadScopeSet py a.allowedScopes) =
                    agent.map principalNames := by
                  rw [← hload _ agent hagent]
                  cases keyAgent db row with
                  | none => rfl
                  | some a => rfl
                change combineScopeSets (loadScopeSet py row.scopes)
                  ((keyAgent db row).bind fun a => loadScopeSet py a.allowedScopes) = _
                rw [hload _ key hkey, hagent']

/-! ## The intersection -/

/-- A restriction that lets through what all sets do; none where there are none. -/
def Meets (restriction : Option (Finset String)) (sets : List (Finset String)) : Prop :=
  match restriction with
  | none => sets = []
  | some allowed => sets ≠ [] ∧ ∀ field, field ∈ allowed ↔ ∀ set ∈ sets, field ∈ set

theorem meets_toList (restriction : Option (Finset String)) :
    Meets restriction restriction.toList := by
  cases restriction with
  | none => rfl
  | some allowed => simp [Meets]

/-- The three pairwise merges come to one intersection. -/
theorem Meets.combine {left right : Option (Finset String)} {sets others : List (Finset String)}
    (hleft : Meets left sets) (hright : Meets right others) :
    Meets (combineScopeSets left right) (sets ++ others) := by
  cases left with
  | none =>
      have hnil : sets = [] := hleft
      rw [combineScopeSets_none_left, hnil]
      exact hright
  | some allowed =>
      cases right with
      | none =>
          have hnil : others = [] := hright
          rw [combineScopeSets_none_right, hnil, List.append_nil]
          exact hleft
      | some allowed' =>
          have hsets : sets ≠ [] := hleft.1
          refine ⟨by simp [hsets], fun field => ?_⟩
          rw [Finset.mem_inter, hleft.2 field, hright.2 field]
          simp only [List.mem_append]
          constructor
          · rintro ⟨hl, hr⟩ set (hset | hset)
            · exact hl set hset
            · exact hr set hset
          · intro h
            exact ⟨fun set hset => h set (.inl hset), fun set hset => h set (.inr hset)⟩

theorem sets_eq (principal : List String → Finset String) (src : Sources) :
    src.sets principal = ((src.consent.map scopeNames).toList ++
      (src.token.map scopeNames).toList) ++
        ((src.key.map principal).toList ++ (src.agent.map principal).toList) := by
  rcases src with ⟨token, consent, key, agent⟩
  cases token <;> cases consent <;> cases key <;> cases agent <;> rfl

/-- The restriction of a request is met by what the executor is asked for and by
what the filter leaves. -/
theorem filtered_of_meets {restriction : Option (Finset String)} {sets : List (Finset String)}
    {result before response : Body} (hmeets : Meets restriction sets)
    (hbefore : before.lookup "data" = result.lookup "data")
    (h : filterResponse restriction before = .ok response) :
    Filtered sets (restriction.map (·.sort)) result response := by
  have hitems : dataItems (some (.obj before)) = dataItems (some (.obj result)) := by
    simp only [dataItems, hbefore]
  cases restriction with
  | none =>
      have hnil : sets = [] := hmeets
      have hsame : before = response := Except.ok.inj h
      subst hnil hsame
      refine ⟨by simp, by simp, by simp, ?_, fun _ => hbefore⟩
      simp [hitems]
  | some allowed =>
      have hmem := hmeets.2
      refine ⟨?_, ?_, ?_, ?_, fun hnil => absurd hnil hmeets.1⟩
      · simp [hmeets.1]
      · intro fields hfields
        obtain rfl := Option.some.inj hfields
        exact ⟨Finset.pairwise_sort _ _, Finset.sort_nodup _ _⟩
      · intro fields hfields field
        obtain rfl := Option.some.inj hfields
        rw [Finset.mem_sort]
        exact hmem field
      · rw [← hitems, filterResponse_items h]
        congr 1
        funext kv
        simp [hmem]

/-- A request that is answered asked the executor for the fields that every scope
list allows, and returns these of its data. -/
theorem fetchData_filtered {src : Sources} {store : Store} {used : Db} {auth : AuthContext}
    {xApiKey consentToken : Option String} {bearer : Except HttpError Nat} {now now' : Nat}
    {accessToken site : String}
    {runJob : String → Option (List String) → Except HttpError (String × Body)} {response : Body}
    (hsrc : src.Of sha256 store xApiKey auth.userId accessToken consentToken)
    (hauth : getCurrentUserOrApiKey py sha256 store.db now xApiKey bearer = .ok (used, auth))
    (h : fetchData py store auth now' accessToken consentToken runJob = .ok (site, response)) :
    ∃ asked jobId result, runJob site asked = .ok (jobId, result) ∧
      Filtered (src.sets principalNames) asked result response := by
  rcases fetchData_inv h with ⟨record, hrecord, -, consentAllowed, tokenAllowed, hconsent, htoken,
    jobId, result, before, hran, hbefore, hfilter⟩
  have hscopes : record.scopes = scopesColumn src.token := by
    apply hsrc.token record (List.mem_of_find?_eq_some hrecord)
    have hquery := List.find?_some hrecord
    simp only [Bool.and_eq_true, beq_iff_eq] at hquery
    exact hquery.1
  have htoken' : tokenAllowed = src.token.map scopeNames := by
    rw [hscopes, tokenFields_column] at htoken
    exact (Except.ok.inj htoken).symm
  have hconsent' := consentFields_ok hconsent hsrc.consent
  have hprincipal := auth_allowedScopes hauth hsrc.key hsrc.agent
  have hmeets : Meets (combineScopeSets (combineScopeSets consentAllowed tokenAllowed)
      auth.allowedScopes) (src.sets principalNames) := by
    rw [htoken', hconsent', hprincipal, sets_eq]
    apply Meets.combine
    · exact Meets.combine (meets_toList _) (meets_toList _)
    · exact Meets.combine (meets_toList _) (meets_toList _)
  exact ⟨_, jobId, result, hran, filtered_of_meets hmeets hbefore hfilter⟩

/-! ## Two keys -/

/-- One access token, and the key `pk_B` of its user. -/
def keyStore (src : Sources) : Store where
  db := {
    users := ⟨[⟨1⟩], oneUser.users.nodup⟩
    apiKeys := ⟨[{
      id := "key-1"
      keyHash := "2e90f3eba4564c3916440750a0edae1c58bbb17a7360ee2169c2220ed763502c"
      userId := 1
      scopes := scopesColumn src.key }], by simp⟩
    agents := Table.empty
    agentKeys := by simp [Table.empty] }
  links := ⟨[⟨"link-1", "greengrid", 1⟩], by simp⟩
  accessTokens := ⟨[⟨"access-1", "link-1", 1, scopesColumn src.token, none⟩], by simp⟩
  consentGrants := Table.empty
  accessJobs := Table.empty

theorem keyStore_of {src : Sources} (hconsent : src.consent = none) (hagent : src.agent = none) :
    src.Of keyDigest (keyStore src) (some "pk_B") 1 "access-1" none where
  token := by
    intro t ht _
    rw [List.mem_singleton.mp ht]
  consent := by
    rw [hconsent]
    rfl
  key := by
    have hdigest : hashKey keyDigest "pk_B" =
        "2e90f3eba4564c3916440750a0edae1c58bbb17a7360ee2169c2220ed763502c" := by decide +kernel
    simp [requestKey, keyStore, hdigest, Option.filter]
  agent := by
    have hnone : ∀ key, keyAgent (keyStore src).db key = none := fun _ => rfl
    rw [hagent]
    cases requestKey keyDigest (keyStore src).db (some "pk_B") with
    | none => rfl
    | some key =>
        rw [Option.bind_some, hnone]
        rfl

/-- An executor that answers one question only. -/
def answering (expected : List String) (data : Body) (_site : String)
    (asked : Option (List String)) : Except HttpError (String × Body) :=
  if asked = some expected then .ok ("job-1", [("status", .str "connected"), ("data", .obj data)])
  else .error internalError

theorem answered_of_toOption {store : Store} {xApiKey consentToken : Option String}
    {bearer : Except HttpError Nat} {now userId : Nat} {accessToken site : String}
    {runJob : String → Option (List String) → Except HttpError (String × Body)}
    (h : ((getCurrentUserOrApiKey py sha256 store.db now xApiKey bearer).toOption.bind fun r =>
      (fetchData py store r.2 now accessToken consentToken runJob).toOption.map fun f =>
        (r.2.userId, f.1)) = some (userId, site)) :
    ∃ used auth response,
      getCurrentUserOrApiKey py sha256 store.db now xApiKey bearer = .ok (used, auth) ∧
      auth.userId = userId ∧
      fetchData py store auth now accessToken consentToken runJob = .ok (site, response) := by
  rcases hauth : getCurrentUserOrApiKey py sha256 store.db now xApiKey bearer with e | ⟨used, auth⟩
  · rw [hauth] at h
    cases h
  · rw [hauth] at h
    obtain ⟨⟨site', response⟩, hfetch, heq⟩ := toOption_map_eq_some h
    obtain ⟨huser, rfl⟩ := Prod.mk.inj heq
    exact ⟨used, auth, response, rfl, huser, hfetch⟩

/-- A key for the balance, with blanks around its scope. -/
def balanceKey : Sources where
  token := some ["read:usage:kwh", "read:balance"]
  consent := none
  key := some [" read:balance "]
  agent := none

theorem balanceKey_filtered :
    ∃ used auth response,
      getCurrentUserOrApiKey asciiText keyDigest (keyStore balanceKey).db 0 (some "pk_B")
        (.error internalError) = .ok (used, auth) ∧
      fetchData asciiText (keyStore balanceKey) auth 0 "access-1" none
        (answering ["balance"] [("balance", .int 12), ("owner", .str "B")]) =
          .ok ("greengrid", response) ∧
      ∃ asked jobId result,
        answering ["balance"] [("balance", .int 12), ("owner", .str "B")] "greengrid" asked =
          .ok (jobId, result) ∧
        Filtered (balanceKey.sets principalNames) asked result response := by
  have hrun : ((getCurrentUserOrApiKey asciiText keyDigest (keyStore balanceKey).db 0
      (some "pk_B") (.error internalError)).toOption.bind fun r =>
        (fetchData asciiText (keyStore balanceKey) r.2 0 "access-1" none
          (answering ["balance"] [("balance", .int 12), ("owner", .str "B")])).toOption.map
            fun f => (r.2.userId, f.1)) = some (1, "greengrid") := by
    decide +kernel
  obtain ⟨used, auth, response, hauth, huser, hfetch⟩ := answered_of_toOption hrun
  have hsrc := @keyStore_of balanceKey rfl rfl
  rw [← huser] at hsrc
  exact ⟨used, auth, response, hauth, hfetch, fetchData_filtered hsrc hauth hfetch⟩

/-- A token and a key with a scope that names nothing. -/
def emptyScope : Sources where
  token := some ["read:"]
  consent := none
  key := some ["read:"]
  agent := none

/-- Both lists come to the field with the empty name, but the executor is asked
for nothing: it answers no other question here. -/
theorem emptyScope_not_filtered :
    ∃ used auth response,
      emptyScope.Of keyDigest (keyStore emptyScope) (some "pk_B") auth.userId "access-1" none ∧
      getCurrentUserOrApiKey asciiText keyDigest (keyStore emptyScope).db 0 (some "pk_B")
        (.error internalError) = .ok (used, auth) ∧
      fetchData asciiText (keyStore emptyScope) auth 0 "access-1" none (answering [] []) =
        .ok ("greengrid", response) ∧
      ¬∃ asked jobId result, answering [] [] "greengrid" asked = .ok (jobId, result) ∧
        Filtered (emptyScope.sets trimmedNames) asked result response := by
  have hrun : ((getCurrentUserOrApiKey asciiText keyDigest (keyStore emptyScope).db 0
      (some "pk_B") (.error internalError)).toOption.bind fun r =>
        (fetchData asciiText (keyStore emptyScope) r.2 0 "access-1" none
          (answering [] [])).toOption.map fun f => (r.2.userId, f.1)) = some (1, "greengrid") := by
    decide +kernel
  obtain ⟨used, auth, response, hauth, huser, hfetch⟩ := answered_of_toOption hrun
  have hsrc := @keyStore_of emptyScope rfl rfl
  rw [← huser] at hsrc
  refine ⟨used, auth, response, hsrc, hauth, hfetch, ?_⟩
  rintro ⟨asked, jobId, result, hran, hfiltered⟩
  have hasked : asked = some [] := by
    unfold answering at hran
    split at hran
    · assumption
    · cases hran
  have hall : ∀ set ∈ emptyScope.sets trimmedNames, "" ∈ set := by decide +kernel
  have hmem := (hfiltered.intersection [] hasked "").mpr hall
  cases hmem

end Plaidify.Principals
