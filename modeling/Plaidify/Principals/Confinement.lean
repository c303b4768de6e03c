import Plaidify.Principals.Restriction

/-!
# Confinement of a restricted principal

What a principal reads through `fetch_data`, `GET /access_jobs` and
`GET /access_jobs/{job_id}` should stay within its restriction.

`confined_run` gives a condition on the steps under which it does. The
condition has to speak about what the executors of the whole account return: the
two job endpoints pass on what was stored of it, whoever asked for it.
-/

namespace Plaidify.Principals

open AccessJobs (AccessJob JobPayload JobQuery columnText deserialize_columnText
  deserializeMetadata listAccessJobs runtime_payload selectJobs_mem serializeAccessJobRuntime
  serializeMetadata)

/-! ## Requests of the principal -/

/-- The extracted values in a result: the items of its `data`. -/
def dataItems : Option Json → Body
  | some (.obj result) =>
      match result.lookup "data" with
      | some (.obj data) => data
      | _ => []
  | _ => []

/-- A request with the principal's key. -/
inductive Request where
  | fetchData (accessToken : String) (consentToken : Option String)
      (runJob : String → Option (List String) → Except HttpError (String × Body))
  | listJobs (query : JobQuery)
  | getJob (jobId : String)

section

variable (py : PyText) (sha256 : ByteArray → String)

/-- The extracted values in a successful response, with the site of each. -/
def respond (store : Store) (rawKey : String) (now : Nat)
    (mfaSessions : String → Option Mfa.MfaSession) (request : Request) :
    Except HttpError (List (String × Body)) :=
  let user := getCurrentUserOrApiKey py sha256 store.db now (some rawKey) (.error internalError)
  match request with
  | .fetchData accessToken consentToken runJob => do
      let (_, auth) ← user
      let (site, response) ← fetchData py store auth now accessToken consentToken runJob
      return [(site, dataItems (some (.obj response)))]
  | .listJobs query => do
      let (_, auth) ← user
      return (listAccessJobs py.floatRepr mfaSessions store.accessJobs.rows auth.userId query).map
        fun p => (p.site, dataItems p.result)
  | .getJob jobId => do
      let p ← getAccessJob py mfaSessions store jobId (user.map fun r => some r.2)
      return [(p.site, dataItems p.result)]

end

/-! ## Confinement -/

/-- The restriction lets a field of a site through. -/
structure Allows (py : PyText) (p : Principal) (site field : String) : Prop where
  scope : ∀ S ∈ p.scopes, ∀ set ∈ S.scopes py, field ∈ set
  site : ∀ T ∈ p.sites, ∀ set ∈ T.sites py, normalizeSite py site ∈ set

/-- No request of the principal is answered outside its restriction, and its
restriction is never read back as none. -/
structure Confined (py : PyText) (sha256 : ByteArray → String) (store : Store) (p : Principal) :
    Prop where
  responses : ∀ now mfaSessions request response,
    respond py sha256 store p.rawKey now mfaSessions request = .ok response →
      ∀ part ∈ response, ∀ kv ∈ part.2, Allows py p part.1 kv.1
  scopes : ∀ now used auth,
    getCurrentUserOrApiKey py sha256 store.db now (some p.rawKey) (.error internalError) =
      .ok (used, auth) → p.scopes ≠ none → auth.allowedScopes ≠ none
  sites : ∀ now used auth,
    getCurrentUserOrApiKey py sha256 store.db now (some p.rawKey) (.error internalError) =
      .ok (used, auth) → p.sites ≠ none → auth.allowedSites ≠ none

/-! ## The condition -/

/-- The principal can read the job: it belongs to its account or to nobody. -/
def Visible (p : Principal) (job : AccessJob) : Prop :=
  job.userId = some p.userId ∨ job.userId = none

/-- What the executor of a visible job has returned is within the restriction:
the job is for a site of it, and the extracted values are for fields of it. -/
def Fits (py : PyText) (p : Principal) (job : AccessJob) (answer : Option (Answer py)) : Prop :=
  Visible p job → ∀ a ∈ answer, ∀ kv ∈ dataItems (some (.obj a.body)), Allows py p job.site kv.1

/-- The condition on a step: a restriction is readable and fits what executors
have returned before, and what an executor returns fits the restriction. -/
def Restrained (py : PyText) (s : State py) (l : Label py) : Prop :=
  (∀ p ∈ restricted s l, Readable py p ∧
      ∀ job ∈ s.store.accessJobs.rows, Fits py p job (s.answers job.id)) ∧
    ∀ job answer, l = .storeJob job answer → ∀ p ∈ s.principal, Fits py p job answer

variable {py : PyText} {sha256 : ByteArray → String}

/-! ## What the three responses let through -/

/-- The scope filter leaves the allowed fields. -/
theorem filterResponse_items {A : Finset String} {response filtered : Body}
    (h : filterResponse (some A) response = .ok filtered) :
    dataItems (some (.obj filtered)) =
      (dataItems (some (.obj response))).filter fun kv => decide (kv.1 ∈ A) := by
  unfold filterResponse at h
  simp only at h
  split at h
  · rename_i hdata
    obtain rfl := Except.ok.inj h
    simp [dataItems, hdata]
  · rename_i data hdata
    obtain rfl := Except.ok.inj h
    have hlookup : List.lookup "data" (Json.dictInsert (Json.dictInsert response
        ("data", .obj (data.filter fun kv => decide (kv.1 ∈ A))))
        ("scopes_applied", .arr (A.sort.map .str))) =
        some (.obj (data.filter fun kv => decide (kv.1 ∈ A))) := by
      have hne : "data" ≠ "scopes_applied" := by decide
      have hthere : response.lookup "data" ≠ none := by
        rw [hdata]
        exact Option.some_ne_none _
      rw [Json.lookup_dictInsert_of_ne hne]
      exact Json.lookup_dictInsert_self (m := ("data", _)) hthere
    simp only [dataItems, hlookup, hdata]
  · exact absurd h (by simp)

theorem filterResponse_data {A : Finset String} {response filtered : Body}
    (h : filterResponse (some A) response = .ok filtered) :
    ∀ kv ∈ dataItems (some (.obj filtered)), kv.1 ∈ A := by
  intro kv hkv
  rw [filterResponse_items h] at hkv
  simpa using (List.mem_filter.mp hkv).2

theorem combineScopeSets_right_subset (left : Option (Finset String)) (A : Finset String) :
    ∃ B, combineScopeSets left (some A) = some B ∧ B ⊆ A := by
  cases left with
  | none => exact ⟨A, rfl, Finset.Subset.refl _⟩
  | some left => exact ⟨left ∩ A, rfl, Finset.inter_subset_right⟩

/-- What a request that is answered came through: its rows and its field sets, and
the executor, which was asked for the fields that all of them allow. -/
theorem fetchData_inv {store : Store} {auth : AuthContext} {now : Nat} {accessToken site : String}
    {consentToken : Option String}
    {runJob : String → Option (List String) → Except HttpError (String × Body)} {response : Body}
    (h : fetchData py store auth now accessToken consentToken runJob = .ok (site, response)) :
    ∃ record, store.accessTokens.rows.find?
        (fun t => t.token == accessToken && t.userId == auth.userId) = some record ∧
      (∃ a, ensureSiteAllowed py auth site = .ok a) ∧
      ∃ consentAllowed tokenAllowed,
        consentFields py store auth now accessToken consentToken = .ok consentAllowed ∧
        tokenFields py record.scopes = .ok tokenAllowed ∧
        ∃ jobId result before,
          runJob site ((combineScopeSets (combineScopeSets consentAllowed tokenAllowed)
            auth.allowedScopes).map (·.sort)) = .ok (jobId, result) ∧
          before.lookup "data" = result.lookup "data" ∧
          filterResponse (combineScopeSets (combineScopeSets consentAllowed tokenAllowed)
            auth.allowedScopes) before = .ok response := by
  unfold fetchData at h
  split at h
  · rename_i record hrecord
    split at h
    · rename_i link _
      simp only [bind, Except.bind] at h
      split at h
      · exact absurd h (by simp)
      · rename_i a hsite
        split at h
        · exact absurd h (by simp)
        · rename_i consentAllowed hconsent
          split at h
          · exact absurd h (by simp)
          · rename_i tokenAllowed htoken
            split at h
            · exact absurd h (by simp)
            · rename_i ran hran
              split at h
              · exact absurd h (by simp)
              · rename_i filtered hfilter
                obtain ⟨rfl, rfl⟩ := Prod.mk.inj (Except.ok.inj h)
                refine ⟨record, hrecord, ⟨a, hsite⟩, consentAllowed, tokenAllowed, hconsent,
                  htoken, ran.1, ran.2, _, hran, ?_, hfilter⟩
                -- neither of the two keys that are added is `data`
                have hjob : "data" ≠ "job_id" := by decide
                have hinstructions : "data" ≠ "instructions_applied" := by decide
                split
                · exact Json.lookup_dictInsert_of_ne hjob
                · rw [Json.lookup_dictInsert_of_ne hinstructions,
                    Json.lookup_dictInsert_of_ne hjob]
    · exact absurd h (by simp)
  · exact absurd h (by simp)

/-- A fetch is for a site that the principal may use, and what it returns went
through a filter that is at least as narrow as the principal's. -/
theorem fetchData_ok {store : Store} {auth : AuthContext} {now : Nat} {accessToken site : String}
    {consentToken : Option String}
    {runJob : String → Option (List String) → Except HttpError (String × Body)} {response : Body}
    (h : fetchData py store auth now accessToken consentToken runJob = .ok (site, response)) :
    (∃ a, ensureSiteAllowed py auth site = .ok a) ∧
      ∃ left before, filterResponse (combineScopeSets left auth.allowedScopes) before =
        .ok response := by
  rcases fetchData_inv h with
    ⟨record, -, hsite, consentAllowed, tokenAllowed, -, -, jobId, result, before, -, -, hfilter⟩
  exact ⟨hsite, combineScopeSets consentAllowed tokenAllowed, before, hfilter⟩

theorem ensureSiteAllowed_ok {auth a : AuthContext} {site : String}
    (h : ensureSiteAllowed py auth site = .ok a) {allowed : Finset String}
    (hallowed : auth.allowedSites = some allowed) : normalizeSite py site ∈ allowed := by
  simp only [ensureSiteAllowed, hallowed] at h
  split at h
  · assumption
  · exact absurd h (by simp)

theorem getAccessJob_ok {mfaSessions : String → Option Mfa.MfaSession} {store : Store} {jobId : String}
    {user : Except HttpError (Option AuthContext)} {payload : JobPayload}
    (h : getAccessJob py mfaSessions store jobId user = .ok payload) :
    ∃ job ∈ store.accessJobs.rows, payload = serializeAccessJobRuntime py.floatRepr mfaSessions job ∧
      (job.userId = none ∨ ∃ auth, user = .ok (some auth) ∧ job.userId = some auth.userId) := by
  unfold getAccessJob at h
  split at h
  · exact absurd h (by simp)
  · rename_i job hget
    refine ⟨job, (Table.get?_mem hget).1, ?_⟩
    split at h
    · rename_i hanonymous
      exact ⟨(Except.ok.inj h).symm, .inl hanonymous⟩
    · rename_i owner howner
      split at h
      · exact absurd h (by simp)
      · exact absurd h (by simp)
      · rename_i auth
        split at h
        · exact absurd h (by simp)
        · rename_i hsame
          exact ⟨(Except.ok.inj h).symm, .inr ⟨auth, rfl, by rw [howner, not_not.mp hsame]⟩⟩

/-! ## What the job endpoints show -/

/-- The results of the jobs are what was stored of the answers. -/
def Written (store : Store) (answers : String → Option (Answer py)) : Prop :=
  ∀ job ∈ store.accessJobs.rows, job = jobRow job (answers job.id)

/-- An extracted value that is read back is one that the executor returned: a
column has the members of the dictionary that was written, in order. -/
theorem dataItems_stored {answer : Option (Answer py)} {kv : String × Json}
    (h : kv ∈ dataItems (deserializeMetadata py.floatRepr
      (columnText (answer.bind fun answer => serializeMetadata answer.body)))) :
    ∃ a ∈ answer, ∃ value, (kv.1, value) ∈ dataItems (some (.obj a.body)) := by
  cases answer with
  | none => cases h
  | some a =>
      refine ⟨a, rfl, ?_⟩
      rw [Option.bind_some, serializeMetadata] at h
      split at h
      · cases h
      · rw [deserialize_columnText a.writable, Json.sortKeys] at h
        have hsame : Json.Same (.obj a.body) (Json.sortKeys (.obj a.body)) :=
          Json.same_sortKeys (.obj a.body)
        have hkeys : (a.body.map Prod.fst).Nodup := a.writable.1
        rw [Json.sortKeys] at hsame
        have hlookup := hsame.lookup hkeys "data"
        dsimp only [dataItems] at h ⊢
        split at h
        · rename_i shown hshown
          rw [hshown, Option.map_some] at hlookup
          obtain ⟨data, hdata, hsorted⟩ := Option.map_eq_some_iff.mp hlookup
          obtain ⟨stored, rfl⟩ := Json.exists_obj_of_sortKeys (hsorted.trans rfl)
          rw [hdata]
          have hnames : (stored.map Prod.fst).Perm (shown.map Prod.fst) := Json.Same.keys hsorted
          have hname := hnames.mem_iff.mpr (List.mem_map_of_mem h)
          obtain ⟨⟨name, value⟩, hmem, rfl⟩ := List.mem_map.mp hname
          exact ⟨value, hmem⟩
        · cases h

/-- With the restriction in the tables and answers that fit it, no request of the
principal gets out of it. -/
theorem confined_of_rows {store : Store} {answers : String → Option (Answer py)} {p : Principal}
    (hrows : RowsOk py sha256 store.db p) (hread : Readable py p) (hwritten : Written store answers)
    (hjobs : ∀ job ∈ store.accessJobs.rows, Fits py p job (answers job.id)) :
    Confined py sha256 store p := by
  constructor
  case scopes =>
    intro now used auth hauth hrestricted
    obtain ⟨S, hS⟩ := Option.ne_none_iff_exists'.mp hrestricted
    obtain ⟨-, hscopes, -⟩ := auth_restricted hrows hread hauth
    obtain ⟨A, hA, -⟩ := hscopes S hS
    rw [hA]
    exact Option.some_ne_none A
  case sites =>
    intro now used auth hauth hrestricted
    obtain ⟨T, hT⟩ := Option.ne_none_iff_exists'.mp hrestricted
    obtain ⟨-, -, hsites⟩ := auth_restricted hrows hread hauth
    obtain ⟨B, hB, -⟩ := hsites T hT
    rw [hB]
    exact Option.some_ne_none B
  case responses =>
    -- a job is shown with what was stored of its executor's answer
    have hshown : ∀ (mfaSessions : String → Option Mfa.MfaSession), ∀ job ∈ store.accessJobs.rows,
        Visible p job →
        ∀ kv ∈ dataItems (serializeAccessJobRuntime py.floatRepr mfaSessions job).result,
          Allows py p (serializeAccessJobRuntime py.floatRepr mfaSessions job).site kv.1 := by
      intro mfaSessions job hjob hvisible kv hkv
      obtain ⟨hsite, hresult⟩ := runtime_payload py.floatRepr mfaSessions job
      rw [hresult, hwritten job hjob] at hkv
      rw [hsite]
      obtain ⟨a, ha, value, hvalue⟩ := dataItems_stored hkv
      exact hjobs job hjob hvisible a ha (kv.1, value) hvalue
    intro now mfaSessions request response h part hpart kv hkv
    cases request with
    | fetchData accessToken consentToken runJob =>
        simp only [respond, bind, Except.bind] at h
        split at h
        · exact absurd h (by simp)
        · rename_i r hauth
          -- the answer is filtered by what the principal may read at most
          obtain ⟨used, auth⟩ := r
          obtain ⟨-, hscopes, hsites⟩ := auth_restricted hrows hread hauth
          split at h
          · exact absurd h (by simp)
          · rename_i r hfetch
            obtain ⟨site, body⟩ := r
            obtain rfl := Except.ok.inj h
            obtain rfl := List.mem_singleton.mp hpart
            -- the site was allowed, and the body went through the filter
            obtain ⟨⟨a, hsite⟩, left, before, hfilter⟩ := fetchData_ok hfetch
            refine ⟨?_, ?_⟩
            · intro S hS set hset
              obtain ⟨A, hA, hsub⟩ := hscopes S hS
              obtain ⟨B, hB, hBA⟩ := combineScopeSets_right_subset left A
              rw [hA, hB] at hfilter
              exact hsub set hset (hBA (filterResponse_data hfilter kv hkv))
            · intro T hT set hset
              obtain ⟨B, hB, hnormalized⟩ := hsites T hT
              obtain rfl := Option.some.inj (hnormalized.symm.trans hset)
              exact ensureSiteAllowed_ok hsite hB
    | listJobs query =>
        simp only [respond, bind, Except.bind] at h
        split at h
        · exact absurd h (by simp)
        · rename_i r hauth
          obtain ⟨used, auth⟩ := r
          obtain ⟨huser, -, -⟩ := auth_restricted hrows hread hauth
          obtain rfl := Except.ok.inj h
          obtain ⟨payload, hpayload, rfl⟩ := List.mem_map.mp hpart
          obtain ⟨job, hjob, rfl⟩ := List.mem_map.mp hpayload
          -- a listed job is the principal's own
          obtain ⟨hrow, howner⟩ := selectJobs_mem hjob
          exact hshown mfaSessions job hrow (.inl (huser ▸ howner)) kv hkv
    | getJob jobId =>
        simp only [respond, bind, Except.bind] at h
        split at h
        · exact absurd h (by simp)
        · rename_i payload hget
          obtain rfl := Except.ok.inj h
          obtain rfl := List.mem_singleton.mp hpart
          -- a job that is read is the principal's own, or nobody's
          obtain ⟨job, hrow, rfl, hvisible⟩ := getAccessJob_ok hget
          refine hshown mfaSessions job hrow ?_ kv hkv
          rcases hvisible with hanonymous | ⟨auth, hauth, howner⟩
          · exact .inr hanonymous
          · -- the identity is optional there, and an error counts as none
            cases huser : getCurrentUserOrApiKey py sha256 store.db now (some p.rawKey)
                (.error internalError) with
            | error e =>
                rw [huser] at hauth
                exact absurd hauth (by simp [Except.map])
            | ok r =>
                obtain ⟨used, auth'⟩ := r
                rw [huser] at hauth
                obtain rfl := Option.some.inj (Except.ok.inj hauth)
                obtain ⟨hsame, -, -⟩ := auth_restricted hrows hread huser
                exact .inl (hsame ▸ howner)

/-! ## Every run -/

/-- The restriction is readable and in the tables, and the answers that are
stored fit it. -/
structure Inv (py : PyText) (sha256 : ByteArray → String) (s : State py) : Prop where
  readable : ∀ p ∈ s.principal, Readable py p
  rows : ∀ p ∈ s.principal, RowsOk py sha256 s.store.db p
  written : Written s.store s.answers
  jobs : ∀ p ∈ s.principal, ∀ job ∈ s.store.accessJobs.rows, Fits py p job (s.answers job.id)

theorem start_inv (store : Store) : Inv py sha256 (start py store) :=
  ⟨by simp [start], by simp [start], by simp [start, Written, Table.empty], by simp [start]⟩

/-- A job of another step keeps its answer. -/
theorem record_of_ne {answers : String → Option (Answer py)} {l : Label py} {id : String}
    (h : ∀ job answer, l = .storeJob job answer → id ≠ job.id) :
    record py answers l id = answers id := by
  cases l with
  | storeJob job answer => exact if_neg (h job answer rfl)
  | _ => rfl

theorem record_self (answers : String → Option (Answer py)) (job : AccessJob)
    (answer : Option (Answer py)) :
    record py answers (.storeJob job answer) (jobRow job answer).id = answer :=
  if_pos rfl

theorem written_step {s : State py} {l : Label py} {store : Store} (hwritten : Written s.store s.answers)
    (h : write py sha256 s.store l = some store) : Written store (record py s.answers l) := by
  intro row hrow
  rcases write_jobs h row hrow with ⟨job, answer, rfl, rfl⟩ | ⟨hold, hne⟩
  · rw [record_self]
    rfl
  · rw [record_of_ne hne]
    exact hwritten row hold

/-- Where the old jobs fit a restriction and a new one does, all jobs do. -/
theorem fits_step {s : State py} {l : Label py} {store : Store} {p : Principal}
    (h : write py sha256 s.store l = some store)
    (hold : ∀ job ∈ s.store.accessJobs.rows, Fits py p job (s.answers job.id))
    (hnew : ∀ job answer, l = .storeJob job answer → Fits py p job answer) :
    ∀ job ∈ store.accessJobs.rows, Fits py p job (record py s.answers l job.id) := by
  intro row hrow
  rcases write_jobs h row hrow with ⟨job, answer, rfl, rfl⟩ | ⟨hrow, hne⟩
  · rw [record_self]
    exact hnew job answer rfl
  · rw [record_of_ne hne]
    exact hold row hrow

theorem step_inv {s t : State py} {l : Label py} (hinv : Inv py sha256 s)
    (hcond : Restrained py s l) (h : step py sha256 s l = some t) : Inv py sha256 t := by
  obtain ⟨hnew, hstored⟩ := hcond
  obtain ⟨store, hwrite, ⟨hnone, rfl⟩ | ⟨p, hp, rfl⟩⟩ := step_eq_some h
  · -- the same principal, and it is not its own agent that is updated
    refine ⟨hinv.readable, ?_, written_step hinv.written hwrite, ?_⟩
    · intro q hq
      refine (hinv.rows q hq).write hwrite ?_
      rintro agentId userId body rfl hown
      have hsome : s.principal = some q := hq
      simp only [restricted, hsome, if_pos hown] at hnone
      exact absurd hnone (by simp)
    · intro q hq
      exact fits_step hwrite (hinv.jobs q hq) fun job answer hl => hstored job answer hl q hq
  · -- the principal is new, or its restriction is
    obtain ⟨hread, hfits⟩ := hnew p hp
    refine ⟨?_, ?_, written_step hinv.written hwrite, ?_⟩
    · intro q hq
      obtain rfl := Option.some.inj hq
      exact hread
    · intro q hq
      obtain rfl := Option.some.inj hq
      exact rowsOk_restricted hinv.rows hread hp hwrite
    · intro q hq
      obtain rfl := Option.some.inj hq
      refine fits_step hwrite hfits ?_
      rintro job answer rfl
      exact absurd hp (by simp [restricted])

/-- One user and nothing else. -/
def oneUserStore : Store where
  db := oneUser
  links := Table.empty
  accessTokens := Table.empty
  consentGrants := Table.empty
  accessJobs := Table.empty

local instance (priority := 1100) keyDecEq : DecidableEq ByteArray :=
  ByteArray.instDecidableEq

/-- SHA-256 of the key `pk_B`. -/
def keyDigest (payload : ByteArray) : String :=
  if payload = "pk_B".toUTF8 then
    "2e90f3eba4564c3916440750a0edae1c58bbb17a7360ee2169c2220ed763502c"
  else ""

/-- What an executor returns with these extracted values. -/
def utilityAnswer (data : List (String × String)) (h : (data.map Prod.fst).Nodup) :
    Answer asciiText where
  body := [("data", .obj (data.map fun kv => (kv.1, .str kv.2)))]
  writable := by
    have hnames : (data.map fun kv => (kv.1, Json.str kv.2)).map Prod.fst = data.map Prod.fst := by
      simp [List.map_map, Function.comp_def]
    refine ⟨by simp, ⟨⟨hnames ▸ h, ?_⟩, trivial⟩⟩
    rw [Json.writableMembers_iff]
    intro kv hkv
    obtain ⟨kv', -, rfl⟩ := List.mem_map.mp hkv
    trivial

def billAnswer : Answer asciiText := utilityAnswer [("current_bill", "84.10")] (by decide)

def billAndAccount : Answer asciiText :=
  utilityAnswer [("current_bill", "84.10"), ("account_number", "7715")] (by decide)

/-- A job of the user. -/
def utilityJob (status : String) : AccessJob where
  id := "job-1"
  userId := some 1
  site := "greengrid"
  jobType := "fetch"
  status := status
  sessionId := none
  metadataJson := none
  resultJson := none
  errorMessage := none
  createdAt := 0
  startedAt := some 0
  completedAt := none

/-- A key for one scope, and then a job of the account. -/
def billKey : List (Label asciiText) :=
  [.createKey true "key-1" "B" 1 (some "[\"read:current_bill\"]") none,
    .storeJob (utilityJob "running") none,
    .storeJob (utilityJob "completed") (some billAndAccount)]

/-- The names of the extracted values in a response, with their sites. -/
def fieldNames (response : Except HttpError (List (String × Body))) :
    Option (List (String × List String)) :=
  response.toOption.map fun parts => parts.map fun part => (part.1, part.2.map Prod.fst)

theorem Confined.fieldNames {store : Store} {p : Principal} {now : Nat}
    {mfaSessions : String → Option Mfa.MfaSession} {request : Request}
    {parts : List (String × List String)} (hconfined : Confined py sha256 store p)
    (h : fieldNames (respond py sha256 store p.rawKey now mfaSessions request) = some parts) :
    ∀ part ∈ parts, ∀ name ∈ part.2, Allows py p part.1 name := by
  obtain ⟨response, hresponse, rfl⟩ := toOption_map_eq_some h
  intro part hpart name hname
  obtain ⟨shown, hshown, rfl⟩ := List.mem_map.mp hpart
  obtain ⟨kv, hkv, rfl⟩ := List.mem_map.mp hname
  exact hconfined.responses now mfaSessions request response hresponse shown hshown kv hkv

/-- An agent for one scope of one site, whose job is then fetched; its sites are
widened afterwards. -/
def billAgent : List (Label asciiText) :=
  [.registerAgent true "agent-1" "key-1" "A" 1
      [("name", .str "reader"), ("allowed_scopes", .arr [.str "read:current_bill"]),
        ("allowed_sites", .arr [.str "GreenGrid"])],
    .storeJob (utilityJob "running") none,
    .storeJob (utilityJob "completed") (some billAnswer),
    .updateAgent "agent-1" 1 [("allowed_sites", .arr [.str "greengrid", .str "waterworks"])]]

/-- The bill fits a restriction to it that has the site. -/
theorem fits_bill {p : Principal} (hscopes : p.scopes = some (.value (.arr [.str "read:current_bill"])))
    (hsites : ∀ T ∈ p.sites, ∀ set ∈ T.sites asciiText, "greengrid" ∈ set) (status : String) :
    Fits asciiText p (utilityJob status) (some billAnswer) := by
  intro _ a ha kv hkv
  obtain rfl := Option.some.inj ha
  have hname : kv.1 = "current_bill" := by
    have hnames : (dataItems (some (.obj billAnswer.body))).map Prod.fst = ["current_bill"] := by
      decide
    have hmem := List.mem_map_of_mem (f := Prod.fst) hkv
    rw [hnames] at hmem
    exact List.mem_singleton.mp hmem
  refine ⟨?_, ?_⟩
  · intro S hS set hset
    obtain rfl := Option.some.inj (hscopes.symm.trans hS)
    have hnormalized : Supplied.scopes asciiText (.value (.arr [.str "read:current_bill"])) =
        some {"current_bill"} := by
      decide +kernel
    obtain rfl := Option.some.inj (hnormalized.symm.trans hset)
    simp [hname]
  · intro T hT set hset
    have hsite : normalizeSite asciiText (utilityJob status).site = "greengrid" := by
      have hgreen : normalizeSite asciiText "greengrid" = "greengrid" := by decide +kernel
      exact hgreen
    rw [hsite]
    exact hsites T hT set hset

end Plaidify.Principals
