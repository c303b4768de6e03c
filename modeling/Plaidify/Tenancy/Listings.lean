import Plaidify.Tenancy.Ownership

/-!
# What a user can list

The eight read endpoints that list a user's things, over the tables, the MFA
sessions and the refresh scheduler. Seven of them select by the user first.
`list_refresh_jobs` returns `scheduler.list_jobs()`, the jobs of everybody.
-/

namespace Plaidify.Tenancy

open AccessJobs (AccessJob JobPayload JobQuery listAccessJobs liveMfa selectJobs selectJobs_mem
  serializeAccessJobRuntime)
open Links (Backend)
open Principals (HttpError PyText internalError)

/-! ## Responses -/

/-- The endpoints that list what a user has. -/
inductive ListRequest where
  | links
  | tokens
  | webhooks
  | consents (now : Nat)
  | accessJobs (limit : Int) (site status jobType : Option String)
  | agents
  | sessions (now : Nat)
  | refreshJobs
deriving Repr, DecidableEq

/-- A webhook as it is listed. -/
structure WebhookItem where
  webhookId : String
  linkToken : String
  url : String
  createdAt : Nat

/-- A consent grant as it is listed. -/
structure GrantItem where
  consentToken : String
  agentName : String
  scopes : Json
  accessToken : String
  expiresAt : Nat
  createdAt : Nat

/-- An agent as it is listed. -/
structure AgentItem where
  agentId : String
  name : String
  description : Option String
  allowedScopes : Option Json
  allowedSites : Option Json
  rateLimit : Option String
  lastActiveAt : Option Nat
  createdAt : Nat

/-- A login session as it is listed. -/
structure SessionItem where
  id : Nat
  createdAt : Nat
  expiresAt : Nat

/-- What `list_jobs` says about a job. -/
structure RefreshJobItem where
  userId : Nat
  intervalSeconds : Int
  scheduleFormat : Refresh.ScheduleFormat
  enabled : Bool
  lastRefreshed : Option Refresh.DateTime
  lastError : Option String
  consecutiveFailures : Nat
deriving Repr, DecidableEq

/-- The responses; those with a `count` have the length of the list there. -/
inductive ListResponse where
  | links (items : List (String × String))
  | tokens (items : List (String × String))
  | webhooks (items : List WebhookItem) (count : Nat)
  | consents (items : List GrantItem) (count : Nat)
  | accessJobs (items : List JobPayload) (count : Nat)
  | agents (items : List AgentItem) (count : Nat)
  | sessions (items : List SessionItem) (count : Nat)
  /-- The object of the refresh jobs, by access token. -/
  | refreshJobs (items : String → Option RefreshJobItem)

/-! ## The endpoints -/

section

variable (py : PyText) (s : System) (userId : Nat)

/-- `list_links`. -/
def listLinks : List (String × String) :=
  (s.links.rows.filter (·.userId == userId)).map fun link => (link.linkToken, link.site)

/-- `list_tokens`. -/
def listTokens : List (String × String) :=
  (s.accessTokens.rows.filter (·.userId == userId)).map fun t => (t.token, t.linkToken)

/-- `list_webhooks`. -/
def listWebhooks : List WebhookItem :=
  (s.webhooks.rows.filter (·.userId == userId)).map fun wh =>
    { webhookId := wh.id, linkToken := wh.linkToken, url := wh.url, createdAt := wh.createdAt }

/-- The entry of a grant; its request is looked up by the id alone. -/
def grantItem (g : ConsentGrant) : Except HttpError GrantItem :=
  match Json.loads py.floatRepr g.scopes with
  | none => .error internalError
  | some scopes => .ok {
      consentToken := g.token
      agentName := ((s.consentRequests.get? g.consentRequestId).map (·.agentName)).getD "unknown"
      scopes
      accessToken := g.accessToken
      expiresAt := g.expiresAt
      createdAt := g.createdAt }

/-- `list_consents`. -/
def listConsents (now : Nat) : Except HttpError (List GrantItem) :=
  ((s.consentGrants.rows.filter fun g => g.userId == userId && !g.revoked).filter fun g =>
    !decide (g.expiresAt < now)).mapM (grantItem py s)

/-- `json.loads(column) if column else None`. -/
def loadColumn (column : Option String) : Except HttpError (Option Json) :=
  match column with
  | none | some "" => .ok none
  | some text =>
      match Json.loads py.floatRepr text with
      | none => .error internalError
      | some value => .ok (some value)

/-- An agent is listed if its columns can be read. -/
def agentItem (a : Agent) : Except HttpError AgentItem := do
  let allowedScopes ← loadColumn py a.allowedScopes
  let allowedSites ← loadColumn py a.allowedSites
  return {
    agentId := a.id
    name := a.name
    description := a.description
    allowedScopes
    allowedSites
    rateLimit := a.rateLimit
    lastActiveAt := a.lastActiveAt
    createdAt := a.createdAt }

/-- `list_agents`. -/
def listAgents : Except HttpError (List AgentItem) :=
  (s.agents.rows.filter fun a => a.ownerId == userId && a.isActive).mapM (agentItem py)

/-- `list_sessions`. -/
def listSessions (now : Nat) : List SessionItem :=
  ((s.refreshTokens.rows.filter fun t =>
    t.userId == userId && !t.revoked && decide (now < t.expiresAt)).mergeSort
      fun a b => decide (b.createdAt ≤ a.createdAt)).map fun t =>
        { id := t.id, createdAt := t.createdAt, expiresAt := t.expiresAt }

/-- The entry of a job. -/
def refreshJobItem (job : Refresh.RefreshJob) : RefreshJobItem where
  userId := job.userId
  intervalSeconds := job.intervalSeconds
  scheduleFormat := job.scheduleFormat
  enabled := job.enabled
  lastRefreshed := job.lastRefreshed
  lastError := job.lastError
  consecutiveFailures := job.consecutiveFailures

/-- `list_jobs`. -/
def listJobs : List (String × RefreshJobItem) :=
  s.api.live.scheduler.registry.jobs.rows.filterMap fun e =>
    s.api.live.scheduler.registry.objects[e.object]?.map fun job =>
      (e.accessToken, refreshJobItem job)

/-- The response to a user's request. -/
def list : ListRequest → Except HttpError ListResponse
  | .links => .ok (.links (listLinks s userId))
  | .tokens => .ok (.tokens (listTokens s userId))
  | .webhooks => .ok (.webhooks (listWebhooks s userId) (listWebhooks s userId).length)
  | .consents now => do
      let items ← listConsents py s userId now
      return .consents items items.length
  | .accessJobs limit site status jobType =>
      let items := listAccessJobs py.floatRepr s.mfa s.accessJobs.rows userId
        { limit, site, status, jobType }
      .ok (.accessJobs items items.length)
  | .agents => do
      let items ← listAgents py s userId
      return .agents items items.length
  | .sessions now => .ok (.sessions (listSessions s userId now) (listSessions s userId now).length)
  -- the user is authenticated and not asked for
  | .refreshJobs => .ok (.refreshJobs fun token => (listJobs s).lookup token)

end

/-! ## The property -/

/-- The job of the token. -/
def System.job? (s : System) (token : String) : Option Refresh.RefreshJob :=
  s.api.live.scheduler.registry.job? token

/-- The two states agree on everything that the user owns: the rows, the refresh
jobs, and the MFA sessions of the user's access jobs. -/
structure AgreeOn (userId : Nat) (s s' : System) : Prop where
  rows : s.select (· == some userId) = s'.select (· == some userId)
  jobs : ∀ token, (s.job? token).filter (·.userId == userId) =
    (s'.job? token).filter (·.userId == userId)
  mfa : ∀ job ∈ s.accessJobs.rows, job.userId = some userId → ∀ id ∈ job.sessionId,
    s.mfa id = s'.mfa id

/-- The refresh jobs of the other users are the same. -/
def SameOtherJobs (userId : Nat) (s s' : System) : Prop :=
  ∀ token, (s.job? token).filter (·.userId != userId) =
    (s'.job? token).filter (·.userId != userId)

/-! ## Seven listings -/

section

variable {py : PyText} {s s' : System} {userId : Nat}

/-- Two filters are one. -/
theorem filter_and {α : Type} (rows : List α) (p q : α → Bool) :
    rows.filter (fun a => p a && q a) = (rows.filter p).filter q := by
  rw [List.filter_filter]
  refine List.filter_congr fun a _ => ?_
  rw [Bool.and_comm]

/-- The user's links are the same. -/
theorem AgreeOn.links (h : AgreeOn userId s s') :
    s.links.rows.filter (·.userId == userId) = s'.links.rows.filter (·.userId == userId) := by
  have hrows := congrArg OwnedRows.links h.rows
  simpa [System.select] using hrows

/-- The user's access tokens are the same. -/
theorem AgreeOn.accessTokens (h : AgreeOn userId s s') :
    s.accessTokens.rows.filter (·.userId == userId) =
      s'.accessTokens.rows.filter (·.userId == userId) := by
  have hrows := congrArg OwnedRows.accessTokens h.rows
  simpa [System.select] using hrows

/-- The user's webhooks are the same. -/
theorem AgreeOn.webhooks (h : AgreeOn userId s s') :
    s.webhooks.rows.filter (·.userId == userId) =
      s'.webhooks.rows.filter (·.userId == userId) := by
  have hrows := congrArg OwnedRows.webhooks h.rows
  simpa [System.select] using hrows

/-- The user's consent requests are the same. -/
theorem AgreeOn.consentRequests (h : AgreeOn userId s s') :
    s.consentRequests.rows.filter (·.userId == userId) =
      s'.consentRequests.rows.filter (·.userId == userId) := by
  have hrows := congrArg OwnedRows.consentRequests h.rows
  simpa [System.select] using hrows

/-- The user's consent grants are the same. -/
theorem AgreeOn.consentGrants (h : AgreeOn userId s s') :
    s.consentGrants.rows.filter (·.userId == userId) =
      s'.consentGrants.rows.filter (·.userId == userId) := by
  have hrows := congrArg OwnedRows.consentGrants h.rows
  simpa [System.select] using hrows

/-- The user's agents are the same. -/
theorem AgreeOn.agents (h : AgreeOn userId s s') :
    s.agents.rows.filter (·.ownerId == userId) =
      s'.agents.rows.filter (·.ownerId == userId) := by
  have hrows := congrArg OwnedRows.agents h.rows
  simpa [System.select] using hrows

/-- The user's login sessions are the same. -/
theorem AgreeOn.refreshTokens (h : AgreeOn userId s s') :
    s.refreshTokens.rows.filter (·.userId == userId) =
      s'.refreshTokens.rows.filter (·.userId == userId) := by
  have hrows := congrArg OwnedRows.refreshTokens h.rows
  simpa [System.select] using hrows

/-- The user's jobs are the same. -/
theorem AgreeOn.accessJobs (h : AgreeOn userId s s') :
    s.accessJobs.rows.filter (·.userId == some userId) =
      s'.accessJobs.rows.filter (·.userId == some userId) := by
  have hrows := congrArg OwnedRows.accessJobs h.rows
  simpa [System.select] using hrows

/-- Functions that agree on the rows list the same. -/
theorem mapM_congr {α β ε : Type} {f g : α → Except ε β} {rows : List α}
    (h : ∀ a ∈ rows, f a = g a) : rows.mapM f = rows.mapM g := by
  induction rows with
  | nil => rfl
  | cons a rows ih =>
      have hhead := h a List.mem_cons_self
      have htail := ih fun b hb => h b (List.mem_cons_of_mem _ hb)
      rw [List.mapM_cons, List.mapM_cons, hhead, htail]

/-- The request that a grant names, if it is there, is the grant's user's. -/
theorem request_of_grant (hs : Inv s) {g : ConsentGrant} (hg : g ∈ s.consentGrants.rows)
    {cr : ConsentRequest} (h : s.consentRequests.get? g.consentRequestId = some cr) :
    cr.userId = g.userId := by
  rcases Table.get?_mem h with ⟨hcr, hkey⟩
  have hrequested := (hs.requests cr hcr).2
  have hgranted := (hs.grants g hg).2
  rw [hkey] at hrequested
  exact user_of_name hs.requestedOnce hrequested hgranted

/-- The request of the user's grant is the same. -/
theorem request_agrees (hs : Inv s) (hagree : AgreeOn userId s s') {g : ConsentGrant}
    (hg : g ∈ s.consentGrants.rows) (huser : g.userId = userId) {cr : ConsentRequest}
    (h : s.consentRequests.get? g.consentRequestId = some cr) :
    s'.consentRequests.get? g.consentRequestId = some cr := by
  have hown := request_of_grant hs hg h
  rcases Table.get?_mem h with ⟨hcr, hkey⟩
  have hmem : cr ∈ s.consentRequests.rows.filter (·.userId == userId) :=
    List.mem_filter.mpr ⟨hcr, by simp [hown, huser]⟩
  rw [hagree.consentRequests] at hmem
  exact Table.get?_eq_some_iff.mpr ⟨(List.mem_filter.mp hmem).1, hkey⟩

/-- What is the same for a user is so in both directions. -/
theorem AgreeOn.symm (h : AgreeOn userId s s') : AgreeOn userId s' s := by
  constructor
  · exact h.rows.symm
  · exact fun token => (h.jobs token).symm
  · intro job hjob huser id hid
    have hmem : job ∈ s'.accessJobs.rows.filter (·.userId == some userId) :=
      List.mem_filter.mpr ⟨hjob, by simp [huser]⟩
    rw [← h.accessJobs] at hmem
    exact (h.mfa job (List.mem_filter.mp hmem).1 huser id hid).symm

/-- The consents of a user are listed with requests of the user. -/
theorem grantItem_agrees (hs : Inv s) (hs' : Inv s') (hagree : AgreeOn userId s s')
    {g : ConsentGrant} (hg : g ∈ s.consentGrants.rows) (huser : g.userId = userId) :
    grantItem py s g = grantItem py s' g := by
  have hg' : g ∈ s'.consentGrants.rows := by
    have hmem : g ∈ s.consentGrants.rows.filter (·.userId == userId) :=
      List.mem_filter.mpr ⟨hg, by simp [huser]⟩
    rw [hagree.consentGrants] at hmem
    exact (List.mem_filter.mp hmem).1
  have hrequest : s.consentRequests.get? g.consentRequestId =
      s'.consentRequests.get? g.consentRequestId := by
    refine Option.ext fun cr => ?_
    constructor
    · exact request_agrees hs hagree hg huser
    · exact request_agrees hs' hagree.symm hg' huser
  unfold grantItem
  rw [hrequest]

/-- The grants are listed the same. -/
theorem listConsents_agrees (hs : Inv s) (hs' : Inv s') (hagree : AgreeOn userId s s')
    (now : Nat) : listConsents py s userId now = listConsents py s' userId now := by
  unfold listConsents
  rw [filter_and, filter_and, ← hagree.consentGrants]
  apply mapM_congr
  intro g hg
  have hmem := (List.mem_filter.mp (List.mem_filter.mp hg).1).1
  rcases List.mem_filter.mp hmem with ⟨hrow, huser⟩
  exact grantItem_agrees hs hs' hagree hrow (by simpa using huser)

/-- The MFA session of the user's job is the same. -/
theorem liveMfa_agrees (hagree : AgreeOn userId s s') {job : AccessJob}
    (hjob : job ∈ s.accessJobs.rows) (huser : job.userId = some userId) :
    liveMfa s.mfa job = liveMfa s'.mfa job := by
  unfold liveMfa
  split
  · cases hid : job.sessionId with
    | none => rfl
    | some id =>
        have hsame := hagree.mfa job hjob huser id hid
        by_cases hempty : id = ""
        · simp [Option.filter, hempty]
        · simp [Option.filter, hempty, hsame]
  · rfl

/-- The jobs are listed the same. -/
theorem listAccessJobs_agrees (hagree : AgreeOn userId s s') (query : JobQuery) :
    listAccessJobs py.floatRepr s.mfa s.accessJobs.rows userId query =
      listAccessJobs py.floatRepr s'.mfa s'.accessJobs.rows userId query := by
  have hselect : selectJobs s.accessJobs.rows userId query =
      selectJobs s'.accessJobs.rows userId query := by
    unfold selectJobs
    rw [hagree.accessJobs]
  unfold listAccessJobs
  rw [← hselect]
  refine List.map_congr_left fun job hjob => ?_
  rcases selectJobs_mem hjob with ⟨hrow, huser⟩
  unfold serializeAccessJobRuntime
  rw [liveMfa_agrees hagree hrow huser]

/-- The agents are listed the same. -/
theorem listAgents_agrees (hagree : AgreeOn userId s s') :
    listAgents py s userId = listAgents py s' userId := by
  unfold listAgents
  rw [filter_and, filter_and, hagree.agents]

/-- The login sessions are listed the same. -/
theorem listSessions_agrees (hagree : AgreeOn userId s s') (now : Nat) :
    listSessions s userId now = listSessions s' userId now := by
  unfold listSessions
  rw [filter_and, filter_and, filter_and, filter_and, hagree.refreshTokens]

/-- Every listing but the one of refresh jobs is the same. -/
theorem list_agrees (hs : Inv s) (hs' : Inv s') (hagree : AgreeOn userId s s')
    {request : ListRequest} (hrequest : request ≠ .refreshJobs) :
    list py s userId request = list py s' userId request := by
  cases request with
  | links =>
      have hsame : listLinks s userId = listLinks s' userId := by
        unfold listLinks
        rw [hagree.links]
      simp only [list, hsame]
  | tokens =>
      have hsame : listTokens s userId = listTokens s' userId := by
        unfold listTokens
        rw [hagree.accessTokens]
      simp only [list, hsame]
  | webhooks =>
      have hsame : listWebhooks s userId = listWebhooks s' userId := by
        unfold listWebhooks
        rw [hagree.webhooks]
      simp only [list, hsame]
  | consents now => simp only [list, listConsents_agrees hs hs' hagree now]
  | accessJobs limit site status jobType =>
      simp only [list, listAccessJobs_agrees hagree]
  | agents => simp only [list, listAgents_agrees hagree]
  | sessions now => simp only [list, listSessions_agrees hagree now]
  | refreshJobs => exact absurd rfl hrequest

/-! ## The refresh jobs -/

/-- Every job is listed under its token. -/
theorem lookup_listJobs (s : System) (token : String) :
    (listJobs s).lookup token = (s.job? token).map refreshJobItem := by
  unfold listJobs System.job? Refresh.Registry.job? Table.get?
  have hnamed : ∀ e ∈ s.api.live.scheduler.registry.jobs.rows,
      (s.api.live.scheduler.registry.objects[e.object]?).isSome = true := by
    intro e he
    have hname := s.api.live.scheduler.registry.named e he
    rcases Option.map_eq_some_iff.mp hname with ⟨job, hjob, -⟩
    rw [hjob]
    rfl
  generalize s.api.live.scheduler.registry.jobs.rows = rows at hnamed
  generalize s.api.live.scheduler.registry.objects = objects at hnamed
  induction rows with
  | nil => rfl
  | cons e rows ih =>
      have hrest := ih fun e' he' => hnamed e' (List.mem_cons_of_mem _ he')
      rcases Option.isSome_iff_exists.mp (hnamed e List.mem_cons_self) with ⟨job, hjob⟩
      rw [List.filterMap_cons, hjob]
      dsimp only [Option.map_some]
      rw [List.lookup_cons, List.find?_cons]
      by_cases htoken : e.accessToken = token
      · simp [htoken, hjob]
      · have hne : (token == e.accessToken) = false := by simpa using fun h => htoken h.symm
        rw [hne, hrest]
        simp [htoken]

/-- The entry shows all of a job but its token. -/
theorem refreshJobItem_inj {a b : Refresh.RefreshJob} (htoken : a.accessToken = b.accessToken)
    (h : refreshJobItem a = refreshJobItem b) : a = b := by
  cases a
  cases b
  simp_all [refreshJobItem]

/-- A refresh job is known by how it is listed. -/
theorem map_refreshJobItem_inj {token : String}
    (h : (s.job? token).map refreshJobItem = (s'.job? token).map refreshJobItem) :
    s.job? token = s'.job? token := by
  cases hjob : s.job? token with
  | none =>
      rw [hjob] at h
      exact (Option.map_eq_none_iff.mp h.symm).symm
  | some job =>
      rw [hjob] at h
      rcases Option.map_eq_some_iff.mp h.symm with ⟨job', hjob', hitem⟩
      have htoken := Refresh.Registry.token_of_job? hjob
      have htoken' := Refresh.Registry.token_of_job? hjob'
      rw [hjob', refreshJobItem_inj (htoken'.trans htoken.symm) hitem]

/-- Two options are equal where both halves of a filter are. -/
theorem option_eq_iff_filter {α : Type} {a b : Option α} (p : α → Bool) :
    a = b ↔ a.filter p = b.filter p ∧ a.filter (fun x => !p x) = b.filter (fun x => !p x) := by
  constructor
  · rintro rfl
    exact ⟨rfl, rfl⟩
  · rintro ⟨hp, hnp⟩
    cases a with
    | none =>
        cases b with
        | none => rfl
        | some y => cases hy : p y <;> simp_all [Option.filter]
    | some x =>
        cases b with
        | none => cases hx : p x <;> simp_all [Option.filter]
        | some y => cases hx : p x <;> cases hy : p y <;> simp_all [Option.filter]

/-- The refresh jobs are listed the same just if those of the others are the same. -/
theorem listRefreshJobs_iff (hagree : AgreeOn userId s s') :
    list py s userId .refreshJobs = list py s' userId .refreshJobs ↔
      SameOtherJobs userId s s' := by
  have hresponse : list py s userId .refreshJobs = list py s' userId .refreshJobs ↔
      ∀ token, s.job? token = s'.job? token := by
    constructor
    · intro h token
      have hitems := ListResponse.refreshJobs.inj (Except.ok.inj h)
      have hitem : (listJobs s).lookup token = (listJobs s').lookup token :=
        congrFun hitems token
      rw [lookup_listJobs, lookup_listJobs] at hitem
      exact map_refreshJobItem_inj hitem
    · intro h
      have hitems : (fun token => (listJobs s).lookup token) =
          fun token => (listJobs s').lookup token := by
        funext token
        rw [lookup_listJobs, lookup_listJobs, h token]
      simp only [list, hitems]
  rw [hresponse]
  refine forall_congr' fun token => ?_
  rw [option_eq_iff_filter (·.userId == userId)]
  exact and_iff_right (hagree.jobs token)

end

/-- In any two states that runs reach and that agree on everything a user owns,
the user is answered the same by every listing exactly when the refresh jobs of
the other users are the same in both. -/
theorem listings_iff {py : PyText} {webhook : Bool} {backend backend' : Backend}
    {tr tr' : List Label} {s s' : System} {userId : Nat}
    (h : Runs.exec (step py webhook) (start backend) tr = some s)
    (h' : Runs.exec (step py webhook) (start backend') tr' = some s')
    (hagree : AgreeOn userId s s') :
    (∀ request, list py s userId request = list py s' userId request) ↔
      SameOtherJobs userId s s' := by
  constructor
  · intro hall
    exact (listRefreshJobs_iff hagree).mp (hall .refreshJobs)
  · intro hother request
    by_cases hrequest : request = .refreshJobs
    · rw [hrequest]
      exact (listRefreshJobs_iff hagree).mpr hother
    · exact list_agrees (run_inv h) (run_inv h') hagree hrequest

/-! ## Another user's refresh job -/

/-- A user opens a session and gets an access token. -/
def sessionWithToken (userId : Nat) (linkToken token : String) : List Label :=
  [.api (.links (.createLinkSession { userId, authMethod := "jwt" } linkToken
      (some "greengrid_energy"))),
    .api (.links (.connect linkToken "greengrid_energy" token true true))]

/-- Two users with an access token each. -/
def twoTenants : List Label :=
  [.register 1, .register 2] ++ sessionWithToken 1 "link-1" "access-1" ++
    sessionWithToken 2 "link-2" "access-2"

/-- The second user schedules a refresh. -/
def otherScheduled : List Label :=
  twoTenants ++ [.api (.scheduleRefresh 2 "access-2" (some 600) none true)]

/-- The parts of a state that decide what the first user is answered. -/
def tenantView (s : System) :
    OwnedRows × List AccessJob × List Refresh.RefreshJob × List Refresh.JobEntry :=
  (s.select (· == some 1), s.accessJobs.rows, s.api.live.scheduler.registry.objects,
    s.api.live.scheduler.registry.jobs.rows)

/-- A user without refresh jobs has none under any token. -/
theorem filter_job?_of_others {s : System} {userId : Nat}
    (h : ∀ job ∈ s.api.live.scheduler.registry.objects, job.userId ≠ userId) (token : String) :
    (s.job? token).filter (·.userId == userId) = none := by
  cases hjob : s.job? token with
  | none => rfl
  | some job =>
      have hmem := Refresh.Registry.job?_eq_some.mp hjob
      rcases hmem with ⟨e, -, hobject⟩
      have hother := h job (List.mem_of_getElem? hobject)
      simp [Option.filter, hother]

/-- What the user's rows show is what two states agree on. -/
theorem agreeOn_of_view {s s' : System} (hrows : s.select (· == some 1) = s'.select (· == some 1))
    (hjobs : s.accessJobs.rows = [])
    (hs : ∀ job ∈ s.api.live.scheduler.registry.objects, job.userId ≠ 1)
    (hs' : ∀ job ∈ s'.api.live.scheduler.registry.objects, job.userId ≠ 1) : AgreeOn 1 s s' := by
  constructor
  · exact hrows
  · intro token
    rw [filter_job?_of_others hs, filter_job?_of_others hs']
  · intro job hjob
    rw [hjobs] at hjob
    cases hjob

/-- The second user's other links and webhooks are of no consequence. -/
theorem otherScheduled_same :
    ∃ s s', Runs.exec (step Principals.asciiText true) (start .redis) otherScheduled = some s ∧
      Runs.exec (step Principals.asciiText true) (start .redis)
        (otherScheduled ++ sessionWithToken 2 "link-3" "access-3" ++
          [.registerWebhook ⟨"webhook-1", "link-3", "https://hooks.example/2", 2, 0⟩]) = some s' ∧
      AgreeOn 1 s s' ∧
      ∀ request, list Principals.asciiText s 1 request = list Principals.asciiText s' 1 request := by
  have hrun : (Runs.exec (step Principals.asciiText true) (start .redis) otherScheduled).isSome =
      true := by decide +kernel
  have hrun' : (Runs.exec (step Principals.asciiText true) (start .redis)
      (otherScheduled ++ sessionWithToken 2 "link-3" "access-3" ++
        [.registerWebhook ⟨"webhook-1", "link-3", "https://hooks.example/2", 2, 0⟩])).map
          tenantView =
      (Runs.exec (step Principals.asciiText true) (start .redis) otherScheduled).map
        tenantView := by decide +kernel
  have hview : (Runs.exec (step Principals.asciiText true) (start .redis) otherScheduled).map
      (fun s => (s.accessJobs.rows, s.api.live.scheduler.registry.objects.map (·.userId))) =
        some ([], [2]) := by decide +kernel
  rcases Option.isSome_iff_exists.mp hrun with ⟨s, hs⟩
  rw [hs] at hrun' hview
  rcases Option.map_eq_some_iff.mp hrun' with ⟨s', hs', hsame⟩
  rcases Prod.mk.inj (Option.some.inj hview) with ⟨haccessJobs, hobjects⟩
  simp only [tenantView, Prod.mk.injEq] at hsame
  rcases hsame with ⟨hrows, -, hobjects', hentries⟩
  have hothers : ∀ job ∈ s.api.live.scheduler.registry.objects, job.userId ≠ 1 := by
    intro job hjob huser
    have hmem := List.mem_map.mpr ⟨job, hjob, huser⟩
    rw [hobjects] at hmem
    exact absurd hmem (by decide)
  have hagree : AgreeOn 1 s s' :=
    agreeOn_of_view hrows.symm haccessJobs hothers (by rw [hobjects']; exact hothers)
  refine ⟨s, s', hs, hs', hagree, (listings_iff hs hs' hagree).mpr fun token => ?_⟩
  have hjob : s.job? token = s'.job? token := by
    unfold System.job? Refresh.Registry.job? Table.get?
    rw [hobjects', hentries]
  rw [hjob]

/-- The first user is shown the second user's job, with its access token. -/
theorem otherScheduled_not_same :
    ∃ s s', Runs.exec (step Principals.asciiText true) (start .redis) twoTenants = some s ∧
      Runs.exec (step Principals.asciiText true) (start .redis) otherScheduled = some s' ∧
      AgreeOn 1 s s' ∧
      list Principals.asciiText s 1 .refreshJobs ≠ list Principals.asciiText s' 1 .refreshJobs := by
  have hrun : (Runs.exec (step Principals.asciiText true) (start .redis) twoTenants).isSome =
      true := by decide +kernel
  have hrun' : (Runs.exec (step Principals.asciiText true) (start .redis) otherScheduled).map
      (fun s => s.select (· == some 1)) =
        (Runs.exec (step Principals.asciiText true) (start .redis) twoTenants).map
          (fun s => s.select (· == some 1)) := by decide +kernel
  have hview : (Runs.exec (step Principals.asciiText true) (start .redis) twoTenants).map
      (fun s => (s.accessJobs.rows, s.api.live.scheduler.registry.objects, listJobs s)) =
        some ([], [], []) := by decide +kernel
  have hview' : (Runs.exec (step Principals.asciiText true) (start .redis) otherScheduled).map
      (fun s => (s.api.live.scheduler.registry.objects.map (·.userId),
        (listJobs s).map Prod.fst)) = some ([2], ["access-2"]) := by decide +kernel
  rcases Option.isSome_iff_exists.mp hrun with ⟨s, hs⟩
  rw [hs] at hrun' hview
  rcases Option.map_eq_some_iff.mp hrun' with ⟨s', hs', hrows⟩
  rw [hs'] at hview'
  rcases Prod.mk.inj (Option.some.inj hview) with ⟨haccessJobs, hobjects⟩
  rcases Prod.mk.inj hobjects with ⟨hobjects, hlisted⟩
  rcases Prod.mk.inj (Option.some.inj hview') with ⟨hobjects', hlisted'⟩
  have hagree : AgreeOn 1 s s' := by
    apply agreeOn_of_view hrows.symm haccessJobs
    · rw [hobjects]
      intro job hjob
      cases hjob
    · intro job hjob huser
      have hmem := List.mem_map.mpr ⟨job, hjob, huser⟩
      rw [hobjects'] at hmem
      exact absurd hmem (by decide)
  refine ⟨s, s', hs, hs', hagree, fun hsame => ?_⟩
  have hitems : (listJobs s).lookup "access-2" = (listJobs s').lookup "access-2" :=
    congrFun (ListResponse.refreshJobs.inj (Except.ok.inj hsame)) "access-2"
  rw [hlisted] at hitems
  have hmem : "access-2" ∈ (listJobs s').map Prod.fst := by
    rw [hlisted']
    exact List.mem_singleton_self _
  rcases List.mem_map.mp hmem with ⟨⟨token, item⟩, hitem, htoken⟩
  have hnone := List.lookup_eq_none_iff.mp hitems.symm (token, item) hitem
  simp [← htoken] at hnone

end Plaidify.Tenancy
