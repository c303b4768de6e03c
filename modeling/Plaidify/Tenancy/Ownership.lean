import Plaidify.Tenancy.Database

/-!
# Whose a row is

A row is its user's, and so is every row it refers to, in every run. An access
token is of the user it was minted for, whoever holds its name: the refresh jobs,
public tokens and consents that name it are of the same user.
-/

namespace Plaidify.Tenancy

open Links (Backend)
open Principals (HttpError PyText)

/-! ## Refresh jobs -/

section Jobs

open Refresh

variable {owns : String → Nat → Prop} {lower : String → String} {webhook : Bool}

/-- Every job object and every row is for a token of its user. -/
structure JobsOwned (owns : String → Nat → Prop) (s : Scheduler) : Prop where
  objects : ∀ job ∈ s.registry.objects, owns job.accessToken job.userId
  rows : ∀ row ∈ s.rows.rows, owns row.accessToken row.userId

/-- More access tokens may be known than before. -/
theorem JobsOwned.mono {owns' : String → Nat → Prop} {s : Scheduler} (h : JobsOwned owns s)
    (himp : ∀ token userId, owns token userId → owns' token userId) : JobsOwned owns' s := by
  constructor
  · intro job hjob
    exact himp _ _ (h.objects job hjob)
  · intro row hrow
    exact himp _ _ (h.rows row hrow)

/-- A row that is written keeps its user, and a new one has the user of the job. -/
theorem persistJob_owned {rows : Rows} {job : RefreshJob} (persists : Bool)
    (hjob : owns job.accessToken job.userId)
    (hrows : ∀ row ∈ rows.rows, owns row.accessToken row.userId) :
    ∀ row ∈ (persistJob rows job persists).rows, owns row.accessToken row.userId := by
  intro row hrow
  unfold persistJob at hrow
  split at hrow
  · split at hrow
    · -- the row that is there keeps its user
      rename_i old hget
      rcases Table.get?_mem hget with ⟨hold, hkey⟩
      rcases Table.mem_put hrow with rfl | ⟨hmem, -⟩
      · have howns := hrows old hold
        rw [hkey] at howns
        exact howns
      · exact hrows row hmem
    · -- the insert fails where the id is taken
      cases hinsert : rows.insert? (job.toRow job.userId) with
      | none =>
          rw [hinsert] at hrow
          exact hrows row hrow
      | some rows' =>
          rw [hinsert, Option.getD_some, (Table.insert?_eq_some hinsert).2] at hrow
          rcases List.mem_append.mp hrow with hmem | hlast
          · exact hrows row hmem
          · rw [List.mem_singleton.mp hlast]
            exact hjob
  · exact hrows row hrow

/-- An assignment to an object leaves its token and its user. -/
theorem modify_owned {r : Registry} (object : Nat) (f : RefreshJob → RefreshJob)
    (h : ∀ job ∈ r.objects, owns job.accessToken job.userId) :
    ∀ job ∈ (r.modify object f).objects, owns job.accessToken job.userId := by
  intro job hjob
  have hmem : job ∈ r.objects.modify object (RefreshJob.assign f) := hjob
  rcases List.mem_iff_getElem?.mp hmem with ⟨n, hn⟩
  rw [List.getElem?_modify] at hn
  rcases Option.map_eq_some_iff.mp hn with ⟨old, hold, rfl⟩
  have howns := h old (List.mem_of_getElem? hold)
  by_cases hobject : object = n
  · rw [if_pos hobject]
    exact howns
  · rw [if_neg hobject]
    exact howns

/-- A job that is added to the registry is for a token of its user. -/
theorem add_owned {r r' : Registry} {job : RefreshJob} (hadd : r.add? job = some r')
    (hjob : owns job.accessToken job.userId)
    (h : ∀ job ∈ r.objects, owns job.accessToken job.userId) :
    ∀ job ∈ r'.objects, owns job.accessToken job.userId := by
  intro other hother
  rw [(Registry.add?_eq_some hadd).2.1] at hother
  rcases List.mem_append.mp hother with hold | hlast
  · exact h other hold
  · rw [List.mem_singleton.mp hlast]
    exact hjob

/-- So is every job that is found there. -/
theorem job?_owned {r : Registry} {token : String} {job : RefreshJob}
    (hjob : r.job? token = some job) (h : ∀ job ∈ r.objects, owns job.accessToken job.userId) :
    owns job.accessToken job.userId := by
  rcases Registry.job?_eq_some.mp hjob with ⟨e, -, hobject⟩
  exact h job (List.mem_of_getElem? hobject)

/-- A schedule makes a job for the user who has the token, or changes the job that there
is for it. -/
theorem schedule_owned {s t : Scheduler} {accessToken : String} {userId : Nat}
    {intervalSeconds : Option Int} {scheduleFormat : Option String} {persists : Bool}
    (hs : JobsOwned owns s) (howns : owns accessToken userId)
    (h : s.schedule lower accessToken userId intervalSeconds scheduleFormat persists = .ok t) :
    JobsOwned owns t := by
  unfold Scheduler.schedule at h
  simp only [bind, Except.bind] at h
  split at h
  · cases h
  · rename_i r hresolve
    -- the object that there is for the token is changed, or a new one added
    have hregistry : ∀ job ∈ t.registry.objects, owns job.accessToken job.userId := by
      rw [← Except.ok.inj h]
      dsimp only
      split
      · exact modify_owned _ _ hs.objects
      · cases hadd : s.registry.add? (RefreshJob.mk accessToken userId r.2 r.1 none none 0 true) with
        | none => exact hs.objects
        | some registry => exact add_owned hadd howns hs.objects
    refine ⟨hregistry, ?_⟩
    have hrows : t.rows = (t.registry.job? accessToken).elim s.rows fun job =>
        persistJob s.rows job persists := by
      rw [← Except.ok.inj h]
    rw [hrows]
    cases hjob : t.registry.job? accessToken with
    | none => exact hs.rows
    | some job => exact persistJob_owned persists (job?_owned hjob hregistry) hs.rows

/-- An update changes neither the token nor the user. -/
theorem update_owned {s t : Scheduler} {accessToken : String} {intervalSeconds : Option Int}
    {scheduleFormat : Option String} {enabled : Option Bool} {persists found : Bool}
    (hs : JobsOwned owns s)
    (h : s.update lower accessToken intervalSeconds scheduleFormat enabled persists =
      .ok (t, found)) :
    JobsOwned owns t := by
  unfold Scheduler.update at h
  split at h
  · rename_i e job hget hjob
    cases hupdated : Scheduler.reformatted lower job intervalSeconds scheduleFormat with
    | error text =>
        rw [hupdated] at h
        cases h
    | ok updated =>
        rw [hupdated] at h
        have hassign := Scheduler.assign_reformatted hupdated enabled
        have howns := job?_owned hjob hs.objects
        rcases Prod.mk.inj (Except.ok.inj h) with ⟨rfl, -⟩
        constructor
        · exact modify_owned _ _ hs.objects
        · apply persistJob_owned persists _ hs.rows
          rw [← hassign]
          exact howns
  · rcases Prod.mk.inj (Except.ok.inj h) with ⟨rfl, -⟩
    exact hs

/-- A job is dropped with its row. -/
theorem unschedule_owned {s t : Scheduler} {accessToken : String} {deletes removed : Bool}
    (hs : JobsOwned owns s) (h : s.unschedule accessToken deletes = (t, removed)) :
    JobsOwned owns t := by
  rcases Scheduler.unschedule_eq h with ⟨-, rfl, -⟩ | ⟨-, hregistry, hrows⟩
  · exact hs
  · constructor
    · rw [hregistry]
      exact hs.objects
    · rw [hrows]
      unfold deletePersistedJob
      intro row hrow
      split at hrow
      · exact hs.rows row (List.mem_filter.mp hrow).1
      · exact hs.rows row hrow

/-- The jobs of a restart are those of the rows. -/
theorem loadFromDb_owned {rows : Rows}
    (h : ∀ row ∈ rows.rows, owns row.accessToken row.userId) :
    ∀ job ∈ (loadFromDb rows).objects, owns job.accessToken job.userId := by
  have hfold : ∀ (l : List ScheduledRefreshJob) (r : Registry),
      (∀ row ∈ l, owns row.accessToken row.userId) →
      (∀ job ∈ r.objects, owns job.accessToken job.userId) →
      ∀ job ∈ (l.foldl (fun r row => (r.add? row.toJob).getD r) r).objects,
        owns job.accessToken job.userId := by
    intro l
    induction l with
    | nil => exact fun r _ hr => hr
    | cons row l ih =>
        intro r hl hr
        have hrow : owns row.toJob.accessToken row.toJob.userId := hl row List.mem_cons_self
        apply ih _ fun row hrow => hl row (List.mem_cons_of_mem _ hrow)
        show ∀ job ∈ ((r.add? row.toJob).getD r).objects, owns job.accessToken job.userId
        cases hadd : r.add? row.toJob with
        | none => exact hr
        | some r' => exact add_owned hadd hrow hr
  apply hfold
  · intro row hrow
    exact h row (List.mem_filter.mp hrow).1
  · intro job hjob
    cases hjob

/-- Whatever the scheduler does, and its runs in flight, it is for the users' own
tokens. -/
theorem live_owned {s t : LiveScheduler} {l : LiveLabel} (hs : JobsOwned owns s.scheduler)
    (hl : ∀ token userId interval format persists,
      l = .schedule token userId interval format persists → owns token userId)
    (h : liveStep lower webhook s l = some t) : JobsOwned owns t.scheduler := by
  cases l with
  | schedule accessToken userId intervalSeconds scheduleFormat persists =>
      have howns := hl _ _ _ _ _ rfl
      simp only [liveStep] at h
      split at h
      · rw [← Option.some.inj h]
        exact hs
      · rename_i scheduler hop
        rw [← Option.some.inj h]
        exact schedule_owned hs howns hop
  | update accessToken intervalSeconds scheduleFormat enabled persists =>
      simp only [liveStep] at h
      split at h
      · rw [← Option.some.inj h]
        exact hs
      · rename_i scheduler found hop
        rw [← Option.some.inj h]
        exact update_owned hs hop
  | unschedule accessToken deletes =>
      simp only [liveStep] at h
      split at h
      · rename_i scheduler hop
        rw [← Option.some.inj h]
        exact unschedule_owned hs hop
      · rename_i scheduler hop
        rw [← Option.some.inj h]
        exact unschedule_owned hs hop
  | tick now =>
      simp only [liveStep] at h
      split at h
      · rw [← Option.some.inj h]
        exact hs
      · rw [← Option.some.inj h]
        exact hs
  | fetched flight outcome now persists =>
      simp only [liveStep, LiveScheduler.fetched] at h
      split at h
      · -- a run in flight saves the job that it began with
        rcases Option.map_eq_some_iff.mp h with ⟨job, hjob, rfl⟩
        have howns := hs.objects job (List.mem_of_getElem? hjob)
        have hobjects := modify_owned flight.object (outcome.apply (utc now)) hs.objects
        split
        · exact ⟨hobjects, hs.rows⟩
        · exact ⟨hobjects, persistJob_owned persists howns hs.rows⟩
      · cases h
  | notified flight persists =>
      -- so it does after the webhook
      simp only [liveStep] at h
      split at h
      · rcases Option.map_eq_some_iff.mp h with ⟨job, hjob, rfl⟩
        have howns := hs.objects job (List.mem_of_getElem? hjob)
        exact ⟨hs.objects, persistJob_owned persists howns hs.rows⟩
      · cases h
  | dropped flight =>
      simp only [liveStep] at h
      split at h
      · rw [← Option.some.inj h]
        exact hs
      · cases h
  | restart =>
      -- what is loaded was saved for its user
      rw [← Option.some.inj h]
      exact ⟨loadFromDb_owned hs.rows, hs.rows⟩

end Jobs

/-! ## Access tokens -/

/-- The access tokens that were minted, each once, and for a link token whose link
and session are its user's. -/
structure TokensOwned (links : Links.State) (minted : List Minted) : Prop where
  inv : Links.Inv links
  owned : Links.Owned links
  once : (minted.map (·.token)).Nodup
  rows : ∀ t ∈ links.accessTokens.rows, ⟨t.token, t.linkToken, t.userId⟩ ∈ minted
  known : ∀ m ∈ minted, m.linkToken ∈ links.granted.map Prod.fst
  belongs : ∀ m ∈ minted, Links.Belongs links m.linkToken m.userId
  link : ∀ m ∈ minted, ∀ link ∈ links.links.rows, link.linkToken = m.linkToken →
    link.userId = m.userId

/-- The minted tokens after a request. -/
def remint (minted : List Minted) (links : Links.State) : List Minted :=
  minted ++ (mintedOf links.accessTokens.rows).filter (· ∉ minted)

/-- What was minted stays on record, and the new rows come to it. -/
theorem mem_remint {minted : List Minted} {links : Links.State} {m : Minted} :
    m ∈ remint minted links ↔ m ∈ minted ∨ m ∈ mintedOf links.accessTokens.rows := by
  unfold remint
  rw [List.mem_append, List.mem_filter]
  by_cases h : m ∈ minted
  · simp [h]
  · simp [h]

/-- A row is on record with its token, its link and its user. -/
theorem mem_mintedOf {rows : List Principals.AccessToken} {m : Minted} :
    m ∈ mintedOf rows ↔ ∃ t ∈ rows, m = ⟨t.token, t.linkToken, t.userId⟩ := by
  unfold mintedOf
  rw [List.mem_map]
  constructor
  · rintro ⟨t, ht, rfl⟩
    exact ⟨t, ht, rfl⟩
  · rintro ⟨t, ht, rfl⟩
    exact ⟨t, ht, rfl⟩

/-- Where every row was minted before, there is nothing to note. -/
theorem remint_of_rows {minted : List Minted} {links : Links.State}
    (h : ∀ t ∈ links.accessTokens.rows, ⟨t.token, t.linkToken, t.userId⟩ ∈ minted) :
    remint minted links = minted := by
  unfold remint
  rw [List.filter_eq_nil_iff.mpr, List.append_nil]
  intro m hm
  rcases mem_mintedOf.mp hm with ⟨t, ht, rfl⟩
  simpa using h t ht

/-- A request for links mints for its user only, and under a new name. -/
theorem tokensOwned_step {py : PyText} {s t : Links.State} {l : Links.Label}
    {minted : List Minted} (hs : TokensOwned s minted)
    (hnew : ∀ token, l.mints = some token → token ∉ minted.map (·.token))
    (h : Links.step py s l = some t) : TokensOwned t (remint minted t) := by
  have hinv := Links.step_inv hs.inv h
  have howned := Links.step_owned hs.inv hs.owned h
  rcases Links.step_rows hs.owned h with ⟨hlinks, htokens⟩
  rcases Links.step_granted hs.inv h with ⟨hgranted, hsessions⟩
  -- a row is one that was minted before, or the one new token
  have hrows : ∀ row ∈ t.accessTokens.rows, ⟨row.token, row.linkToken, row.userId⟩ ∈ minted ∨
      row.token ∉ minted.map (·.token) ∧
        ∃ link ∈ t.links.rows, link.linkToken = row.linkToken ∧ link.userId = row.userId := by
    intro row hrow
    rcases htokens row hrow with hold | ⟨hmints, hlink⟩
    · exact .inl (hs.rows row hold)
    · exact .inr ⟨hnew row.token hmints, hlink⟩
  have hcases : ∀ m ∈ remint minted t, m ∈ minted ∨
      m.linkToken ∈ t.granted.map Prod.fst ∧ Links.Belongs t m.linkToken m.userId ∧
        ∃ link ∈ t.links.rows, link.linkToken = m.linkToken ∧ link.userId = m.userId := by
    intro m hm
    rcases mem_remint.mp hm with hold | hrow
    · exact .inl hold
    · rcases mem_mintedOf.mp hrow with ⟨row, hmem, rfl⟩
      rcases hrows row hmem with hold | ⟨-, hlink⟩
      · exact .inl hold
      · exact .inr ⟨hinv.accessTokens row hmem, howned.accessTokens row hmem, hlink⟩
  -- once
  refine ⟨hinv, howned, ?_, ?_, ?_, ?_, ?_⟩
  · unfold remint
    rw [List.map_append]
    have hnodup : ((mintedOf t.accessTokens.rows).map (·.token)).Nodup := by
      have hkeys := t.accessTokens.nodup
      unfold mintedOf
      rw [List.map_map]
      exact hkeys
    refine List.nodup_append.mpr ⟨hs.once, hnodup.sublist (List.filter_sublist.map _), ?_⟩
    intro token htoken other hother heq
    rcases List.mem_map.mp hother with ⟨m, hm, rfl⟩
    -- a row that is noted now was not minted before, so that its name is new
    rcases List.mem_filter.mp hm with ⟨hmrow, hmnew⟩
    rcases mem_mintedOf.mp hmrow with ⟨row, hrow, rfl⟩
    rcases hrows row hrow with hold | ⟨hfresh, -⟩
    · exact absurd hold (by simpa using hmnew)
    · rw [heq] at htoken
      exact hfresh htoken
  · -- rows
    intro row hrow
    apply mem_remint.mpr
    exact .inr (mem_mintedOf.mpr ⟨row, hrow, rfl⟩)
  · -- known
    intro m hm
    rcases hcases m hm with hold | ⟨hknown, -, -⟩
    · exact hgranted _ (hs.known m hold)
    · exact hknown
  · -- belongs: the session of a link stays the user's
    intro m hm
    rcases hcases m hm with hold | ⟨-, hbelongs, -⟩
    · intro session hsession htoken
      rcases hsessions session hsession with hbefore | hfresh
      · exact hs.belongs m hold session hbefore htoken
      · exact absurd (hs.known m hold) (htoken ▸ hfresh)
    · exact hbelongs
  · -- link
    intro m hm link hlink hkey
    rcases hcases m hm with hold | ⟨-, -, row, hrow, hrowKey, hrowUser⟩
    · rcases hlinks link hlink with ⟨old, hmem, holdKey, holdUser⟩ | hfresh | ⟨session, hsession⟩
      · have huser := hs.link m hold old hmem (holdKey.trans hkey)
        exact holdUser.symm.trans huser
      · exact absurd (hs.known m hold) (hkey ▸ hfresh)
      · have hbelongs := hs.belongs m hold session hsession.1 (hsession.2.1.trans hkey)
        exact Option.some.inj (hsession.2.2.symm.trans hbelongs)
    · have hsame : row = link := Table.eq_of_key_eq hrow hlink (hrowKey.trans hkey.symm)
      rw [← hsame]
      exact hrowUser

/-- Deletions leave everything with its user. -/
theorem TokensOwned.shrink {s t : Links.State} {minted : List Minted} (hs : TokensOwned s minted)
    (hstore : t.scopeStore = s.scopeStore) (hgranted : t.granted = s.granted)
    (hsessions : t.sessions = s.sessions)
    (hlinks : ∀ link ∈ t.links.rows, link ∈ s.links.rows)
    (htokens : ∀ row ∈ t.accessTokens.rows, row ∈ s.accessTokens.rows) :
    TokensOwned t minted := by
  have hbelongs : ∀ {linkToken userId}, Links.Belongs s linkToken userId →
      Links.Belongs t linkToken userId := by
    intro linkToken userId h session hsession
    rw [hsessions] at hsession
    exact h session hsession
  constructor
  · constructor
    · rw [hstore, hgranted]
      exact hs.inv.entries
    · rw [hgranted]
      exact hs.inv.once
    · rw [hgranted]
      exact fun link hlink => hs.inv.links link (hlinks link hlink)
    · rw [hgranted, hsessions]
      exact hs.inv.sessions
    · rw [hgranted]
      exact fun row hrow => hs.inv.accessTokens row (htokens row hrow)
  · constructor
    · rw [hsessions]
      exact hs.owned.sessions
    · exact fun link hlink => hbelongs (hs.owned.links link (hlinks link hlink))
    · exact fun row hrow => hbelongs (hs.owned.accessTokens row (htokens row hrow))
  · exact hs.once
  · exact fun row hrow => hs.rows row (htokens row hrow)
  · rw [hgranted]
    exact hs.known
  · exact fun m hm => hbelongs (hs.belongs m hm)
  · exact fun m hm link hlink => hs.link m hm link (hlinks link hlink)

/-! ## Requests for links, access tokens and refresh jobs -/

section Api

open Refresh

variable {owns : String → Nat → Prop} {py : PyText} {webhook : Bool}

/-- A schedule that is deferred is stored with the link token. -/
theorem links_defer (s : Api) (linkToken : String) (refreshSchedule : Option RefreshSchedule) :
    (s.defer py linkToken refreshSchedule).links = s.links := by
  unfold Api.defer
  split
  · split
    · rfl
    · rfl
  · rfl

/-- A refresh job is registered with the scheduler. -/
theorem links_register {s t : Api} {accessToken : String} {userId : Nat}
    {intervalSeconds : Option Int} {scheduleFormat : Option String} {persists : Bool}
    (h : s.register py webhook accessToken userId intervalSeconds scheduleFormat persists =
      some t) : t.links = s.links := by
  rcases Option.map_eq_some_iff.mp h with ⟨live, -, rfl⟩
  rfl

/-- Whether or not the scheduler takes it. -/
theorem links_getD_register (s : Api) (accessToken : String) (userId : Nat)
    (intervalSeconds : Option Int) (scheduleFormat : Option String) (persists : Bool) :
    ((s.register py webhook accessToken userId intervalSeconds scheduleFormat persists).getD
      s).links = s.links := by
  cases h : s.register py webhook accessToken userId intervalSeconds scheduleFormat persists with
  | none => rfl
  | some t => exact links_register h

/-- A deferred schedule is registered without a look at the links. -/
theorem links_registerDeferred (s : Api) (userId : Nat) (linkToken token : String)
    (persists : Bool) :
    (s.registerDeferred py webhook userId linkToken token persists).links = s.links := by
  unfold Api.registerDeferred
  dsimp only
  split
  · rfl
  · exact links_getD_register _ _ _ _ _ _

/-- The links and access tokens after a request are those after a request of
`Links`, which mints the same. -/
theorem api_links {s t : Api} {l : ApiLabel} (h : apiStep py webhook s l = some t) :
    t.links = s.links ∨
      ∃ l', Links.step py s.links l' = some t.links ∧ l'.mints = mints l := by
  cases l with
  | createLink auth linkToken site requested refreshSchedule =>
      rcases Option.map_eq_some_iff.mp h with ⟨links, hlinks, rfl⟩
      rw [links_defer]
      exact .inr ⟨_, hlinks, rfl⟩
  | submitCredentials userId linkToken token committed persists =>
      rcases Option.map_eq_some_iff.mp h with ⟨links, hlinks, rfl⟩
      refine .inr ⟨.submitCredentials userId linkToken token committed, ?_, rfl⟩
      rw [hlinks]
      -- a deferred schedule is no row of the links
      split
      · rw [links_registerDeferred]
      · rfl
  | links l =>
      cases l with
      | createLink | submitCredentials => cases h
      | createLinkSession | createPublicLinkSession | exchangeLinkBootstrap | connect |
        deleteLink | deleteToken | wait =>
          simp only [apiStep] at h
          rcases Option.map_eq_some_iff.mp h with ⟨links, hlinks, rfl⟩
          exact .inr ⟨_, hlinks, rfl⟩
  | scheduleRefresh userId accessToken intervalSeconds scheduleFormat persists =>
      simp only [apiStep, scheduleRefresh] at h
      split at h
      · cases h
      · split at h
        · cases h
        · split at h
          · cases h
          · split at h
            · cases h
            · rw [← Option.some.inj h]
              exact .inl (links_getD_register _ _ _ _ _ _)
  | updateSchedule userId accessToken intervalSeconds scheduleFormat enabled persists =>
      have ht := Option.some.inj h
      rw [← ht]
      unfold updateSchedule
      split
      · exact .inl rfl
      · split
        · exact .inl rfl
        · split
          · exact .inl rfl
          · exact .inl rfl
  | unscheduleRefresh userId accessToken deletes =>
      simp only [apiStep] at h
      split at h
      · rcases Option.map_eq_some_iff.mp h with ⟨live, -, rfl⟩
        exact .inl rfl
      · cases h
  | background l =>
      simp only [apiStep] at h
      split at h
      · rcases Option.map_eq_some_iff.mp h with ⟨live, -, rfl⟩
        exact .inl rfl
      · cases h

/-- The job that is registered is for a token of the user. -/
theorem register_owned {s : Api} {accessToken : String} {userId : Nat}
    {intervalSeconds : Option Int} {scheduleFormat : Option String} {persists : Bool}
    (hs : JobsOwned owns s.live.scheduler) (howns : owns accessToken userId) :
    JobsOwned owns ((s.register py webhook accessToken userId intervalSeconds scheduleFormat
      persists).getD s).live.scheduler := by
  cases h : s.register py webhook accessToken userId intervalSeconds scheduleFormat persists with
  | none => exact hs
  | some t =>
      rcases Option.map_eq_some_iff.mp h with ⟨live, hlive, rfl⟩
      apply live_owned hs _ hlive
      intro token user interval format persists' heq
      cases heq
      exact howns

/-- Committed credentials leave an access token of the user who submitted them. -/
theorem hasToken_submitCredentials {s : Api} {links : Links.State} {userId : Nat}
    {linkToken token : String}
    (h : Links.step py s.links (.submitCredentials userId linkToken token true) = some links) :
    Api.hasToken { s with links } userId token = true := by
  rcases Links.respond_of_step h with ⟨hok, -⟩
  simp only [Links.respond, Links.submitCredentials] at hok
  split at hok
  · cases hok
  · rcases Links.mint_ok hok with ⟨-, -, -, ⟨hfalse, -, -⟩ | ⟨-, -, hrows⟩⟩
    · cases hfalse
    · unfold Api.hasToken
      dsimp only
      rw [hrows, List.any_append]
      simp

/-- The jobs after a request are their users', if those for the access tokens
afterwards are. -/
theorem api_jobs {s t : Api} {l : ApiLabel} (hs : JobsOwned owns s.live.scheduler)
    (hnew : ∀ userId token, t.hasToken userId token = true → owns token userId)
    (h : apiStep py webhook s l = some t) : JobsOwned owns t.live.scheduler := by
  cases l with
  | createLink auth linkToken site requested refreshSchedule =>
      -- the schedule waits until the link is used
      rcases Option.map_eq_some_iff.mp h with ⟨links, hlinks, rfl⟩
      rw [live_defer]
      exact hs
  | submitCredentials userId linkToken token committed persists =>
      rcases Option.map_eq_some_iff.mp h with ⟨links, hlinks, rfl⟩
      cases committed with
      | false => exact hs
      | true =>
          -- the token that the commit left is the user's
          rw [if_pos rfl] at hnew ⊢
          have htoken : owns token userId := by
            apply hnew userId token
            unfold Api.hasToken
            rw [links_registerDeferred]
            exact hasToken_submitCredentials hlinks
          unfold Api.registerDeferred
          dsimp only
          split
          · exact hs
          · exact register_owned hs htoken
  | links l =>
      cases l with
      | createLink | submitCredentials => cases h
      | createLinkSession | createPublicLinkSession | exchangeLinkBootstrap | connect |
        deleteLink | deleteToken | wait =>
          simp only [apiStep] at h
          rcases Option.map_eq_some_iff.mp h with ⟨links, hlinks, rfl⟩
          exact hs
  | scheduleRefresh userId accessToken intervalSeconds scheduleFormat persists =>
      simp only [apiStep, scheduleRefresh] at h
      split at h
      · cases h
      · split at h
        · cases h
        · split at h
          · cases h
          · rename_i hhas
            split at h
            · cases h
            · -- the token was looked up among the user's own
              have ht := Option.some.inj h
              rw [← ht] at hnew ⊢
              apply register_owned hs
              apply hnew
              have hhas : s.hasToken userId accessToken = true := by simpa using hhas
              unfold Api.hasToken at hhas ⊢
              rw [links_getD_register]
              exact hhas
  | updateSchedule userId accessToken intervalSeconds scheduleFormat enabled persists =>
      -- an update changes no token
      have ht := Option.some.inj h
      rw [← ht]
      unfold updateSchedule
      split
      · exact hs
      · split
        · exact hs
        · split
          · exact hs
          · rename_i scheduler found hop
            exact update_owned hs hop
  -- the background has no `schedule` of its own
  | unscheduleRefresh userId accessToken deletes =>
      simp only [apiStep] at h
      split at h
      · rcases Option.map_eq_some_iff.mp h with ⟨live, hlive, rfl⟩
        apply live_owned hs _ hlive
        intro token user interval format persists' heq
        cases heq
      · cases h
  | background l =>
      simp only [apiStep] at h
      split at h
      · rename_i hl
        rcases Option.map_eq_some_iff.mp h with ⟨live, hlive, rfl⟩
        apply live_owned hs _ hlive
        rintro token user interval format persists' rfl
        cases hl
      · cases h

end Api

/-! ## The invariant -/

/-- The access token was minted for this user. -/
def System.owns (s : System) (token : String) (userId : Nat) : Prop :=
  ∃ m ∈ s.minted, m.token = token ∧ m.userId = userId

/-- Every row of the system is of the user it was made for. -/
structure Inv (s : System) : Prop where
  tokens : TokensOwned s.api.links s.minted
  jobs : JobsOwned s.owns s.api.live.scheduler
  publicTokens : ∀ p ∈ s.publicTokens.rows, ⟨p.accessToken, p.linkToken, p.userId⟩ ∈ s.minted
  requestedOnce : (s.requested.map Prod.fst).Nodup
  requests : ∀ cr ∈ s.consentRequests.rows,
    s.owns cr.accessToken cr.userId ∧ (cr.id, cr.userId) ∈ s.requested
  grants : ∀ g ∈ s.consentGrants.rows,
    s.owns g.accessToken g.userId ∧ (g.consentRequestId, g.userId) ∈ s.requested
  keyedOnce : (s.keyed.map Prod.fst).Nodup
  keys : ∀ k ∈ s.apiKeys.rows, (k.id, k.userId) ∈ s.keyed
  agents : ∀ a ∈ s.agents.rows, ∀ id ∈ a.apiKeyId, (id, a.ownerId) ∈ s.keyed

/-- At the start there are no rows. -/
theorem start_inv (backend : Backend) : Inv (start backend) := by
  constructor
  · constructor
    · exact Links.init_inv backend
    · exact Links.start_owned backend
    all_goals simp [start, Refresh.Api.start, Links.start]
  · constructor
    all_goals simp [start, Refresh.Api.start, Refresh.LiveScheduler.empty, Refresh.Scheduler.empty,
      Refresh.Registry.empty]
  all_goals simp [start]

/-- Of two entries of a history of names one name has one user. -/
theorem user_of_name {names : List (String × Nat)} (h : (names.map Prod.fst).Nodup)
    {name : String} {userId userId' : Nat} (hmem : (name, userId) ∈ names)
    (hmem' : (name, userId') ∈ names) : userId = userId' :=
  (Prod.mk.inj (List.inj_on_of_nodup_map h hmem hmem' rfl)).2

/-- Rows were deleted, or tables written that refer to users only. -/
structure Shrinks (s t : System) : Prop where
  minted : t.minted = s.minted
  requested : t.requested = s.requested
  keyed : t.keyed = s.keyed
  scopeStore : t.api.links.scopeStore = s.api.links.scopeStore
  granted : t.api.links.granted = s.api.links.granted
  sessions : t.api.links.sessions = s.api.links.sessions
  links : ∀ row ∈ t.links.rows, row ∈ s.links.rows
  accessTokens : ∀ row ∈ t.accessTokens.rows, row ∈ s.accessTokens.rows
  objects : t.api.live.scheduler.registry.objects = s.api.live.scheduler.registry.objects
  scheduled : ∀ row ∈ t.scheduledRefreshJobs.rows, row ∈ s.scheduledRefreshJobs.rows
  publicTokens : ∀ row ∈ t.publicTokens.rows, row ∈ s.publicTokens.rows
  consentRequests : ∀ row ∈ t.consentRequests.rows, row ∈ s.consentRequests.rows
  consentGrants : ∀ row ∈ t.consentGrants.rows, row ∈ s.consentGrants.rows
  apiKeys : ∀ row ∈ t.apiKeys.rows, row ∈ s.apiKeys.rows
  agents : ∀ row ∈ t.agents.rows, row ∈ s.agents.rows

/-- Where rows are only deleted, those that are left are as before. -/
theorem Shrinks.inv {s t : System} (h : Shrinks s t) (hs : Inv s) : Inv t := by
  have howns : ∀ token userId, s.owns token userId → t.owns token userId := by
    intro token userId hown
    unfold System.owns
    rw [h.minted]
    exact hown
  constructor
  · rw [h.minted]
    exact hs.tokens.shrink h.scopeStore h.granted h.sessions h.links h.accessTokens
  · constructor
    · rw [h.objects]
      exact fun job hjob => howns _ _ (hs.jobs.objects job hjob)
    · exact fun row hrow => howns _ _ (hs.jobs.rows row (h.scheduled row hrow))
  · rw [h.minted]
    exact fun row hrow => hs.publicTokens row (h.publicTokens row hrow)
  · rw [h.requested]
    exact hs.requestedOnce
  · rw [h.requested]
    intro row hrow
    exact (hs.requests row (h.consentRequests row hrow)).imp_left (howns _ _)
  · rw [h.requested]
    intro row hrow
    exact (hs.grants row (h.consentGrants row hrow)).imp_left (howns _ _)
  · rw [h.keyed]
    exact hs.keyedOnce
  · rw [h.keyed]
    exact fun row hrow => hs.keys row (h.apiKeys row hrow)
  · rw [h.keyed]
    exact fun row hrow => hs.agents row (h.agents row hrow)

/-- One statement of `delete_user_data`. -/
theorem deleteTarget_shrinks (s : System) (userId : Nat) (target : Target) :
    Shrinks s (deleteTarget s userId target) := by
  cases target
  all_goals
    constructor
    all_goals first
      | rfl
      | exact fun row hrow => hrow
      | exact fun row hrow => (List.mem_filter.mp hrow).1

/-- The rows that the database deletes with their user. -/
theorem cascade_shrinks (s : System) : Shrinks s (cascade s) := by
  constructor
  all_goals first
    | rfl
    | exact fun row hrow => hrow
    | exact fun row hrow => (List.mem_filter.mp hrow).1

/-- After statements of `delete_user_data`. -/
theorem deleteTargets_inv {s : System} (userId : Nat) (targets : List Target) (hs : Inv s) :
    Inv (targets.foldl (fun s target => deleteTarget s userId target) s) := by
  induction targets generalizing s with
  | nil => exact hs
  | cons target targets ih => exact ih ((deleteTarget_shrinks s userId target).inv hs)

/-- The account goes last, after what its statements delete. -/
theorem deleteAccount_inv {s : System} (userId : Nat) (hs : Inv s) :
    Inv (deleteAccount s userId) :=
  (deleteTarget_shrinks _ userId .users).inv (deleteTargets_inv userId userDataTargets hs)

/-! ## Every step -/

section Steps

variable {py : PyText} {webhook : Bool}

/-- A new row under a name that is on record with its user. -/
theorem mem_insert {α κ : Type} {key : α → κ} [DecidableEq κ] {table table' : Table α key}
    {new : α} {P : α → Prop} (h : table.insert? new = some table')
    (htable : ∀ row ∈ table.rows, P row) (hnew : P new) : ∀ row ∈ table'.rows, P row := by
  intro row hrow
  rw [(Table.insert?_eq_some h).2] at hrow
  rcases List.mem_append.mp hrow with hold | hlast
  · exact htable row hold
  · rw [List.mem_singleton.mp hlast]
    exact hnew

/-- A row that is put back, in a table of which something holds. -/
theorem mem_put {α κ : Type} {key : α → κ} [DecidableEq κ] {table : Table α key}
    {new : α} {P : α → Prop} (htable : ∀ row ∈ table.rows, P row) (hnew : P new) :
    ∀ row ∈ (table.put new).rows, P row := by
  intro row hrow
  rcases Table.mem_put hrow with rfl | ⟨hold, -⟩
  · exact hnew
  · exact htable row hold

/-- A history of names, each with its user, after one more. -/
theorem nodup_append_name {names : List (String × Nat)} {name : String} {userId : Nat}
    (h : (names.map Prod.fst).Nodup) (hnew : name ∉ names.map Prod.fst) :
    ((names ++ [(name, userId)]).map Prod.fst).Nodup := by
  rw [List.map_append]
  refine List.nodup_append.mpr ⟨h, List.nodup_singleton _, ?_⟩
  intro a ha b hb heq
  rw [List.mem_singleton.mp hb] at heq
  rw [heq] at ha
  exact hnew ha

/-- An access token that a user has was minted for the user. -/
theorem owns_of_hasToken {s : System} {userId : Nat} {token : String} (hs : Inv s)
    (h : s.api.hasToken userId token = true) : s.owns token userId := by
  unfold Refresh.Api.hasToken at h
  rcases List.any_eq_true.mp h with ⟨row, hrow, hkey⟩
  simp only [Bool.and_eq_true, beq_iff_eq] at hkey
  exact ⟨_, hs.tokens.rows row hrow, hkey⟩

/-- A request for links mints for its user, and a schedule is made by who has the token. -/
theorem apiRequest_inv {s t : System} {l : Refresh.ApiLabel} (hs : Inv s)
    (h : apiRequest py webhook s l = some t) : Inv t := by
  unfold apiRequest at h
  split at h
  · cases h
  · rename_i hfresh
    rcases Option.map_eq_some_iff.mp h with ⟨api, hapi, rfl⟩
    -- the names of the tokens that a request mints are new
    have htokens : TokensOwned api.links (remint s.minted api.links) := by
      rcases api_links hapi with hsame | ⟨l', hlinks, hmints⟩
      · rw [hsame, remint_of_rows hs.tokens.rows]
        exact hs.tokens
      · apply tokensOwned_step hs.tokens _ hlinks
        intro token htoken hmem
        exact hfresh ⟨token, hmints ▸ htoken, hmem⟩
    have hkeep : ∀ m ∈ s.minted, m ∈ remint s.minted api.links := fun m hm =>
      mem_remint.mpr (.inl hm)
    have howns : ∀ token userId, s.owns token userId → (noteMinted s api).owns token userId := by
      rintro token userId ⟨m, hm, hkey⟩
      exact ⟨m, hkeep m hm, hkey⟩
    constructor
    · exact htokens
    · apply api_jobs (hs.jobs.mono howns) _ hapi
      intro userId token htoken
      unfold Refresh.Api.hasToken at htoken
      rcases List.any_eq_true.mp htoken with ⟨row, hrow, hkey⟩
      simp only [Bool.and_eq_true, beq_iff_eq] at hkey
      exact ⟨_, htokens.rows row hrow, hkey⟩
    · exact fun row hrow => hkeep _ (hs.publicTokens row hrow)
    · exact hs.requestedOnce
    · exact fun row hrow => (hs.requests row hrow).imp_left (howns _ _)
    · exact fun row hrow => (hs.grants row hrow).imp_left (howns _ _)
    · exact hs.keyedOnce
    · exact hs.keys
    · exact hs.agents

/-- A consent request is found by its id and its user. -/
theorem findRequest_some {s : System} {userId : Nat} {requestId : String} {cr : ConsentRequest}
    (h : findRequest s userId requestId = some cr) :
    cr ∈ s.consentRequests.rows ∧ cr.id = requestId ∧ cr.userId = userId := by
  have hkey := List.find?_some h
  simp only [Bool.and_eq_true, beq_iff_eq] at hkey
  exact ⟨List.mem_of_find?_eq_some h, hkey⟩

/-- The invariant says nothing of the tables that refer to users only. -/
theorem Inv.others {s : System} (hs : Inv s) (users : Table Principals.User Principals.User.id)
    (refreshTokens : Table RefreshToken RefreshToken.id)
    (passwordResetTokens : Table PasswordResetToken PasswordResetToken.id)
    (webhooks : Table Webhook Webhook.id) (blueprints : Table BlueprintRecord BlueprintRecord.id)
    (accessJobs : Table AccessJobs.AccessJob AccessJobs.AccessJob.id)
    (mfa : String → Option Mfa.MfaSession) :
    Inv { s with
      users, refreshTokens, passwordResetTokens, webhooks, blueprints, accessJobs, mfa } :=
  ⟨hs.tokens, hs.jobs, hs.publicTokens, hs.requestedOnce, hs.requests, hs.grants, hs.keyedOnce,
    hs.keys, hs.agents⟩

/-- Of the consent tables it says what their rows say of the tokens and the requests. -/
theorem Inv.consents {s : System} (hs : Inv s) {requested : List (String × Nat)}
    {consentRequests : Table ConsentRequest ConsentRequest.id}
    {consentGrants : Table ConsentGrant ConsentGrant.token}
    (hrequested : (requested.map Prod.fst).Nodup)
    (hrequests : ∀ cr ∈ consentRequests.rows,
      s.owns cr.accessToken cr.userId ∧ (cr.id, cr.userId) ∈ requested)
    (hgrants : ∀ g ∈ consentGrants.rows,
      s.owns g.accessToken g.userId ∧ (g.consentRequestId, g.userId) ∈ requested) :
    Inv { s with requested, consentRequests, consentGrants } :=
  ⟨hs.tokens, hs.jobs, hs.publicTokens, hrequested, hrequests, hgrants, hs.keyedOnce, hs.keys,
    hs.agents⟩

/-- And of the API keys and agents what their rows say of the keys that were created. -/
theorem Inv.registered {s : System} (hs : Inv s) {keyed : List (String × Nat)}
    {apiKeys : Table ApiKey ApiKey.id} {agents : Table Agent Agent.id}
    (hkeyed : (keyed.map Prod.fst).Nodup) (hkeys : ∀ k ∈ apiKeys.rows, (k.id, k.userId) ∈ keyed)
    (hagents : ∀ a ∈ agents.rows, ∀ id ∈ a.apiKeyId, (id, a.ownerId) ∈ keyed) :
    Inv { s with keyed, apiKeys, agents } :=
  ⟨hs.tokens, hs.jobs, hs.publicTokens, hs.requestedOnce, hs.requests, hs.grants, hkeyed, hkeys,
    hagents⟩

/-- A public token is made for a session of its user, and for a token minted there. -/
theorem ensurePublicToken_inv {s t : System} {p : PublicToken} (hs : Inv s)
    (h : step py webhook s (.ensurePublicToken p) = some t) : Inv t := by
  simp only [step] at h
  split at h
  · rename_i hchecked
    rcases Option.map_eq_some_iff.mp h with ⟨publicTokens, hinsert, rfl⟩
    have hpublic := mem_insert hinsert hs.publicTokens hchecked.2
    exact ⟨hs.tokens, hs.jobs, hpublic, hs.requestedOnce, hs.requests, hs.grants, hs.keyedOnce,
      hs.keys, hs.agents⟩
  · cases h

/-- A consent is requested for an access token of the user. -/
theorem consentRequest_inv {s t : System} {cr : ConsentRequest} (hs : Inv s)
    (h : step py webhook s (.consentRequest cr) = some t) : Inv t := by
  simp only [step] at h
  split at h
  · rename_i hchecked
    rcases Option.map_eq_some_iff.mp h with ⟨consentRequests, hinsert, rfl⟩
    have hkeep : ∀ name ∈ s.requested, name ∈ s.requested ++ [(cr.id, cr.userId)] := by
      intro name hname
      exact List.mem_append_left _ hname
    refine hs.consents (nodup_append_name hs.requestedOnce hchecked.1) ?_ ?_
    · refine mem_insert hinsert ?_ ?_
      · intro row hrow
        exact (hs.requests row hrow).imp_right (hkeep _)
      · have howns := owns_of_hasToken hs hchecked.2
        exact ⟨howns, List.mem_append_right _ (List.mem_singleton_self _)⟩
    · intro g hg
      exact (hs.grants g hg).imp_right (hkeep _)
  · cases h

/-- The grant has the user and the token of its request. -/
theorem consentApprove_inv {s t : System} {userId : Nat} {requestId consentToken : String}
    {now : Nat} (hs : Inv s)
    (h : step py webhook s (.consentApprove userId requestId consentToken now) = some t) :
    Inv t := by
  rcases Option.bind_eq_some_iff.mp h with ⟨cr, hfind, happrove⟩
  rcases findRequest_some hfind with ⟨hcr, rfl, rfl⟩
  split at happrove
  · rcases Option.map_eq_some_iff.mp happrove with ⟨consentGrants, hinsert, rfl⟩
    have hown := hs.requests cr hcr
    exact hs.consents hs.requestedOnce (mem_put hs.requests hown) (mem_insert hinsert hs.grants hown)
  · cases happrove

/-- A denial changes the status of the request. -/
theorem consentDeny_inv {s t : System} {userId : Nat} {requestId : String} (hs : Inv s)
    (h : step py webhook s (.consentDeny userId requestId) = some t) : Inv t := by
  rcases Option.bind_eq_some_iff.mp h with ⟨cr, hfind, hdeny⟩
  rcases findRequest_some hfind with ⟨hcr, rfl, rfl⟩
  split at hdeny
  · rw [← Option.some.inj hdeny]
    have hown := hs.requests cr hcr
    exact hs.consents hs.requestedOnce (mem_put hs.requests hown) hs.grants
  · cases hdeny

/-- A grant that is revoked keeps its user and its token. -/
theorem revokeConsent_inv {s t : System} {userId : Nat} {consentToken : String} (hs : Inv s)
    (h : step py webhook s (.revokeConsent userId consentToken) = some t) : Inv t := by
  rcases Option.map_eq_some_iff.mp h with ⟨g, hfind, rfl⟩
  have hown := hs.grants g (List.mem_of_find?_eq_some hfind)
  exact hs.consents hs.requestedOnce hs.requests (mem_put hs.grants hown)

/-- A new key is its user's. -/
theorem createApiKey_inv {s t : System} {key : ApiKey} (hs : Inv s)
    (h : step py webhook s (.createApiKey key) = some t) : Inv t := by
  simp only [step] at h
  split at h
  · rename_i hnew
    rcases Option.map_eq_some_iff.mp h with ⟨apiKeys, hinsert, rfl⟩
    have hkeep : ∀ name ∈ s.keyed, name ∈ s.keyed ++ [(key.id, key.userId)] := by
      intro name hname
      exact List.mem_append_left _ hname
    refine hs.registered (nodup_append_name hs.keyedOnce hnew) ?_ ?_
    · refine mem_insert hinsert ?_ ?_
      · intro k hk
        exact hkeep _ (hs.keys k hk)
      · exact List.mem_append_right _ (List.mem_singleton_self _)
    · intro a ha id hid
      exact hkeep _ (hs.agents a ha id hid)
  · cases h

/-- An agent is registered with a key of its owner. -/
theorem registerAgent_inv {s t : System} {agent : Agent} {apiKeyId : String} (hs : Inv s)
    (h : step py webhook s (.registerAgent agent apiKeyId) = some t) : Inv t := by
  simp only [step] at h
  split at h
  · rename_i hnew
    rcases Option.bind_eq_some_iff.mp h with ⟨apiKeys, hkeyInsert, h⟩
    rcases Option.map_eq_some_iff.mp h with ⟨agents, hinsert, rfl⟩
    have hkeep : ∀ name ∈ s.keyed, name ∈ s.keyed ++ [(apiKeyId, agent.ownerId)] := by
      intro name hname
      exact List.mem_append_left _ hname
    have hlast : (apiKeyId, agent.ownerId) ∈ s.keyed ++ [(apiKeyId, agent.ownerId)] :=
      List.mem_append_right _ (List.mem_singleton_self _)
    refine hs.registered (nodup_append_name hs.keyedOnce hnew) ?_ ?_
    · refine mem_insert hkeyInsert ?_ ?_
      · intro k hk
        exact hkeep _ (hs.keys k hk)
      · exact hlast
    · refine mem_insert hinsert ?_ ?_
      · intro a ha id hid
        exact hkeep _ (hs.agents a ha id hid)
      · intro id hid
        rw [← Option.some.inj hid]
        exact hlast
  · cases h

/-- An update leaves an agent its owner and its key. -/
theorem updateAgent_inv {s t : System} {agentId : String} {f : Agent → Agent} (hs : Inv s)
    (h : step py webhook s (.updateAgent agentId f) = some t) : Inv t := by
  rcases Option.map_eq_some_iff.mp h with ⟨agent, hget, rfl⟩
  have hagent := hs.agents agent (Table.get?_mem hget).1
  exact hs.registered hs.keyedOnce hs.keys (mem_put hs.agents hagent)

/-- A restart makes the jobs of the rows. -/
theorem restart_inv {s t : System} (hs : Inv s) (h : step py webhook s .restart = some t) :
    Inv t := by
  simp only [step] at h
  rcases Option.map_eq_some_iff.mp h with ⟨live, hlive, rfl⟩
  have hjobs : JobsOwned s.owns live.scheduler := by
    apply live_owned hs.jobs _ hlive
    intro token userId interval format persists heq
    cases heq
  exact ⟨hs.tokens, hjobs, hs.publicTokens, hs.requestedOnce, hs.requests, hs.grants,
    hs.keyedOnce, hs.keys, hs.agents⟩

/-- **Every row stays its user's**, whatever the step. -/
theorem step_inv {s t : System} {l : Label} (hs : Inv s) (h : step py webhook s l = some t) :
    Inv t := by
  cases l with
  | register userId =>
      rcases Option.map_eq_some_iff.mp h with ⟨users, -, rfl⟩
      exact hs.others _ _ _ _ _ _ _
  | deleteAccount userId =>
      rw [← Option.some.inj h]
      exact deleteAccount_inv userId hs
  | api l => exact apiRequest_inv hs h
  | refreshTokens w | passwordResetTokens w | blueprints w | accessJobs w =>
      rcases Option.map_eq_some_iff.mp h with ⟨table, -, rfl⟩
      exact hs.others _ _ _ _ _ _ _
  | registerWebhook wh =>
      simp only [step] at h
      split at h
      · rcases Option.map_eq_some_iff.mp h with ⟨webhooks, -, rfl⟩
        exact hs.others _ _ _ _ _ _ _
      · cases h
  | deleteWebhook userId webhookId =>
      rw [← Option.some.inj h]
      exact hs.others _ _ _ _ _ _ _
  | ensurePublicToken p => exact ensurePublicToken_inv hs h
  | consentRequest cr => exact consentRequest_inv hs h
  | consentApprove userId requestId consentToken now => exact consentApprove_inv hs h
  | consentDeny userId requestId => exact consentDeny_inv hs h
  | revokeConsent userId consentToken => exact revokeConsent_inv hs h
  | createApiKey key => exact createApiKey_inv hs h
  | registerAgent agent apiKeyId => exact registerAgent_inv hs h
  | updateAgent agentId f => exact updateAgent_inv hs h
  | cascade =>
      rw [← Option.some.inj h]
      exact (cascade_shrinks s).inv hs
  | restart => exact restart_inv hs h
  | mfa sessions =>
      rw [← Option.some.inj h]
      exact hs.others _ _ _ _ _ _ _

/-- Every row of a run is of the user it was made for. -/
theorem run_inv {backend : Backend} {tr : List Label} {s : System}
    (h : Runs.exec (step py webhook) (start backend) tr = some s) : Inv s :=
  Runs.invariant (fun _ _ _ hs hl => step_inv hs hl) (start_inv backend) h

end Steps

end Plaidify.Tenancy
