import Plaidify.Links.Minting
import Plaidify.Refresh.Unscheduling

/-!
# The quota of refresh schedules

`schedule_refresh` and its siblings in `src/src/routers/refresh.py`, and the
other way to a job: the `refresh_schedule` of `create_link`, which waits in the
session store until `submit_credentials` has minted the access token
(`src/src/routers/links.py`). Only the first asks how many jobs the user has.
-/

namespace Plaidify.Refresh

open Principals (HttpError PyText AuthContext)

/-- `MAX_SCHEDULES_PER_USER`. -/
def maxSchedulesPerUser : Nat := 50

structure Api where
  links : Links.State
  linkRefreshSchedules : Links.ScopeStore
  live : LiveScheduler

/-- The member `refresh_schedule` of the body of `create_link`, with the values
that it has under `schedule_format` and `interval_seconds`. -/
inductive RefreshSchedule where
  | object (scheduleFormat : Option String) (intervalSeconds : Option Int)
  /-- Another JSON value, or an object with members that make the request fail. -/
  | invalid
deriving Repr, DecidableEq

inductive ApiLabel where
  | createLink (auth : AuthContext) (linkToken site : String) (requested : Option (List String))
      (refreshSchedule : Option RefreshSchedule)
  | submitCredentials (userId : Nat) (linkToken token : String) (committed persists : Bool)
  /-- The other endpoints for links and tokens. -/
  | links (l : Links.Label)
  | scheduleRefresh (userId : Nat) (accessToken : String) (intervalSeconds : Option Int)
      (scheduleFormat : Option String) (persists : Bool)
  | updateSchedule (userId : Nat) (accessToken : String) (intervalSeconds : Option Int)
      (scheduleFormat : Option String) (enabled : Option Bool) (persists : Bool)
  | unscheduleRefresh (userId : Nat) (accessToken : String) (deletes : Bool)
  /-- The scheduler's own loop and its runs. -/
  | background (l : LiveLabel)

section

variable (py : PyText) (webhook : Bool)

/-- The check that `schedule_refresh` and `create_link` make of a schedule. -/
def checkSchedule (scheduleFormat : Option String) (intervalSeconds : Option Int) :
    Except HttpError (ScheduleFormat × Int) :=
  match resolveSchedule py.lower scheduleFormat intervalSeconds with
  | .error text => .error ⟨400, text⟩
  | .ok (fmt, resolvedInterval) =>
      if resolvedInterval < minIntervalSeconds then
        .error ⟨400, "Minimum interval is 300 seconds (5 minutes)."⟩
      else .ok (fmt, resolvedInterval)

/-- The token is this user's. -/
def Api.hasToken (s : Api) (userId : Nat) (accessToken : String) : Bool :=
  s.links.accessTokens.rows.any fun t => t.token == accessToken && t.userId == userId

/-- `scheduler.schedule` as a step of the scheduler. -/
def Api.register (s : Api) (accessToken : String) (userId : Nat) (intervalSeconds : Option Int)
    (scheduleFormat : Option String) (persists : Bool) : Option Api :=
  (liveStep py.lower webhook s.live (.schedule accessToken userId intervalSeconds scheduleFormat
    persists)).map ({ s with live := · })

/-- The quota lets this user have a job for the token. -/
def Api.admits (s : Api) (userId : Nat) (accessToken : String) : Bool :=
  (s.live.scheduler.registry.job? accessToken).isSome ||
    decide ((s.live.scheduler.jobsForUser userId).length < maxSchedulesPerUser)

/-- `schedule_refresh`. -/
def scheduleRefresh (s : Api) (userId : Nat) (accessToken : String)
    (intervalSeconds : Option Int) (scheduleFormat : Option String) (persists : Bool) :
    Except HttpError Api :=
  if accessToken = "" then .error ⟨400, "access_token is required."⟩
  else
    match checkSchedule py scheduleFormat intervalSeconds with
    | .error e => .error e
    | .ok (fmt, resolvedInterval) =>
        if !s.hasToken userId accessToken then .error ⟨404, "Access token not found."⟩
        else if !s.admits userId accessToken then
          .error ⟨429, "Refresh schedule quota exceeded (max 50 active schedules per user)."⟩
        else .ok ((s.register py webhook accessToken userId (some resolvedInterval)
          (some fmt.name) persists).getD s)

/-- `update_schedule`. An interval below the minimum is refused after it has been
assigned. -/
def updateSchedule (s : Api) (userId : Nat) (accessToken : String)
    (intervalSeconds : Option Int) (scheduleFormat : Option String) (enabled : Option Bool)
    (persists : Bool) : Api × Except HttpError Unit :=
  if !s.hasToken userId accessToken then (s, .error ⟨404, "Access token not found."⟩)
  else if (s.live.scheduler.registry.job? accessToken).isNone then
    (s, .error ⟨404, "No refresh schedule found for this token."⟩)
  else
    match s.live.scheduler.update py.lower accessToken intervalSeconds scheduleFormat enabled
        persists with
    | .error text => (s, .error ⟨400, text⟩)
    | .ok (scheduler, _) =>
        ({ s with live := { s.live with scheduler } },
          if (scheduler.registry.job? accessToken).any fun job =>
              decide (job.intervalSeconds < minIntervalSeconds) then
            .error ⟨400, "Minimum interval is 300 seconds (5 minutes)."⟩
          else .ok ())

/-- The directive that `create_link` stores. -/
def directiveJson (fmt : ScheduleFormat) (intervalSeconds : Int) : String :=
  Json.dumps (.obj [("schedule_format", .str fmt.name), ("interval_seconds", .int intervalSeconds)])

/-- The end of `create_link`. Where it refuses the schedule the link stays. -/
def Api.defer (s : Api) (linkToken : String) : Option RefreshSchedule → Api
  | some (.object scheduleFormat intervalSeconds) =>
      match checkSchedule py scheduleFormat intervalSeconds with
      | .error _ => s
      | .ok (fmt, resolvedInterval) => { s with
          linkRefreshSchedules := s.linkRefreshSchedules.set s.links.now linkToken
            (directiveJson fmt resolvedInterval) }
  | _ => s

/-- `directive.get("interval_seconds")` and `directive.get("schedule_format")`. -/
def readDirective (text : String) : Option (Option Int × Option String) :=
  match Json.loads py.floatRepr text with
  | some (.obj members) =>
      some (match members.lookup "interval_seconds" with
        | some (.int seconds) => some seconds
        | _ => none,
        match members.lookup "schedule_format" with
        | some (.str name) => some name
        | _ => none)
  | _ => none

/-- The end of `submit_credentials`: a deferred schedule is registered for the new
access token. What this raises is logged. -/
def Api.registerDeferred (s : Api) (userId : Nat) (linkToken token : String) (persists : Bool) :
    Api :=
  let (deferred, linkRefreshSchedules) := s.linkRefreshSchedules.pop s.links.now linkToken
  let s := { s with linkRefreshSchedules }
  match (deferred.filter (· ≠ "")).bind (readDirective py) with
  | none => s
  | some (intervalSeconds, scheduleFormat) =>
      (s.register py webhook token userId intervalSeconds scheduleFormat persists).getD s

/-- The labels of the scheduler's own steps. -/
def LiveLabel.isBackground : LiveLabel → Bool
  | .tick _ | .fetched .. | .notified .. | .dropped _ => true
  | .schedule .. | .update .. | .unschedule .. | .restart => false

/-- One request, or one step of the scheduler. -/
def apiStep (s : Api) : ApiLabel → Option Api
  | .createLink auth linkToken site requested refreshSchedule =>
      (Links.step py s.links (.createLink auth linkToken site requested)).map fun links =>
        { s with links }.defer py linkToken refreshSchedule
  | .submitCredentials userId linkToken token committed persists =>
      (Links.step py s.links (.submitCredentials userId linkToken token committed)).map
        fun links =>
          if committed then
            { s with links }.registerDeferred py webhook userId linkToken token persists
          else { s with links }
  | .links (.createLink ..) | .links (.submitCredentials ..) => none
  | .links l => (Links.step py s.links l).map ({ s with links := · })
  | .scheduleRefresh userId accessToken intervalSeconds scheduleFormat persists =>
      (scheduleRefresh py webhook s userId accessToken intervalSeconds scheduleFormat
        persists).toOption
  | .updateSchedule userId accessToken intervalSeconds scheduleFormat enabled persists =>
      some (updateSchedule py s userId accessToken intervalSeconds scheduleFormat enabled
        persists).1
  | .unscheduleRefresh userId accessToken deletes =>
      if s.hasToken userId accessToken then
        (liveStep py.lower webhook s.live (.unschedule accessToken deletes)).map
          ({ s with live := · })
      else none
  | .background l =>
      if l.isBackground then (liveStep py.lower webhook s.live l).map ({ s with live := · })
      else none

/-- The schedule that a deferred registration finds for the new token. -/
def Api.deferred (s : Api) (linkToken : String) : Option (Option Int × Option String) :=
  (((s.linkRefreshSchedules.pop s.links.now linkToken).1).filter (· ≠ "")).bind
    (readDirective py)

/-- A deferred registration that adds a job finds its user below the quota. -/
def DeferredBelowQuota (s : Api) : ApiLabel → Prop
  | .submitCredentials userId linkToken token committed _ =>
      committed = true → ∀ d ∈ s.deferred py linkToken,
        (resolveSchedule py.lower d.2 (some ((d.1.filter (· ≠ 0)).getD defaultInterval))).isOk =
            true →
          s.admits userId token = true
  | _ => True

instance (s : Api) : (l : ApiLabel) → Decidable (DeferredBelowQuota py s l)
  | .submitCredentials userId linkToken token committed _ =>
      inferInstanceAs (Decidable (committed = true → ∀ d ∈ s.deferred py linkToken,
        (resolveSchedule py.lower d.2 (some ((d.1.filter (· ≠ 0)).getD defaultInterval))).isOk =
            true →
          s.admits userId token = true))
  | .createLink .. | .links _ | .scheduleRefresh .. | .updateSchedule .. |
    .unscheduleRefresh .. | .background _ => .isTrue trivial

end

def Api.start (backend : Links.Backend) : Api where
  links := Links.start backend
  linkRefreshSchedules := ⟨backend, .empty⟩
  live := .empty

/-- No user has more jobs than the quota. -/
def WithinQuota (s : Api) : Prop :=
  ∀ userId, (s.live.scheduler.jobsForUser userId).length ≤ maxSchedulesPerUser

variable {py : PyText} {webhook : Bool}

/-! ## Steps that add no job -/

/-- No user has more jobs afterwards. -/
def NoMore (s t : LiveScheduler) : Prop :=
  ∀ userId, (t.scheduler.jobsForUser userId).length ≤ (s.scheduler.jobsForUser userId).length

theorem noMore_refl (s : LiveScheduler) : NoMore s s := fun _ => Nat.le_refl _

theorem noMore_unschedule {lower : String → String} {s t : LiveScheduler} {k : String}
    {deletes : Bool} (h : liveStep lower webhook s (.unschedule k deletes) = some t) :
    NoMore s t := by
  have hcount : ∀ {scheduler : Scheduler} {removed : Bool},
      s.scheduler.unschedule k deletes = (scheduler, removed) →
        ∀ userId, (scheduler.jobsForUser userId).length ≤
          (s.scheduler.jobsForUser userId).length := by
    intro scheduler removed hop userId
    rcases Scheduler.unschedule_eq hop with ⟨-, hsame, -⟩ | ⟨-, hregistry, -⟩
    · rw [hsame]
    · cases scheduler
      dsimp only at hregistry
      subst hregistry
      exact Scheduler.count_remove _ k _ userId
  simp only [liveStep] at h
  split at h
  · rename_i scheduler hop
    rw [← Option.some.inj h]
    exact hcount hop
  · rename_i scheduler hop
    rw [← Option.some.inj h]
    exact hcount hop

/-- The loop and its runs add no job. -/
theorem noMore_background {lower : String → String} {s t : LiveScheduler} {l : LiveLabel}
    (hl : l.isBackground = true) (h : liveStep lower webhook s l = some t) : NoMore s t := by
  cases l with
  | schedule | update | unschedule | restart => cases hl
  | tick now =>
      simp only [liveStep] at h
      split at h
      · rw [← Option.some.inj h]
        exact noMore_refl s
      · rw [← Option.some.inj h]
        exact noMore_refl s
  | fetched flight outcome now persists =>
      simp only [liveStep, LiveScheduler.fetched] at h
      split at h
      · rcases Option.map_eq_some_iff.mp h with ⟨job, -, rfl⟩
        intro userId
        split
        · exact Nat.le_of_eq (Scheduler.count_modify _ _ _ _ userId)
        · exact Nat.le_of_eq (Scheduler.count_modify _ _ _ _ userId)
      · cases h
  | notified flight persists =>
      simp only [liveStep] at h
      split at h
      · rcases Option.map_eq_some_iff.mp h with ⟨job, -, rfl⟩
        exact noMore_refl s
      · cases h
  | dropped flight =>
      simp only [liveStep] at h
      split at h
      · rw [← Option.some.inj h]
        exact noMore_refl s
      · cases h

/-! ## Steps that schedule -/

/-- After a registration nobody has more than the quota exactly when the quota
lets the user have the job. -/
theorem withinQuota_schedule_iff {s : Api} {scheduler : Scheduler} {userId : Nat} {k : String}
    {intervalSeconds : Option Int} {scheduleFormat : Option String} {persists : Bool}
    (hs : WithinQuota s)
    (h : s.live.scheduler.schedule py.lower k userId intervalSeconds scheduleFormat persists =
      .ok scheduler) :
    (∀ u, (scheduler.jobsForUser u).length ≤ maxSchedulesPerUser) ↔
      s.admits userId k = true := by
  have hcount := Scheduler.schedule_count h
  have hbound := hs userId
  unfold Api.admits
  rw [Bool.or_eq_true, decide_eq_true_iff]
  cases hjob : s.live.scheduler.registry.job? k with
  | some job =>
      refine iff_of_true ?_ (.inl rfl)
      intro u
      rw [hcount, hjob]
      simpa using hs u
  | none =>
      constructor
      · intro hall
        have hnew := hall userId
        rw [hcount, hjob, if_pos ⟨rfl, rfl⟩] at hnew
        exact .inr (by omega)
      · rintro (hsome | hlt) u
        · cases hsome
        · rw [hcount, hjob]
          by_cases hu : userId = u
          · subst hu
            simp only [and_self, if_true]
            omega
          · simpa [hu] using hs u

/-- A schedule that can be resolved is registered. -/
theorem schedule_of_resolve (s : Scheduler) (k : String) (userId : Nat)
    {intervalSeconds : Option Int} {scheduleFormat : Option String} (persists : Bool)
    (h : (resolveSchedule py.lower scheduleFormat
      (some ((intervalSeconds.filter (· ≠ 0)).getD defaultInterval))).isOk = true) :
    ∃ t, s.schedule py.lower k userId intervalSeconds scheduleFormat persists = .ok t := by
  unfold Scheduler.schedule
  cases hresolve : resolveSchedule py.lower scheduleFormat
      (some ((intervalSeconds.filter (· ≠ 0)).getD defaultInterval)) with
  | error e =>
      rw [hresolve] at h
      cases h
  | ok r => exact ⟨_, by simp only [hresolve, bind, Except.bind]; rfl⟩

/-- One that cannot be resolved leaves the scheduler as it is. -/
theorem schedule_of_not_resolve (s : Scheduler) (k : String) (userId : Nat)
    {intervalSeconds : Option Int} {scheduleFormat : Option String} (persists : Bool)
    (h : ¬(resolveSchedule py.lower scheduleFormat
      (some ((intervalSeconds.filter (· ≠ 0)).getD defaultInterval))).isOk = true) :
    ∃ e, s.schedule py.lower k userId intervalSeconds scheduleFormat persists = .error e := by
  unfold Scheduler.schedule
  cases hresolve : resolveSchedule py.lower scheduleFormat
      (some ((intervalSeconds.filter (· ≠ 0)).getD defaultInterval)) with
  | error e => exact ⟨e, by simp only [hresolve, bind, Except.bind]⟩
  | ok r =>
      rw [hresolve] at h
      exact absurd rfl h

/-- What a registration leaves: the quota holds exactly if it lets the user have
the job, or no job comes of it. -/
theorem withinQuota_register_iff {s : Api} {userId : Nat} {k : String}
    {intervalSeconds : Option Int} {scheduleFormat : Option String} {persists : Bool}
    (hs : WithinQuota s) :
    WithinQuota ((s.register py webhook k userId intervalSeconds scheduleFormat
        persists).getD s) ↔
      ((resolveSchedule py.lower scheduleFormat
          (some ((intervalSeconds.filter (· ≠ 0)).getD defaultInterval))).isOk = true →
        s.admits userId k = true) := by
  by_cases hresolve : (resolveSchedule py.lower scheduleFormat
      (some ((intervalSeconds.filter (· ≠ 0)).getD defaultInterval))).isOk = true
  · rcases schedule_of_resolve s.live.scheduler k userId persists hresolve with ⟨t, ht⟩
    simp only [Api.register, liveStep, ht, Option.map_some, Option.getD_some, hresolve,
      forall_const]
    exact withinQuota_schedule_iff hs ht
  · rcases schedule_of_not_resolve s.live.scheduler k userId persists hresolve with ⟨e, he⟩
    simp only [Api.register, liveStep, he, Option.map_some, Option.getD_some, hresolve]
    exact iff_of_true hs (fun h => by cases h)

theorem WithinQuota.of_noMore {s t : Api} (hs : WithinQuota s) (h : NoMore s.live t.live) :
    WithinQuota t :=
  fun userId => (h userId).trans (hs userId)

theorem live_defer (s : Api) (linkToken : String) (refreshSchedule : Option RefreshSchedule) :
    (s.defer py linkToken refreshSchedule).live = s.live := by
  unfold Api.defer
  split
  · split
    · rfl
    · rfl
  · rfl

theorem withinQuota_registerDeferred_iff {s : Api} {userId : Nat} {linkToken token : String}
    {persists : Bool} (hs : WithinQuota s) :
    WithinQuota (s.registerDeferred py webhook userId linkToken token persists) ↔
      ∀ d ∈ s.deferred py linkToken,
        (resolveSchedule py.lower d.2 (some ((d.1.filter (· ≠ 0)).getD defaultInterval))).isOk =
            true →
          s.admits userId token = true := by
  unfold Api.registerDeferred Api.deferred
  dsimp only
  split
  · rename_i hnone
    rw [hnone]
    exact iff_of_true hs (fun d hd => by cases hd)
  · rename_i interval format hsome
    rw [hsome]
    have hpopped : WithinQuota { s with
        linkRefreshSchedules := (s.linkRefreshSchedules.pop s.links.now linkToken).2 } := hs
    rw [withinQuota_register_iff hpopped]
    constructor
    · intro h d hd
      obtain rfl := Option.some.inj hd
      exact h
    · intro h
      exact h (interval, format) rfl

theorem withinQuota_scheduleRefresh {s t : Api} {userId : Nat} {k : String}
    {intervalSeconds : Option Int} {scheduleFormat : Option String} {persists : Bool}
    (hs : WithinQuota s)
    (h : scheduleRefresh py webhook s userId k intervalSeconds scheduleFormat persists = .ok t) :
    WithinQuota t := by
  unfold scheduleRefresh at h
  split at h
  · cases h
  · split at h
    · cases h
    · split at h
      · cases h
      · split at h
        · cases h
        · rename_i hadmits
          rw [← Except.ok.inj h]
          exact (withinQuota_register_iff hs).mpr fun _ => by simpa using hadmits

theorem withinQuota_updateSchedule {s : Api} {userId : Nat} {k : String}
    {intervalSeconds : Option Int} {scheduleFormat : Option String} {enabled : Option Bool}
    {persists : Bool} (hs : WithinQuota s) :
    WithinQuota (updateSchedule py s userId k intervalSeconds scheduleFormat enabled
      persists).1 := by
  unfold updateSchedule
  split
  · exact hs
  · split
    · exact hs
    · split
      · exact hs
      · rename_i scheduler found hop
        refine hs.of_noMore fun u => ?_
        exact Nat.le_of_eq (Scheduler.update_count hop u)

theorem now_submitCredentials {s t : Links.State} {userId : Nat} {linkToken token : String}
    {committed : Bool}
    (h : Links.step py s (.submitCredentials userId linkToken token committed) = some t) :
    t.now = s.now := by
  rcases Links.respond_of_step h with ⟨hok, -⟩
  simp only [Links.respond, Links.submitCredentials] at hok
  split at hok
  · cases hok
  · unfold Links.mint at hok
    dsimp only at hok
    split at hok
    · split at hok
      · cases hok
      · rw [← Except.ok.inj hok]
    · rw [← Except.ok.inj hok]

/-- A step from a state within the quota stays within it unless a deferred
registration goes beyond. -/
theorem withinQuota_step_iff {s t : Api} {l : ApiLabel} (hs : WithinQuota s)
    (h : apiStep py webhook s l = some t) : WithinQuota t ↔ DeferredBelowQuota py s l := by
  cases l with
  | createLink auth linkToken site requested refreshSchedule =>
      rcases Option.map_eq_some_iff.mp h with ⟨links, -, rfl⟩
      -- a deferred schedule is no job yet
      refine iff_of_true (hs.of_noMore ?_) trivial
      rw [live_defer]
      exact noMore_refl s.live
  | submitCredentials userId linkToken token committed persists =>
      rcases Option.map_eq_some_iff.mp h with ⟨links, hlinks, rfl⟩
      cases committed with
      | false => exact iff_of_true hs (fun hcommitted => by cases hcommitted)
      | true =>
          -- minting an access token takes no time, so that the same schedule is found
          have hdeferred : ({ s with links } : Api).deferred py linkToken =
              s.deferred py linkToken := by
            unfold Api.deferred
            dsimp only
            rw [now_submitCredentials hlinks]
          rw [if_pos rfl, withinQuota_registerDeferred_iff (s := { s with links }) hs, hdeferred]
          simp only [DeferredBelowQuota, forall_const]
          exact Iff.rfl
  | links l =>
      -- the other requests for links do not come to the scheduler
      have hlive : t.live = s.live := by
        cases l with
        | createLink | submitCredentials => cases h
        | createLinkSession | createPublicLinkSession | exchangeLinkBootstrap | connect |
          deleteLink | deleteToken | wait =>
            simp only [apiStep] at h
            rcases Option.map_eq_some_iff.mp h with ⟨links, -, rfl⟩
            rfl
      refine iff_of_true (hs.of_noMore ?_) trivial
      rw [hlive]
      exact noMore_refl s.live
  | scheduleRefresh userId k interval format persists =>
      refine iff_of_true ?_ trivial
      simp only [apiStep] at h
      cases hop : scheduleRefresh py webhook s userId k interval format persists with
      | error e =>
          rw [hop] at h
          cases h
      | ok t' =>
          rw [hop] at h
          obtain rfl := Option.some.inj h
          -- the endpoint counts the user's jobs first
          exact withinQuota_scheduleRefresh hs hop
  | updateSchedule userId k interval format enabled persists =>
      refine iff_of_true ?_ trivial
      rw [← Option.some.inj h]
      -- an update replaces a job
      exact withinQuota_updateSchedule hs
  | unscheduleRefresh userId k deletes =>
      refine iff_of_true ?_ trivial
      simp only [apiStep] at h
      split at h
      · rcases Option.map_eq_some_iff.mp h with ⟨live, hstep, rfl⟩
        -- an unscheduled job is one less
        exact hs.of_noMore (noMore_unschedule hstep)
      · cases h
  | background l =>
      refine iff_of_true ?_ trivial
      simp only [apiStep] at h
      split at h
      · rename_i hl
        rcases Option.map_eq_some_iff.mp h with ⟨live, hstep, rfl⟩
        -- the background registers no job
        exact hs.of_noMore (noMore_background hl hstep)
      · cases h

theorem withinQuota_start (backend : Links.Backend) : WithinQuota (Api.start backend) :=
  fun _ => Nat.zero_le _

/-- No user has more jobs than the quota in any state of a run, exactly when every
deferred registration that adds a job finds its user below the quota. -/
theorem withinQuota_iff {backend : Links.Backend} {tr : List ApiLabel} {s : Api}
    (h : Runs.exec (apiStep py webhook) (Api.start backend) tr = some s) :
    (∀ before after t, tr = before ++ after →
        Runs.exec (apiStep py webhook) (Api.start backend) before = some t → WithinQuota t) ↔
      Runs.Along (apiStep py webhook) (DeferredBelowQuota py) (Api.start backend) tr :=
  Runs.always_iff_along (I := fun _ => True) (fun _ _ _ _ _ => trivial)
    (fun _ _ _ _ hs hl => withinQuota_step_iff hs hl) trivial (withinQuota_start backend) h

/-! ## One job more -/

/-- A link with a daily schedule, and its access token. -/
def deferredJob (userId : Nat) : List ApiLabel :=
  [.createLink { userId, authMethod := "jwt" } "link-2" "greengrid_energy" none
      (some (.object (some "daily") none)),
    .submitCredentials userId "link-2" "acc-daily" true true]

/-- Access tokens of one link, each with a schedule of its own. -/
def scheduledJobs (userId count : Nat) : List ApiLabel :=
  .createLink { userId, authMethod := "jwt" } "link-1" "greengrid_energy" none none ::
    ((List.range count).map fun n => String.singleton (Char.ofNat (n + 65))).flatMap fun token =>
      [.submitCredentials userId "link-1" token true true,
        .scheduleRefresh userId token (some 600) none true]

theorem scheduledAndDeferred_withinQuota :
    ∃ s, Runs.exec (apiStep Principals.asciiText true) (Api.start .redis)
        (scheduledJobs 1 2 ++ deferredJob 1) = some s ∧
      (s.live.scheduler.jobsForUser 1).length = 3 ∧ WithinQuota s := by
  have hrun : (Runs.exec (apiStep Principals.asciiText true) (Api.start .redis)
      (scheduledJobs 1 2 ++ deferredJob 1)).map
        (fun s => (s.live.scheduler.jobsForUser 1).length) = some 3 := by
    decide +kernel
  rcases Option.map_eq_some_iff.mp hrun with ⟨s, hs, hcount⟩
  refine ⟨s, hs, hcount, (withinQuota_iff hs).mpr ?_ _ [] s (List.append_nil _).symm hs⟩
  decide +kernel

/-- A user who has as many jobs as the quota allows gets one more with the
credentials for a link that was created with a schedule. -/
theorem deferredBeyond_not_withinQuota :
    ∃ s, Runs.exec (apiStep Principals.asciiText true) (Api.start .redis)
        (scheduledJobs 1 50 ++ deferredJob 1) = some s ∧
      (s.live.scheduler.jobsForUser 1).length = 51 ∧ ¬WithinQuota s := by
  have hrun : (Runs.exec (apiStep Principals.asciiText true) (Api.start .redis)
      (scheduledJobs 1 50 ++ deferredJob 1)).map
        (fun s => (s.live.scheduler.jobsForUser 1).length) = some 51 := by
    decide +kernel
  rcases Option.map_eq_some_iff.mp hrun with ⟨s, hs, hcount⟩
  refine ⟨s, hs, hcount, fun hwithin => ?_⟩
  have hbound := hwithin 1
  rw [hcount] at hbound
  exact absurd hbound (by decide)

end Plaidify.Refresh
