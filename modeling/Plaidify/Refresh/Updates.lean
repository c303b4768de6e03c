import Plaidify.Refresh.Quota

/-!
# Updates of a refresh schedule

`PATCH /refresh/schedule/{access_token}` with any JSON body: `update_schedule` of
`src/src/routers/refresh.py` over `RefreshScheduler.update`. What `updateSchedule`
does with the values of a well-formed body, this does with whatever values the
body has (`patchSchedule_typed`).

The endpoint compares the interval with the minimum after the job was assigned to
and saved, so that a refusal for this reason alone comes too late:
`update_schedule_iff`.
-/

namespace Plaidify.Refresh

open Principals (HttpError PyText internalError)

/-! ## Values of a body -/

/-- An exception: `ValueError` with its text, or one that the endpoint does not
catch. -/
inductive Raised where
  | valueError (text : String)
  | other
deriving Repr, DecidableEq

/-- `int` on a string, with the text of its error, and on a float. -/
structure PyInt where
  ofText : String → Except String Int
  ofFloat : String → Except Raised Int

/-- `int(value)`. -/
def PyInt.ofJson (int : PyInt) : Json → Except Raised Int
  | .int n => .ok n
  | .bool b => .ok (if b then 1 else 0)
  | .str text => (int.ofText text).mapError .valueError
  | .float repr => int.ofFloat repr
  | .null | .arr _ | .obj _ => .error .other

/-- `a or b`. -/
def pyOr (a b : Json) : Json :=
  if a.truthy then a else b

/-- `value is None`. -/
def isNone : Json → Bool
  | .null => true
  | _ => false

/-- What the endpoint takes from a body. -/
structure PatchFields where
  intervalSeconds : Json
  scheduleFormat : Json
  enabled : Json

/-- `body.get` raises where the body is no object. -/
def patchFields : Json → Option PatchFields
  | .obj members =>
      let get key := (members.lookup key).getD .null
      some {
        intervalSeconds := get "interval_seconds"
        scheduleFormat := pyOr (get "schedule_format") (get "format")
        enabled := get "enabled" }
  | _ => none

section

variable (lower : String → String) (int : PyInt)

/-- `resolve_schedule` on JSON values. -/
def resolveScheduleJson (scheduleFormat intervalSeconds : Json) :
    Except Raised (ScheduleFormat × Int) :=
  match pyOr scheduleFormat (.str ScheduleFormat.interval.name) with
  | .str given =>
      match ScheduleFormat.all.find? (·.name = lower given) with
      | none => .error (.valueError ("Unknown schedule format '" ++ given ++ "'. Supported: " ++
          ", ".intercalate (ScheduleFormat.all.map (·.name)) ++ "."))
      | some fmt =>
          match fmt.preset? with
          | some seconds => .ok (fmt, seconds)
          | none =>
              if isNone intervalSeconds then
                .error (.valueError
                  "interval_seconds is required when schedule_format is 'interval'.")
              else (int.ofJson intervalSeconds).map fun seconds => (.interval, seconds)
  -- `.lower()` of another value
  | _ => .error .other

/-- The part of `update` for the format and the interval. -/
def reformattedJson (job : RefreshJob) (fields : PatchFields) : Except Raised RefreshJob :=
  if !isNone fields.scheduleFormat || !isNone fields.intervalSeconds then
    (resolveScheduleJson lower int
        (pyOr fields.scheduleFormat (.str job.scheduleFormat.name))
        (pyOr fields.intervalSeconds (.int job.intervalSeconds))).map fun r =>
      { job with scheduleFormat := r.1, intervalSeconds := r.2 }
  else .ok job

/-- The job that `update` makes of a job and the fields of a body. -/
def updatedJob (job : RefreshJob) (fields : PatchFields) : Except Raised RefreshJob :=
  (reformattedJson lower int job fields).map
    (Scheduler.enabledAs (if isNone fields.enabled then none else some fields.enabled.truthy))

/-- `update`, for a token that has a job. -/
def Scheduler.updateJson (s : Scheduler) (accessToken : String) (fields : PatchFields)
    (persists : Bool) : Except Raised Scheduler :=
  match s.registry.jobs.get? accessToken, s.registry.job? accessToken with
  | some e, some job =>
      (updatedJob lower int job fields).map fun job =>
        { registry := s.registry.modify e.object fun _ => job
          rows := persistJob s.rows job persists }
  | _, _ => .ok s

end

section

variable (py : PyText) (int : PyInt)

/-- The refusal of an interval that is too short. -/
def minimumError : HttpError :=
  ⟨400, "Minimum interval is 300 seconds (5 minutes)."⟩

/-- `update_schedule` of an authenticated user; the body is `none` where it is not
JSON. -/
def patchSchedule (s : Api) (userId : Nat) (accessToken : String) (body : Option Json)
    (persists : Bool) : Api × Except HttpError Unit :=
  match body.bind patchFields with
  | none => (s, .error internalError)
  | some fields =>
      if !s.hasToken userId accessToken then (s, .error ⟨404, "Access token not found."⟩)
      else if (s.live.scheduler.registry.job? accessToken).isNone then
        (s, .error ⟨404, "No refresh schedule found for this token."⟩)
      else
        match s.live.scheduler.updateJson py.lower int accessToken fields persists with
        | .error (.valueError text) => (s, .error ⟨400, text⟩)
        | .error .other => (s, .error internalError)
        | .ok scheduler =>
            ({ s with live := { s.live with scheduler } },
              if (scheduler.registry.job? accessToken).any fun job =>
                  decide (job.intervalSeconds < minIntervalSeconds) then
                .error minimumError
              else .ok ())

/-! ## The property and the conditions -/

/-- A request that is answered with a 4xx status leaves the job and its row. -/
def RejectedUnchanged (s : Api) (accessToken : String) (r : Api × Except HttpError Unit) : Prop :=
  ∀ e, r.2 = .error e → 400 ≤ e.statusCode → e.statusCode < 500 →
    r.1.live.scheduler.registry.job? accessToken = s.live.scheduler.registry.job? accessToken ∧
      r.1.live.scheduler.rows.get? accessToken = s.live.scheduler.rows.get? accessToken

/-- The request gets as far as the update: `job` is to become `new`. -/
def Updates (s : Api) (userId : Nat) (accessToken : String) (body : Option Json)
    (job new : RefreshJob) : Prop :=
  s.hasToken userId accessToken = true ∧
    s.live.scheduler.registry.job? accessToken = some job ∧
      ∃ fields, body.bind patchFields = some fields ∧
        updatedJob py.lower int job fields = .ok new

/-- An update to an interval below the minimum has nothing to change: the job and
its row are as they would be afterwards. -/
def NothingToChange (s : Api) (userId : Nat) (accessToken : String) (body : Option Json)
    (persists : Bool) : Prop :=
  ∀ job new, Updates py int s userId accessToken body job new →
    new.intervalSeconds < minIntervalSeconds →
      new = job ∧ (persistJob s.live.scheduler.rows new persists).get? accessToken =
        s.live.scheduler.rows.get? accessToken

inductive PatchLabel where
  /-- Another request, or a step of the scheduler. -/
  | other (l : ApiLabel)
  | patch (userId : Nat) (accessToken : String) (body : Option Json) (persists : Bool)

def patchStep (webhook : Bool) (s : Api) : PatchLabel → Option Api
  | .other (.updateSchedule ..) => none
  | .other l => apiStep py webhook s l
  | .patch userId accessToken body persists =>
      some (patchSchedule py int s userId accessToken body persists).1

/-- Every job is refreshed at intervals that are long enough. -/
def WellSpaced (s : Api) : Prop :=
  ∀ accessToken job, s.live.scheduler.registry.job? accessToken = some job →
    minIntervalSeconds ≤ job.intervalSeconds

/-- A `PATCH` that is rejected changes nothing. -/
def RejectionsUnchanged (s : Api) : PatchLabel → Prop
  | .other _ => True
  | .patch userId accessToken body persists =>
      RejectedUnchanged s accessToken (patchSchedule py int s userId accessToken body persists)

/-- An update is to an interval that is long enough. -/
def LongEnough (s : Api) : PatchLabel → Prop
  | .other _ => True
  | .patch userId accessToken body _ => ∀ job new,
      Updates py int s userId accessToken body job new → minIntervalSeconds ≤ new.intervalSeconds

end

variable {py : PyText} {int : PyInt} {webhook : Bool}

/-! ## Well-formed bodies -/

def optInt : Option Int → Json
  | none => .null
  | some n => .int n

def optText : Option String → Json
  | none => .null
  | some text => .str text

def optBool : Option Bool → Json
  | none => .null
  | some b => .bool b

theorem pyOr_optInt (interval : Option Int) (n : Int) :
    pyOr (optInt interval) (.int n) = .int ((interval.filter (· ≠ 0)).getD n) := by
  cases interval with
  | none => rfl
  | some m =>
      by_cases hm : m = 0
      · simp [optInt, pyOr, Json.truthy, hm, Option.filter]
      · simp [optInt, pyOr, Json.truthy, hm, Option.filter]

theorem pyOr_optText (format : Option String) (name : String) :
    pyOr (optText format) (.str name) = .str ((format.filter (· ≠ "")).getD name) := by
  cases format with
  | none => rfl
  | some text =>
      by_cases htext : text = ""
      · simp [optText, pyOr, Json.truthy, htext, Option.filter]
      · simp [optText, pyOr, Json.truthy, htext, Option.filter]

/-- On a text and a number, `resolve_schedule` is what it is on typed values. -/
theorem resolveScheduleJson_typed (lower : String → String) {given : String} (hgiven : given ≠ "")
    (seconds : Int) :
    resolveScheduleJson lower int (.str given) (.int seconds) =
      (resolveSchedule lower (some given) (some seconds)).mapError .valueError := by
  have hfilter : ((some given).filter (· ≠ "")).getD ScheduleFormat.interval.name = given := by
    simp [Option.filter, hgiven]
  have hor : pyOr (.str given) (.str ScheduleFormat.interval.name) = .str given := by
    simp [pyOr, Json.truthy, hgiven]
  unfold resolveScheduleJson resolveSchedule
  rw [hor, hfilter]
  dsimp only
  cases ScheduleFormat.all.find? fun fmt => decide (fmt.name = lower given) with
  | none => rfl
  | some fmt =>
      cases fmt with
      | interval | hourly | daily | weekly => rfl

theorem name_ne_empty (fmt : ScheduleFormat) : fmt.name ≠ "" := by
  cases fmt <;> decide

/-- On the values of a well-formed body, `update` is what it is on typed values. -/
theorem updatedJob_typed (lower : String → String) (job : RefreshJob)
    (intervalSeconds : Option Int) (scheduleFormat : Option String) (enabled : Option Bool) :
    updatedJob lower int job
        ⟨optInt intervalSeconds, optText scheduleFormat, optBool enabled⟩ =
      ((Scheduler.reformatted lower job intervalSeconds scheduleFormat).mapError
        Raised.valueError).map (Scheduler.enabledAs enabled) := by
  have henabled : (if isNone (optBool enabled) then none else some (optBool enabled).truthy) =
      enabled := by
    cases enabled <;> rfl
  have hgiven : (!isNone (optText scheduleFormat) || !isNone (optInt intervalSeconds)) =
      (scheduleFormat.isSome || intervalSeconds.isSome) := by
    cases scheduleFormat <;> cases intervalSeconds <;> rfl
  have hname : (scheduleFormat.filter (· ≠ "")).getD job.scheduleFormat.name ≠ "" := by
    cases hfilter : scheduleFormat.filter (· ≠ "") with
    | none => exact name_ne_empty job.scheduleFormat
    | some text => simpa using (Option.filter_eq_some_iff.mp hfilter).2
  unfold updatedJob reformattedJson Scheduler.reformatted
  dsimp only
  rw [henabled, hgiven, pyOr_optInt, pyOr_optText, resolveScheduleJson_typed lower hname]
  split
  · cases resolveSchedule lower
      (some ((scheduleFormat.filter (· ≠ "")).getD job.scheduleFormat.name))
      (some ((intervalSeconds.filter (· ≠ 0)).getD job.intervalSeconds)) with
    | error text => rfl
    | ok r => rfl
  · rfl

/-- A body with the three values. -/
def typedBody (intervalSeconds : Option Int) (scheduleFormat : Option String)
    (enabled : Option Bool) : Json :=
  .obj [("interval_seconds", optInt intervalSeconds), ("schedule_format", optText scheduleFormat),
    ("enabled", optBool enabled)]

/-- With a well-formed body the endpoint is `updateSchedule`. -/
theorem patchSchedule_typed (s : Api) (userId : Nat) (accessToken : String)
    (intervalSeconds : Option Int) {scheduleFormat : Option String} (enabled : Option Bool)
    (persists : Bool) (hformat : scheduleFormat ≠ some "") :
    patchSchedule py int s userId accessToken
        (some (typedBody intervalSeconds scheduleFormat enabled)) persists =
      updateSchedule py s userId accessToken intervalSeconds scheduleFormat enabled persists := by
  have hfields : patchFields (typedBody intervalSeconds scheduleFormat enabled) =
      some ⟨optInt intervalSeconds, optText scheduleFormat, optBool enabled⟩ := by
    have hor : pyOr (optText scheduleFormat) .null = optText scheduleFormat := by
      cases scheduleFormat with
      | none => rfl
      | some text =>
          have htext : text ≠ "" := fun h => hformat (congrArg some h)
          simp [pyOr, optText, Json.truthy, htext]
    simp [patchFields, typedBody, List.lookup_cons, hor]
  unfold patchSchedule updateSchedule
  rw [Option.bind_some, hfields]
  dsimp only
  split
  · rfl
  · split
    · rfl
    · unfold Scheduler.updateJson Scheduler.update
      cases hget : s.live.scheduler.registry.jobs.get? accessToken with
      | none => rfl
      | some e =>
          cases hjob : s.live.scheduler.registry.job? accessToken with
          | none => rfl
          | some job =>
              dsimp only
              rw [updatedJob_typed]
              cases Scheduler.reformatted py.lower job intervalSeconds scheduleFormat with
              | error text => rfl
              | ok new => rfl

/-! ## One request -/

/-- An update keeps the token and the user. -/
theorem updatedJob_kept {lower : String → String} {job new : RefreshJob} {fields : PatchFields}
    (h : updatedJob lower int job fields = .ok new) :
    new.accessToken = job.accessToken ∧ new.userId = job.userId := by
  have henabled : ∀ enabled (old : RefreshJob),
      (Scheduler.enabledAs enabled old).accessToken = old.accessToken ∧
        (Scheduler.enabledAs enabled old).userId = old.userId := by
    intro enabled old
    cases enabled with
    | none => exact ⟨rfl, rfl⟩
    | some b => exact ⟨rfl, rfl⟩
  have hreformatted : ∀ r, reformattedJson lower int job fields = .ok r →
      r.accessToken = job.accessToken ∧ r.userId = job.userId := by
    intro r hr
    unfold reformattedJson at hr
    split at hr
    · cases hresolve : resolveScheduleJson lower int
          (pyOr fields.scheduleFormat (.str job.scheduleFormat.name))
          (pyOr fields.intervalSeconds (.int job.intervalSeconds)) with
      | error e =>
          rw [hresolve] at hr
          cases hr
      | ok resolved =>
          rw [hresolve] at hr
          rw [← Except.ok.inj hr]
          exact ⟨rfl, rfl⟩
    · rw [← Except.ok.inj hr]
      exact ⟨rfl, rfl⟩
  unfold updatedJob at h
  cases hr : reformattedJson lower int job fields with
  | error e =>
      rw [hr] at h
      cases h
  | ok r =>
      rw [hr] at h
      rw [← Except.ok.inj h]
      have hkept := henabled (if isNone fields.enabled then none else some fields.enabled.truthy) r
      exact ⟨hkept.1.trans (hreformatted r hr).1, hkept.2.trans (hreformatted r hr).2⟩

theorem assign_updatedJob {lower : String → String} {job new : RefreshJob} {fields : PatchFields}
    (h : updatedJob lower int job fields = .ok new) : job.assign (fun _ => new) = new := by
  rcases updatedJob_kept h with ⟨htoken, huser⟩
  simp [RefreshJob.assign, ← htoken, ← huser]

/-- The answer to an update. -/
def updateAnswer (new : RefreshJob) : Except HttpError Unit :=
  if new.intervalSeconds < minIntervalSeconds then .error minimumError else .ok ()

/-- What a request can do: refuse and leave everything, or update the job. -/
theorem patchSchedule_cases (s : Api) (userId : Nat) (accessToken : String) (body : Option Json)
    (persists : Bool) :
    ((patchSchedule py int s userId accessToken body persists).1 = s ∧
        ∀ job new, ¬Updates py int s userId accessToken body job new) ∨
      ∃ job new e, Updates py int s userId accessToken body job new ∧
        s.live.scheduler.registry.jobs.get? accessToken = some e ∧
        patchSchedule py int s userId accessToken body persists =
          ({ s with live := { s.live with scheduler :=
              { registry := s.live.scheduler.registry.modify e.object fun _ => new
                rows := persistJob s.live.scheduler.rows new persists } } },
            updateAnswer new) := by
  unfold patchSchedule
  cases hfields : body.bind patchFields with
  | none =>
      -- the body is no object
      refine .inl ⟨rfl, ?_⟩
      rintro job new ⟨-, -, fields, hsome, -⟩
      rw [hfields] at hsome
      cases hsome
  | some fields =>
      dsimp only
      split
      · rename_i htoken
        -- the token is not the user's
        refine .inl ⟨rfl, ?_⟩
        rintro job new ⟨hhas, -⟩
        rw [hhas] at htoken
        cases htoken
      · rename_i htoken
        have hhas : s.hasToken userId accessToken = true := by simpa using htoken
        cases hget : s.live.scheduler.registry.jobs.get? accessToken with
        | none =>
            have hnone := Registry.job?_eq_none.mpr hget
            rw [hnone]
            -- the token has no job
            refine .inl ⟨rfl, ?_⟩
            rintro job new ⟨-, hjob, -⟩
            rw [hnone] at hjob
            cases hjob
        | some e =>
            rcases Registry.job?_of_get? hget with ⟨job, -, hjob⟩
            rw [hjob]
            simp only [Option.isNone_some, Bool.false_eq_true, if_false]
            unfold Scheduler.updateJson
            rw [hget, hjob]
            dsimp only
            cases hupdated : updatedJob py.lower int job fields with
            | error raised =>
                -- a field is refused
                refine .inl ⟨?_, ?_⟩
                · cases raised <;> rfl
                · rintro old new ⟨-, hold, fields', hfields', hnew⟩
                  rw [hjob] at hold
                  rw [hfields] at hfields'
                  obtain rfl := Option.some.inj hold
                  obtain rfl := Option.some.inj hfields'
                  rw [hupdated] at hnew
                  cases hnew
            | ok new =>
                -- the job is replaced, in the registry and in its row
                refine .inr ⟨job, new, e, ⟨hhas, hjob, fields, hfields, hupdated⟩, rfl, ?_⟩
                have hnew : (s.live.scheduler.registry.modify e.object fun _ => new).job?
                    accessToken = some new := by
                  rw [Registry.job?_modify hget, if_pos rfl, hjob, Option.map_some,
                    assign_updatedJob hupdated]
                simp only [Except.map, hnew, Option.any_some, decide_eq_true_eq, updateAnswer]

/-- The job and the row after an update. -/
theorem job?_patched {s : Api} {userId : Nat} {accessToken : String} {body : Option Json}
    {job new : RefreshJob} {e : JobEntry} (hupdates : Updates py int s userId accessToken body job new)
    (hget : s.live.scheduler.registry.jobs.get? accessToken = some e) (k : String) :
    (s.live.scheduler.registry.modify e.object fun _ => new).job? k =
      if k = accessToken then some new else s.live.scheduler.registry.job? k := by
  rcases hupdates with ⟨-, hjob, fields, -, hnew⟩
  rw [Registry.job?_modify hget, hjob, Option.map_some, assign_updatedJob hnew]

theorem updates_unique {s : Api} {userId : Nat} {accessToken : String} {body : Option Json}
    {job new job' new' : RefreshJob} (h : Updates py int s userId accessToken body job new)
    (h' : Updates py int s userId accessToken body job' new') : job' = job ∧ new' = new := by
  rcases h with ⟨-, hjob, fields, hfields, hnew⟩
  rcases h' with ⟨-, hjob', fields', hfields', hnew'⟩
  rw [hjob] at hjob'
  rw [hfields] at hfields'
  obtain rfl := Option.some.inj hjob'
  obtain rfl := Option.some.inj hfields'
  rw [hnew] at hnew'
  exact ⟨rfl, (Except.ok.inj hnew').symm⟩

/-- A rejected request changes nothing exactly when a refusal for the minimum finds
nothing to change. -/
theorem rejectedUnchanged_iff (s : Api) (userId : Nat) (accessToken : String)
    (body : Option Json) (persists : Bool) :
    RejectedUnchanged s accessToken (patchSchedule py int s userId accessToken body persists) ↔
      NothingToChange py int s userId accessToken body persists := by
  rcases @patchSchedule_cases py int s userId accessToken body persists with
    ⟨hsame, hnone⟩ | ⟨job, new, e, hupdates, hget, heq⟩
  · refine iff_of_true ?_ ?_
    · intro error _ _ _
      rw [hsame]
      exact ⟨rfl, rfl⟩
    · intro job new hupdates
      exact absurd hupdates (hnone job new)
  · have hjob := hupdates.2.1
    have hafter := job?_patched hupdates hget accessToken
    rw [if_pos rfl] at hafter
    rw [heq]
    unfold RejectedUnchanged NothingToChange updateAnswer
    dsimp only
    constructor
    · intro hunchanged job' new' hupdates' hshort
      rcases updates_unique hupdates hupdates' with ⟨rfl, rfl⟩
      rw [if_pos hshort] at hunchanged
      rcases hunchanged minimumError rfl (by decide) (by decide) with ⟨hsame, hrow⟩
      rw [hafter, hjob] at hsame
      exact ⟨Option.some.inj hsame, hrow⟩
    · intro hnothing error herror _ _
      split at herror
      · rename_i hshort
        rcases hnothing job new hupdates hshort with ⟨rfl, hrow⟩
        exact ⟨hafter.trans hjob.symm, hrow⟩
      · cases herror

/-! ## Jobs that are spaced -/

/-- All job objects have intervals that are long enough. -/
def SpacedObjects (r : Registry) : Prop :=
  ∀ (i : Nat) (job : RefreshJob), r.objects[i]? = some job →
    minIntervalSeconds ≤ job.intervalSeconds

/-- So have all job objects, and all schedules that wait for an access token. -/
structure Spaced (s : Api) : Prop where
  objects : SpacedObjects s.live.scheduler.registry
  deferred : ∀ entry ∈ s.linkRefreshSchedules.entries.rows, ∃ fmt seconds,
    entry.scopesJson = directiveJson fmt seconds ∧ minIntervalSeconds ≤ seconds

theorem spaced_start (backend : Links.Backend) : Spaced (Api.start backend) where
  objects := by
    simp [SpacedObjects, Api.start, LiveScheduler.empty, Scheduler.empty, Registry.empty]
  deferred := by simp [Api.start]

theorem Spaced.wellSpaced {s : Api} (h : Spaced s) : WellSpaced s := by
  intro accessToken job hjob
  rcases Registry.job?_eq_some.mp hjob with ⟨e, -, hobject⟩
  exact h.objects e.object job hobject

/-- The presets are long enough. -/
theorem resolveSchedule_interval {lower : String → String} {scheduleFormat : Option String}
    {seconds resolved : Int} {fmt : ScheduleFormat} (hseconds : minIntervalSeconds ≤ seconds)
    (h : resolveSchedule lower scheduleFormat (some seconds) = .ok (fmt, resolved)) :
    minIntervalSeconds ≤ resolved := by
  have hpresets : ∀ found : ScheduleFormat, ∀ preset ∈ found.preset?,
      minIntervalSeconds ≤ preset := by
    intro found
    cases found <;> decide
  unfold resolveSchedule at h
  dsimp only at h
  split at h
  · cases h
  · rename_i found hfound
    split at h
    · rename_i preset hpreset
      rw [← (Prod.mk.inj (Except.ok.inj h)).2]
      exact hpresets found preset hpreset
    · rw [← (Prod.mk.inj (Except.ok.inj h)).2]
      exact hseconds

/-- Assignments to objects that keep intervals long enough. -/
theorem SpacedObjects.modify {r : Registry} {f : RefreshJob → RefreshJob} {object : Nat}
    (h : SpacedObjects r)
    (hf : ∀ job, r.objects[object]? = some job → minIntervalSeconds ≤ (f job).intervalSeconds) :
    SpacedObjects (r.modify object f) := by
  intro i job hjob
  have hmodify : (r.modify object f).objects = r.objects.modify object (RefreshJob.assign f) := rfl
  rw [hmodify, List.getElem?_modify] at hjob
  rcases Option.map_eq_some_iff.mp hjob with ⟨old, hold, rfl⟩
  by_cases hi : object = i
  · rw [if_pos hi]
    exact hf old (hi ▸ hold)
  · rw [if_neg hi]
    exact h i old hold

theorem objects_schedule {lower : String → String} {s t : Scheduler} {accessToken : String}
    {userId : Nat} {seconds : Int} {scheduleFormat : Option String} {persists : Bool}
    (h : SpacedObjects s.registry) (hseconds : minIntervalSeconds ≤ seconds)
    (hop : s.schedule lower accessToken userId (some seconds) scheduleFormat persists = .ok t) :
    SpacedObjects t.registry := by
  have hgiven : ((some seconds).filter (· ≠ 0)).getD defaultInterval = seconds := by
    have hne : seconds ≠ 0 := by
      rintro rfl
      exact absurd hseconds (by decide)
    simp [Option.filter, hne]
  unfold Scheduler.schedule at hop
  rw [hgiven] at hop
  simp only [bind, Except.bind] at hop
  split at hop
  · cases hop
  · rename_i r hresolve
    have hinterval : minIntervalSeconds ≤ r.2 := resolveSchedule_interval hseconds hresolve
    rw [← Except.ok.inj hop]
    dsimp only
    cases hget : s.registry.jobs.get? accessToken with
    | some e => exact h.modify fun job _ => hinterval
    | none =>
        -- a new object
        dsimp only
        cases hadd : s.registry.add? {
            accessToken, userId, intervalSeconds := r.2, scheduleFormat := r.1 } with
        | none => exact h
        | some registry =>
            rw [Option.getD_some]
            intro i job hjob
            rw [(Registry.add?_eq_some hadd).2.1, List.getElem?_append] at hjob
            split at hjob
            · exact h i job hjob
            · have hmem := List.mem_of_getElem? hjob
              rw [List.mem_singleton.mp hmem]
              exact hinterval

theorem Spaced.register {s : Api} (h : Spaced s) {accessToken : String} {userId : Nat}
    {seconds : Int} (hseconds : minIntervalSeconds ≤ seconds) (scheduleFormat : Option String)
    (persists : Bool) :
    Spaced ((s.register py webhook accessToken userId (some seconds) scheduleFormat
      persists).getD s) := by
  unfold Api.register
  simp only [liveStep]
  cases hop : s.live.scheduler.schedule py.lower accessToken userId (some seconds) scheduleFormat
      persists with
  | error e => exact h
  | ok scheduler => exact ⟨objects_schedule h.objects hseconds hop, h.deferred⟩

/-! ### Schedules that wait -/

theorem checkSchedule_interval {scheduleFormat : Option String} {intervalSeconds : Option Int}
    {fmt : ScheduleFormat} {seconds : Int}
    (h : checkSchedule py scheduleFormat intervalSeconds = .ok (fmt, seconds)) :
    minIntervalSeconds ≤ seconds := by
  unfold checkSchedule at h
  split at h
  · cases h
  · split at h
    · cases h
    · rename_i hshort
      obtain ⟨-, rfl⟩ := Prod.mk.inj (Except.ok.inj h)
      exact Int.not_lt.mp hshort

/-- A directive is read as it was stored. -/
theorem readDirective_directiveJson (fmt : ScheduleFormat) (seconds : Int) :
    readDirective py (directiveJson fmt seconds) = some (some seconds, some fmt.name) := by
  unfold readDirective directiveJson
  rw [Json.loads_dumps (by simp [Json.Writable, Json.WritableMembers])]
  simp [List.lookup_cons]

theorem Spaced.defer {s : Api} (h : Spaced s) (linkToken : String)
    (refreshSchedule : Option RefreshSchedule) : Spaced (s.defer py linkToken refreshSchedule) := by
  unfold Api.defer
  split
  · split
    · exact h
    · rename_i fmt seconds hcheck
      refine ⟨h.objects, ?_⟩
      intro entry hentry
      rcases Links.set_mem hentry with ⟨-, htext⟩ | hold
      · exact ⟨fmt, seconds, htext, checkSchedule_interval hcheck⟩
      · exact h.deferred entry hold
  · exact h

theorem Spaced.registerDeferred {s : Api} (h : Spaced s) (userId : Nat) (linkToken token : String)
    (persists : Bool) : Spaced (s.registerDeferred py webhook userId linkToken token persists) := by
  have hpop := Links.pop_spec s.linkRefreshSchedules s.links.now linkToken
  have hpopped : Spaced { s with
      linkRefreshSchedules := (s.linkRefreshSchedules.pop s.links.now linkToken).2 } :=
    ⟨h.objects, fun entry hentry => h.deferred entry (hpop.2 entry hentry)⟩
  unfold Api.registerDeferred
  dsimp only
  rw [hpop.1]
  cases hpeek : s.linkRefreshSchedules.peek s.links.now linkToken with
  | none => exact hpopped
  | some text =>
      rcases Links.peek_eq_some hpeek with ⟨entry, hentry, -, rfl⟩
      rcases h.deferred entry hentry with ⟨fmt, seconds, htext, hseconds⟩
      rw [htext]
      cases hfilter : (some (directiveJson fmt seconds)).filter (· ≠ "") with
      | none => exact hpopped
      | some text =>
          obtain rfl := Option.some.inj (Option.filter_eq_some_iff.mp hfilter).1
          rw [Option.bind_some, readDirective_directiveJson]
          exact hpopped.register hseconds _ _

/-! ### The scheduler's own steps -/

theorem apply_interval (outcome : Outcome) (now : DateTime) (job : RefreshJob) :
    (outcome.apply now job).intervalSeconds = job.intervalSeconds := by
  cases outcome <;> rfl

theorem objects_background {s t : LiveScheduler} {l : LiveLabel} (hl : l.isBackground = true)
    (h : SpacedObjects s.scheduler.registry) (hstep : liveStep py.lower webhook s l = some t) :
    SpacedObjects t.scheduler.registry := by
  cases l with
  | schedule | update | unschedule | restart => cases hl
  | tick now =>
      simp only [liveStep] at hstep
      split at hstep
      · rw [← Option.some.inj hstep]
        exact h
      · rw [← Option.some.inj hstep]
        exact h
  | fetched flight outcome now persists =>
      simp only [liveStep, LiveScheduler.fetched] at hstep
      split at hstep
      · rcases Option.map_eq_some_iff.mp hstep with ⟨job, -, rfl⟩
        have hmodify := @SpacedObjects.modify _ (outcome.apply (utc now)) flight.object h
          fun job hjob => (apply_interval outcome (utc now) job).symm ▸ h flight.object job hjob
        split
        · exact hmodify
        · exact hmodify
      · cases hstep
  | notified flight persists =>
      simp only [liveStep] at hstep
      split at hstep
      · rcases Option.map_eq_some_iff.mp hstep with ⟨job, -, rfl⟩
        exact h
      · cases hstep
  | dropped flight =>
      simp only [liveStep] at hstep
      split at hstep
      · rw [← Option.some.inj hstep]
        exact h
      · cases hstep

theorem objects_unschedule {lower : String → String} {s t : LiveScheduler} {k : String}
    {deletes : Bool} (hstep : liveStep lower webhook s (.unschedule k deletes) = some t) :
    t.scheduler.registry.objects = s.scheduler.registry.objects := by
  have hobjects : ∀ {scheduler : Scheduler} {removed : Bool},
      s.scheduler.unschedule k deletes = (scheduler, removed) →
        scheduler.registry.objects = s.scheduler.registry.objects := by
    intro scheduler removed hop
    rcases Scheduler.unschedule_eq hop with ⟨-, hsame, -⟩ | ⟨-, hregistry, -⟩
    · rw [hsame]
    · rw [hregistry]
      rfl
  simp only [liveStep] at hstep
  split at hstep
  · rename_i scheduler hop
    rw [← Option.some.inj hstep]
    exact hobjects hop
  · rename_i scheduler hop
    rw [← Option.some.inj hstep]
    exact hobjects hop

/-! ### One step -/

/-- Requests other than `PATCH` keep the jobs spaced. -/
theorem Spaced.other {s t : Api} {l : ApiLabel} (h : Spaced s)
    (hstep : patchStep py int webhook s (.other l) = some t) : Spaced t := by
  cases l with
  | updateSchedule => cases hstep
  | createLink auth linkToken site requested refreshSchedule =>
      rcases Option.map_eq_some_iff.mp hstep with ⟨links, -, rfl⟩
      -- the schedule waits until the link is used
      exact Spaced.defer (s := { s with links }) ⟨h.objects, h.deferred⟩ linkToken refreshSchedule
  | submitCredentials userId linkToken token committed persists =>
      rcases Option.map_eq_some_iff.mp hstep with ⟨links, -, rfl⟩
      have hlinks : Spaced { s with links } := ⟨h.objects, h.deferred⟩
      -- the job of a deferred schedule is checked when it is registered
      split
      · exact hlinks.registerDeferred userId linkToken token persists
      · exact hlinks
  | links l =>
      cases l with
      | createLink | submitCredentials => cases hstep
      | createLinkSession | createPublicLinkSession | exchangeLinkBootstrap | connect |
        deleteLink | deleteToken | wait =>
          simp only [patchStep, apiStep] at hstep
          rcases Option.map_eq_some_iff.mp hstep with ⟨links, -, rfl⟩
          exact ⟨h.objects, h.deferred⟩
  | scheduleRefresh userId accessToken intervalSeconds scheduleFormat persists =>
      simp only [patchStep, apiStep] at hstep
      unfold scheduleRefresh at hstep
      split at hstep
      · cases hstep
      · split at hstep
        · cases hstep
        · rename_i fmt seconds hcheck
          split at hstep
          · cases hstep
          · split at hstep
            · cases hstep
            · rw [← Option.some.inj hstep]
              -- the interval was checked by the endpoint
              exact h.register (checkSchedule_interval hcheck) _ _
  | unscheduleRefresh userId accessToken deletes =>
      simp only [patchStep, apiStep] at hstep
      split at hstep
      · rcases Option.map_eq_some_iff.mp hstep with ⟨live, hlive, rfl⟩
        refine ⟨?_, h.deferred⟩
        intro i job hjob
        -- the objects stay, for an unscheduled job may still be in flight
        rw [objects_unschedule hlive] at hjob
        exact h.objects i job hjob
      · cases hstep
  | background l =>
      simp only [patchStep, apiStep] at hstep
      split at hstep
      · rename_i hl
        rcases Option.map_eq_some_iff.mp hstep with ⟨live, hlive, rfl⟩
        -- a run in flight changes no interval
        exact ⟨objects_background hl h.objects hlive, h.deferred⟩
      · cases hstep

/-- A `PATCH` keeps the jobs spaced if it updates to an interval that is long enough. -/
theorem Spaced.patch {s : Api} (h : Spaced s) {userId : Nat} {accessToken : String}
    {body : Option Json} {persists : Bool}
    (hlong : LongEnough py int s (.patch userId accessToken body persists)) :
    Spaced (patchSchedule py int s userId accessToken body persists).1 := by
  rcases @patchSchedule_cases py int s userId accessToken body persists with
    ⟨hsame, -⟩ | ⟨job, new, e, hupdates, hget, heq⟩
  · rw [hsame]
    exact h
  · rw [heq]
    exact ⟨h.objects.modify fun _ _ => hlong job new hupdates, h.deferred⟩

/-- From spaced jobs, a step leaves intervals long enough exactly if its update is
to one. -/
theorem wellSpaced_step_iff {s t : Api} {l : PatchLabel} (h : Spaced s)
    (hstep : patchStep py int webhook s l = some t) :
    WellSpaced t ↔ LongEnough py int s l := by
  cases l with
  | other l => exact iff_of_true (h.other hstep).wellSpaced trivial
  | patch userId accessToken body persists =>
      obtain rfl := Option.some.inj hstep
      constructor
      · intro hspaced job new hupdates
        rcases @patchSchedule_cases py int s userId accessToken body persists with
          ⟨-, hnone⟩ | ⟨job', new', e, hupdates', hget, heq⟩
        · exact absurd hupdates (hnone job new)
        · obtain ⟨-, rfl⟩ := updates_unique hupdates' hupdates
          rw [heq] at hspaced
          apply hspaced accessToken
          dsimp only
          rw [job?_patched hupdates' hget, if_pos rfl]
      · intro hlong
        exact (h.patch hlong).wellSpaced

/-- From spaced jobs, a rejected `PATCH` changes nothing exactly under the same
condition. -/
theorem rejectionsUnchanged_iff {s : Api} {l : PatchLabel} (h : Spaced s) :
    RejectionsUnchanged py int s l ↔ LongEnough py int s l := by
  cases l with
  | other l => exact Iff.rfl
  | patch userId accessToken body persists =>
      unfold RejectionsUnchanged LongEnough
      dsimp only
      rw [rejectedUnchanged_iff]
      constructor
      · intro hnothing job new hupdates
        by_contra hshort
        have hshort := Int.not_le.mp hshort
        obtain ⟨rfl, -⟩ := hnothing job new hupdates hshort
        have hbefore := h.wellSpaced accessToken new hupdates.2.1
        omega
      · intro hlong job new hupdates hshort
        have hafter := hlong job new hupdates
        omega

/-! ## Every state, and every run -/

/-- In every state, a `PATCH` that is rejected changes nothing exactly when a
refusal for the minimum finds nothing to change. Over runs, all jobs have
intervals that are long enough in all states, and rejections change nothing,
exactly when every update is to an interval that is long enough. -/
theorem update_schedule_iff (py : PyText) (int : PyInt) (webhook : Bool) :
    (∀ s userId accessToken body persists,
      RejectedUnchanged s accessToken (patchSchedule py int s userId accessToken body persists) ↔
        NothingToChange py int s userId accessToken body persists) ∧
    ∀ backend tr s, Runs.exec (patchStep py int webhook) (Api.start backend) tr = some s →
      ((∀ before after t, tr = before ++ after →
            Runs.exec (patchStep py int webhook) (Api.start backend) before = some t →
              WellSpaced t) ∧
          Runs.Along (patchStep py int webhook) (RejectionsUnchanged py int) (Api.start backend) tr ↔
        Runs.Along (patchStep py int webhook) (LongEnough py int) (Api.start backend) tr) := by
  refine ⟨rejectedUnchanged_iff, ?_⟩
  intro backend tr s h
  have hkept : ∀ s l t, Spaced s → LongEnough py int s l →
      patchStep py int webhook s l = some t → Spaced t := by
    intro s l t hs hlong hstep
    cases l with
    | other l => exact hs.other hstep
    | patch userId accessToken body persists =>
        obtain rfl := Option.some.inj hstep
        exact hs.patch hlong
  have halways := Runs.always_iff_along_kept hkept (fun s l t hs => wellSpaced_step_iff hs)
    (spaced_start backend) (spaced_start backend).wellSpaced h
  constructor
  · rintro ⟨hspaced, -⟩
    exact halways.mp hspaced
  · intro hlong
    refine ⟨halways.mpr hlong, ?_⟩
    exact Runs.along_of_invariant hkept (fun s l hs => (rejectionsUnchanged_iff hs).mpr)
      (spaced_start backend) hlong

/-! ## A refusal that comes too late -/

/-- `int` on decimal digits. -/
def pyIntDigits : PyInt where
  ofText text := (String.toInt? text).elim
    (.error "invalid literal for int() with base 10") .ok
  ofFloat _ := .error .other

/-- A token with a schedule of once a day. -/
def dailySchedule : List PatchLabel :=
  [.other (.createLink { userId := 1, authMethod := "jwt" } "link-1" "greengrid_energy" none none),
    .other (.submitCredentials 1 "link-1" "acc-1" true true),
    .other (.scheduleRefresh 1 "acc-1" (some 86400) none true)]

/-- The body of a `PATCH` to once every ten seconds. -/
def tenSeconds : Option Json :=
  some (.obj [("interval_seconds", .int 10)])

theorem tenSeconds_changed :
    ¬ ∀ (s : Api) (userId : Nat) (accessToken : String) (body : Option Json) (persists : Bool),
      RejectedUnchanged s accessToken
        (patchSchedule Principals.asciiText pyIntDigits s userId accessToken body persists) := by
  intro hall
  have hrun : (Runs.exec (patchStep Principals.asciiText pyIntDigits true) (Api.start .redis)
      dailySchedule).map (fun s =>
        ((s.live.scheduler.registry.job? "acc-1").map (·.intervalSeconds),
          (patchSchedule Principals.asciiText pyIntDigits s 1 "acc-1" tenSeconds true).2,
          ((patchSchedule Principals.asciiText pyIntDigits s 1 "acc-1" tenSeconds
            true).1.live.scheduler.registry.job? "acc-1").map (·.intervalSeconds))) =
      some (some 86400, .error minimumError, some 10) := by
    decide +kernel
  rcases Option.map_eq_some_iff.mp hrun with ⟨s, -, hs⟩
  obtain ⟨hbefore, hrest⟩ := Prod.mk.inj hs
  obtain ⟨hanswer, hafter⟩ := Prod.mk.inj hrest
  have hsame := hall s 1 "acc-1" tenSeconds true minimumError hanswer (by decide) (by decide)
  rw [hsame.1, hbefore] at hafter
  exact absurd hafter (by decide)

end Plaidify.Refresh
