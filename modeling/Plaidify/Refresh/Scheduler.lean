import Mathlib.Algebra.Group.Int.Defs
import Plaidify.Lib.Runs
import Plaidify.Lib.Table

/-!
# The refresh scheduler

`RefreshScheduler` of `src/src/scheduled_refresh.py`: its jobs, which it keeps in
a dictionary and in the table `scheduled_refresh_jobs`, and the operations on
them. A job is an object that a run of `_execute_job` may still hold when the
dictionary has it no more, so the dictionary maps a token to an object and the
objects have a list of their own.

Times are in microseconds. A `datetime` is aware of its timezone or not; the
column has none.
-/

namespace Plaidify.Refresh

/-! ## Schedule formats -/

inductive ScheduleFormat where
  | interval
  | hourly
  | daily
  | weekly
deriving Repr, DecidableEq

namespace ScheduleFormat

def name : ScheduleFormat → String
  | .interval => "interval"
  | .hourly => "hourly"
  | .daily => "daily"
  | .weekly => "weekly"

/-- `SCHEDULE_FORMATS`. -/
def all : List ScheduleFormat := [.interval, .hourly, .daily, .weekly]

/-- `_PRESET_INTERVAL_SECONDS`. -/
def preset? : ScheduleFormat → Option Int
  | .interval => none
  | .hourly => some 3600
  | .daily => some 86400
  | .weekly => some 604800

end ScheduleFormat

/-- `MIN_INTERVAL_SECONDS`. -/
def minIntervalSeconds : Int := 300

/-- `resolve_schedule`; `lower` is `str.lower`. -/
def resolveSchedule (lower : String → String) (scheduleFormat : Option String)
    (intervalSeconds : Option Int) : Except String (ScheduleFormat × Int) :=
  -- an empty string is as good as none
  let given := (scheduleFormat.filter (· ≠ "")).getD ScheduleFormat.interval.name
  match ScheduleFormat.all.find? (·.name = lower given) with
  | none => .error ("Unknown schedule format '" ++ scheduleFormat.getD "None" ++
      "'. Supported: " ++ ", ".intercalate (ScheduleFormat.all.map (·.name)) ++ ".")
  | some fmt =>
      match fmt.preset? with
      | some seconds => .ok (fmt, seconds)
      | none =>
          match intervalSeconds with
          | none => .error "interval_seconds is required when schedule_format is 'interval'."
          | some seconds => .ok (.interval, seconds)

/-! ## Jobs -/

structure DateTime where
  micros : Int
  aware : Bool
deriving Repr, DecidableEq

/-- `datetime.now(timezone.utc)`. -/
def utc (micros : Int) : DateTime := ⟨micros, true⟩

/-- The difference of two datetimes raises unless both have a timezone or
neither has. -/
def DateTime.sub (a b : DateTime) : Except String Int :=
  if a.aware = b.aware then .ok (a.micros - b.micros)
  else .error "can't subtract offset-naive and offset-aware datetimes"

structure RefreshJob where
  accessToken : String
  userId : Nat
  intervalSeconds : Int
  scheduleFormat : ScheduleFormat := .interval
  lastRefreshed : Option DateTime := none
  lastError : Option String := none
  consecutiveFailures : Nat := 0
  enabled : Bool := true
deriving Repr, DecidableEq

/-- `max_backoff_seconds`. -/
def maxBackoff : Int := 86400

/-- `_MAX_CONSECUTIVE_FAILURES`. -/
def maxConsecutiveFailures : Nat := 10

/-- `_default_interval`. -/
def defaultInterval : Int := 3600

/-- `_effective_interval`. -/
def effectiveInterval (job : RefreshJob) : Int :=
  if job.consecutiveFailures = 0 then job.intervalSeconds
  else min (job.intervalSeconds * 2 ^ job.consecutiveFailures) maxBackoff

/-- `_is_due`. -/
def isDue (job : RefreshJob) (now : DateTime) : Except String Bool :=
  match job.lastRefreshed with
  | none => .ok true
  | some lastRefreshed =>
      (now.sub lastRefreshed).map fun elapsed =>
        decide (effectiveInterval job * 1000000 ≤ elapsed)

/-- What a successful fetch does to the job. -/
def RefreshJob.refreshed (job : RefreshJob) (now : DateTime) : RefreshJob :=
  { job with lastRefreshed := some now, lastError := none, consecutiveFailures := 0 }

/-- What a failed fetch does to the job. -/
def RefreshJob.failed (job : RefreshJob) (error : String) (now : DateTime) : RefreshJob :=
  { job with
    consecutiveFailures := job.consecutiveFailures + 1
    lastError := some error
    lastRefreshed := some now
    enabled := job.enabled && decide (job.consecutiveFailures + 1 < maxConsecutiveFailures) }

/-- How a run of `_execute_job` gets on with its fetch. -/
inductive Outcome where
  /-- The fetch returned; `hasData` is the truth value of what it returned. -/
  | refreshed (hasData : Bool)
  | failed (error : String)
  /-- The task was cancelled while it waited for the fetch. -/
  | cancelled
deriving Repr, DecidableEq

/-- What the outcome does to the job. -/
def Outcome.apply (outcome : Outcome) (now : DateTime) (job : RefreshJob) : RefreshJob :=
  match outcome with
  | .refreshed _ => job.refreshed now
  | .failed error => job.failed error now
  | .cancelled => job

/-- What `schedule` does to a job that exists. -/
def RefreshJob.rescheduled (scheduleFormat : ScheduleFormat) (intervalSeconds : Int)
    (job : RefreshJob) : RefreshJob :=
  { job with intervalSeconds, scheduleFormat, enabled := true, consecutiveFailures := 0 }

/-- Assign attributes other than the token and the user, which no code assigns. -/
def RefreshJob.assign (f : RefreshJob → RefreshJob) (job : RefreshJob) : RefreshJob :=
  { f job with accessToken := job.accessToken, userId := job.userId }

@[simp] theorem RefreshJob.assign_accessToken (f : RefreshJob → RefreshJob) (job : RefreshJob) :
    (job.assign f).accessToken = job.accessToken := rfl

@[simp] theorem RefreshJob.assign_userId (f : RefreshJob → RefreshJob) (job : RefreshJob) :
    (job.assign f).userId = job.userId := rfl

/-! ## The dictionary and the objects -/

/-- An entry of `_jobs`: a token and the object that is its job. -/
structure JobEntry where
  accessToken : String
  object : Nat
deriving Repr, DecidableEq

/-- The dictionary `_jobs` and every job object that there has been. -/
structure Registry where
  objects : List RefreshJob
  jobs : Table JobEntry JobEntry.accessToken
  named : ∀ e ∈ jobs.rows, objects[e.object]?.map (·.accessToken) = some e.accessToken

namespace Registry

def empty : Registry := ⟨[], .empty, by simp⟩

/-- `_jobs.get(access_token)`. -/
def job? (r : Registry) (accessToken : String) : Option RefreshJob :=
  (r.jobs.get? accessToken).bind fun e => r.objects[e.object]?

/-- `_jobs.values()`. -/
def values (r : Registry) : List RefreshJob :=
  r.jobs.rows.filterMap fun e => r.objects[e.object]?

/-- Make a job object and enter it under its token. -/
def add? (r : Registry) (job : RefreshJob) : Option Registry :=
  match h : r.jobs.insert? ⟨job.accessToken, r.objects.length⟩ with
  | none => none
  | some jobs => some ⟨r.objects ++ [job], jobs, by
      intro e he
      rw [(Table.insert?_eq_some h).2] at he
      rcases List.mem_append.mp he with he | he
      · have hnamed := r.named e he
        have hlt : e.object < r.objects.length := by
          by_contra hge
          rw [List.getElem?_eq_none (Nat.le_of_not_lt hge)] at hnamed
          cases hnamed
        rw [List.getElem?_append_left hlt]
        exact hnamed
      · rw [List.mem_singleton.mp he]
        simp⟩

/-- `_jobs.pop(access_token, None)`. -/
def remove (r : Registry) (accessToken : String) : Registry :=
  ⟨r.objects, r.jobs.delete (·.accessToken == accessToken),
    fun e he => r.named e (List.mem_filter.mp he).1⟩

/-- Assign attributes of an object. -/
def modify (r : Registry) (object : Nat) (f : RefreshJob → RefreshJob) : Registry :=
  ⟨r.objects.modify object (RefreshJob.assign f), r.jobs, by
    intro e he
    rw [← r.named e he, List.getElem?_modify]
    by_cases h : object = e.object
    · simp [h, Function.comp_def]
    · simp [h]⟩

/-! ### Looking up a job -/

theorem job?_eq_some {r : Registry} {t : String} {job : RefreshJob} :
    r.job? t = some job ↔ ∃ e, r.jobs.get? t = some e ∧ r.objects[e.object]? = some job :=
  Option.bind_eq_some_iff

/-- A job goes by its own token. -/
theorem token_of_job? {r : Registry} {t : String} {job : RefreshJob} (h : r.job? t = some job) :
    job.accessToken = t := by
  rcases job?_eq_some.mp h with ⟨e, hget, hobject⟩
  rcases Table.get?_mem hget with ⟨he, hkey⟩
  have hnamed := r.named e he
  rw [hobject, Option.map_some, Option.some.injEq] at hnamed
  exact hnamed.trans hkey

/-- Every entry of the dictionary has an object. -/
theorem job?_of_get? {r : Registry} {t : String} {e : JobEntry} (h : r.jobs.get? t = some e) :
    ∃ job, r.objects[e.object]? = some job ∧ r.job? t = some job := by
  have hnamed := r.named e (Table.get?_mem h).1
  rcases Option.map_eq_some_iff.mp hnamed with ⟨job, hobject, -⟩
  exact ⟨job, hobject, job?_eq_some.mpr ⟨e, h, hobject⟩⟩

theorem job?_eq_none {r : Registry} {t : String} : r.job? t = none ↔ r.jobs.get? t = none := by
  cases hget : r.jobs.get? t with
  | none => simp [job?, hget]
  | some e =>
      rcases job?_of_get? hget with ⟨job, -, hjob⟩
      simp [hjob]

/-- Two entries of one object are entries of one token. -/
theorem token_eq_of_object_eq {r : Registry} {t t' : String} {e e' : JobEntry}
    (h : r.jobs.get? t = some e) (h' : r.jobs.get? t' = some e')
    (hobject : e.object = e'.object) : t = t' := by
  rcases Table.get?_mem h with ⟨he, rfl⟩
  rcases Table.get?_mem h' with ⟨he', rfl⟩
  have hnamed := r.named e he
  rw [hobject, r.named e' he', Option.some.injEq] at hnamed
  exact hnamed.symm

@[simp] theorem job?_empty (t : String) : empty.job? t = none := rfl

theorem add?_eq_some {r r' : Registry} {job : RefreshJob} (h : r.add? job = some r') :
    r.jobs.get? job.accessToken = none ∧ r'.objects = r.objects ++ [job] ∧
      r.jobs.insert? ⟨job.accessToken, r.objects.length⟩ = some r'.jobs := by
  unfold add? at h
  split at h
  · cases h
  · rename_i jobs hinsert
    obtain rfl := Option.some.inj h
    refine ⟨?_, rfl, hinsert⟩
    refine List.find?_eq_none.mpr fun e he => ?_
    have hne : e.accessToken ≠ job.accessToken := fun hkey =>
      (Table.insert?_eq_some hinsert).1 (List.mem_map.mpr ⟨e, he, hkey⟩)
    simpa using hne

/-- A token that is not in the dictionary can be added. -/
theorem add?_of_none {r : Registry} {job : RefreshJob} (h : r.job? job.accessToken = none) :
    ∃ r', r.add? job = some r' := by
  unfold add?
  split
  · rename_i hinsert
    unfold Table.insert? at hinsert
    split at hinsert
    · rename_i hmem
      rcases List.mem_map.mp hmem with ⟨e, he, hkey⟩
      have hget := Table.get?_of_mem he
      rw [hkey, job?_eq_none.mp h] at hget
      cases hget
    · cases hinsert
  · exact ⟨_, rfl⟩

theorem job?_add {r r' : Registry} {job : RefreshJob} (h : r.add? job = some r') (t : String) :
    r'.job? t = if t = job.accessToken then some job else r.job? t := by
  rcases add?_eq_some h with ⟨hnone, hobjects, hinsert⟩
  have hrows := (Table.insert?_eq_some hinsert).2
  have hget : r'.jobs.get? t =
      if t = job.accessToken then some ⟨job.accessToken, r.objects.length⟩
      else r.jobs.get? t := by
    unfold Table.get?
    rw [hrows, List.find?_append]
    by_cases ht : t = job.accessToken
    · subst ht
      have hold : r.jobs.rows.find? (fun e => decide (e.accessToken = job.accessToken)) = none :=
        hnone
      rw [hold, if_pos rfl]
      simp
    · have hne : job.accessToken ≠ t := fun heq => ht heq.symm
      rw [if_neg ht]
      simp [hne]
  unfold job?
  rw [hget, hobjects]
  by_cases ht : t = job.accessToken
  · simp [ht]
  · rw [if_neg ht, if_neg ht]
    cases hold : r.jobs.get? t with
    | none => rfl
    | some e =>
        rcases job?_of_get? hold with ⟨old, hobject, -⟩
        rw [Option.bind_some, Option.bind_some,
          List.getElem?_append_left (List.getElem?_eq_some_iff.mp hobject).1]

theorem job?_remove (r : Registry) (k t : String) :
    (r.remove k).job? t = if t = k then none else r.job? t := by
  have hget := Table.map_get?_delete_key id r.jobs k t
  simp only [Option.map_id_fun, id_eq] at hget
  unfold job? remove
  rw [hget]
  by_cases ht : t = k
  · simp [ht]
  · simp [ht]

/-- An assignment to the object of a token shows under this token only. -/
theorem job?_modify {r : Registry} {k : String} {e : JobEntry} (h : r.jobs.get? k = some e)
    (f : RefreshJob → RefreshJob) (t : String) :
    (r.modify e.object f).job? t =
      if t = k then (r.job? k).map (RefreshJob.assign f) else r.job? t := by
  unfold job? modify
  dsimp only
  by_cases ht : t = k
  · subst ht
    rw [h, if_pos rfl, Option.bind_some, Option.bind_some, List.getElem?_modify_eq]
    rfl
  · rw [if_neg ht]
    cases hget : r.jobs.get? t with
    | none => rfl
    | some e' =>
        have hne : e.object ≠ e'.object := fun hobject =>
          ht (token_eq_of_object_eq h hget hobject).symm
        rw [Option.bind_some, Option.bind_some, List.getElem?_modify]
        simp [hne]

end Registry

/-! ## The table -/

/-- A row of `scheduled_refresh_jobs`. -/
structure ScheduledRefreshJob where
  accessToken : String
  userId : Nat
  intervalSeconds : Int
  scheduleFormat : ScheduleFormat
  enabled : Bool
  lastRefreshed : Option Int
  lastError : Option String
  consecutiveFailures : Nat
deriving Repr, DecidableEq

abbrev Rows := Table ScheduledRefreshJob ScheduledRefreshJob.accessToken

/-- The columns that `_persist_job` writes, for a row of this user. -/
def RefreshJob.toRow (job : RefreshJob) (userId : Nat) : ScheduledRefreshJob where
  accessToken := job.accessToken
  userId := userId
  intervalSeconds := job.intervalSeconds
  scheduleFormat := job.scheduleFormat
  enabled := job.enabled
  -- the column drops the timezone
  lastRefreshed := job.lastRefreshed.map (·.micros)
  lastError := job.lastError
  consecutiveFailures := job.consecutiveFailures

/-- `_persist_job`; an error is logged and the table stays as it is. -/
def persistJob (rows : Rows) (job : RefreshJob) (succeeds : Bool) : Rows :=
  if succeeds then
    match rows.get? job.accessToken with
    -- the row keeps its user
    | some row => rows.put (job.toRow row.userId)
    | none => (rows.insert? (job.toRow job.userId)).getD rows
  else rows

/-- `_delete_persisted_job`; an error is logged. -/
def deletePersistedJob (rows : Rows) (accessToken : String) (succeeds : Bool) : Rows :=
  if succeeds then rows.delete (·.accessToken == accessToken) else rows

/-- The job that `load_from_db` makes of a row. -/
def ScheduledRefreshJob.toJob (row : ScheduledRefreshJob) : RefreshJob where
  accessToken := row.accessToken
  userId := row.userId
  intervalSeconds := row.intervalSeconds
  scheduleFormat := row.scheduleFormat
  lastRefreshed := row.lastRefreshed.map fun micros => ⟨micros, false⟩
  lastError := row.lastError
  consecutiveFailures := row.consecutiveFailures
  enabled := row.enabled

/-- `load_from_db` of a fresh scheduler. -/
def loadFromDb (rows : Rows) : Registry :=
  (rows.rows.filter (·.enabled)).foldl (fun r row => (r.add? row.toJob).getD r) .empty

/-- Reading after a write to the table that succeeds. -/
theorem get?_persistJob (rows : Rows) (job : RefreshJob) (t : String) :
    (persistJob rows job true).get? t =
      if t = job.accessToken then
        some (job.toRow ((rows.get? job.accessToken).elim job.userId (·.userId)))
      else rows.get? t := by
  unfold persistJob
  rw [if_pos rfl]
  cases hget : rows.get? job.accessToken with
  | some row =>
      rw [Table.get?_put_eq]
      have hkey : (job.toRow row.userId).accessToken = job.accessToken := rfl
      rw [hkey]
      by_cases ht : t = job.accessToken
      · rw [if_pos ht, if_pos ht, ht, hget]
        rfl
      · rw [if_neg ht, if_neg ht]
  | none =>
      dsimp only
      cases hinsert : rows.insert? (job.toRow job.userId) with
      | none =>
          unfold Table.insert? at hinsert
          split at hinsert
          · rename_i hmem
            rcases List.mem_map.mp hmem with ⟨row, hrow, hkey⟩
            have hfound := Table.get?_of_mem hrow
            rw [show row.accessToken = job.accessToken from hkey, hget] at hfound
            cases hfound
          · cases hinsert
      | some rows' =>
          have hrows := (Table.insert?_eq_some hinsert).2
          rw [Option.getD_some]
          by_cases ht : t = job.accessToken
          · subst ht
            rw [if_pos rfl]
            refine Table.get?_eq_some_iff.mpr ⟨?_, rfl⟩
            rw [hrows]
            simp
          · rw [if_neg ht]
            have hne : job.accessToken ≠ t := fun heq => ht heq.symm
            unfold Table.get?
            rw [hrows, List.find?_append]
            simp [RefreshJob.toRow, hne]

/-- A write for one token leaves the rows of the others. -/
theorem get?_persistJob_of_ne {rows : Rows} {job : RefreshJob} {persists : Bool} {t : String}
    (h : t ≠ job.accessToken) : (persistJob rows job persists).get? t = rows.get? t := by
  cases persists with
  | false => rfl
  | true => rw [get?_persistJob, if_neg h]

/-- Reading after a deletion that succeeds. -/
theorem get?_deletePersistedJob (rows : Rows) (k t : String) :
    (deletePersistedJob rows k true).get? t = if t = k then none else rows.get? t := by
  have hget := Table.map_get?_delete_key id rows k t
  simp only [Option.map_id_fun, id_eq] at hget
  exact hget

/-! ## The operations -/

structure Scheduler where
  registry : Registry
  rows : Rows

namespace Scheduler

def empty : Scheduler := ⟨.empty, .empty⟩

/-- `schedule`. -/
def schedule (lower : String → String) (s : Scheduler) (accessToken : String) (userId : Nat)
    (intervalSeconds : Option Int) (scheduleFormat : Option String) (persists : Bool) :
    Except String Scheduler := do
  let interval := (intervalSeconds.filter (· ≠ 0)).getD defaultInterval
  let (fmt, resolvedInterval) ← resolveSchedule lower scheduleFormat (some interval)
  let registry := match s.registry.jobs.get? accessToken with
    | some e => s.registry.modify e.object (RefreshJob.rescheduled fmt resolvedInterval)
    | none => (s.registry.add? {
        accessToken
        userId
        intervalSeconds := resolvedInterval
        scheduleFormat := fmt }).getD s.registry
  return { registry, rows := (registry.job? accessToken).elim s.rows fun job =>
    persistJob s.rows job persists }

/-- The part of `update` for the format and the interval. -/
def reformatted (lower : String → String) (job : RefreshJob) (intervalSeconds : Option Int)
    (scheduleFormat : Option String) : Except String RefreshJob :=
  if scheduleFormat.isSome || intervalSeconds.isSome then
    (resolveSchedule lower
        (some ((scheduleFormat.filter (· ≠ "")).getD job.scheduleFormat.name))
        (some ((intervalSeconds.filter (· ≠ 0)).getD job.intervalSeconds))).map fun r =>
      { job with scheduleFormat := r.1, intervalSeconds := r.2 }
  else .ok job

/-- The part of `update` for the flag. -/
def enabledAs (enabled : Option Bool) (job : RefreshJob) : RefreshJob :=
  match enabled with
  | none => job
  | some enabled =>
      { job with
        enabled := enabled
        consecutiveFailures := if enabled then 0 else job.consecutiveFailures }

/-- `update`; it returns whether there is a job. -/
def update (lower : String → String) (s : Scheduler) (accessToken : String)
    (intervalSeconds : Option Int) (scheduleFormat : Option String) (enabled : Option Bool)
    (persists : Bool) : Except String (Scheduler × Bool) :=
  match s.registry.jobs.get? accessToken, s.registry.job? accessToken with
  | some e, some job =>
      (reformatted lower job intervalSeconds scheduleFormat).map fun job =>
        ({ registry := s.registry.modify e.object fun _ => enabledAs enabled job
           rows := persistJob s.rows (enabledAs enabled job) persists }, true)
  | _, _ => .ok (s, false)

/-- `unschedule`; it returns whether there was a job. -/
def unschedule (s : Scheduler) (accessToken : String) (deletes : Bool) : Scheduler × Bool :=
  if (s.registry.job? accessToken).isSome then
    ({ registry := s.registry.remove accessToken
       rows := deletePersistedJob s.rows accessToken deletes }, true)
  else (s, false)

/-- The due jobs of a tick of `_run_loop`. One job that raises ends the tick. -/
def dueJobs (s : Scheduler) (now : DateTime) : Except String (List JobEntry) :=
  s.registry.jobs.rows.filterM fun e =>
    match s.registry.objects[e.object]? with
    | none => .ok false
    | some job => if job.enabled then isDue job now else .ok false

/-- `jobs_for_user`. -/
def jobsForUser (s : Scheduler) (userId : Nat) : List RefreshJob :=
  s.registry.values.filter (·.userId == userId)

/-! ### What the operations write -/

/-- The token has this job afterwards, the row was written from it, and nothing
else has changed. -/
structure Writes (s t : Scheduler) (accessToken : String) (job : RefreshJob)
    (persists : Bool) : Prop where
  jobs : ∀ k, t.registry.job? k =
    if k = accessToken then some job else s.registry.job? k
  token : job.accessToken = accessToken
  rows : t.rows = persistJob s.rows job persists

/-- An assignment to the job of a token that is then written to the table. -/
theorem writes_modify {s : Scheduler} {k : String} {e : JobEntry} {job : RefreshJob}
    (hget : s.registry.jobs.get? k = some e) (hjob : s.registry.job? k = some job)
    (f : RefreshJob → RefreshJob) (persists : Bool) :
    Writes s ⟨s.registry.modify e.object f, persistJob s.rows (job.assign f) persists⟩ k
      (job.assign f) persists := by
  refine ⟨?_, ?_, rfl⟩
  · intro k'
    rw [Registry.job?_modify hget, hjob, Option.map_some]
  · rw [RefreshJob.assign_accessToken]
    exact Registry.token_of_job? hjob

theorem schedule_writes {lower : String → String} {s t : Scheduler} {accessToken : String}
    {userId : Nat} {intervalSeconds : Option Int} {scheduleFormat : Option String}
    {persists : Bool}
    (h : s.schedule lower accessToken userId intervalSeconds scheduleFormat persists = .ok t) :
    ∃ job, Writes s t accessToken job persists ∧
      job.userId = (s.registry.job? accessToken).elim userId (·.userId) := by
  unfold schedule at h
  simp only [bind, Except.bind] at h
  split at h
  · cases h
  · rename_i r hresolve
    obtain rfl := Except.ok.inj h
    cases hget : s.registry.jobs.get? accessToken with
    | some e =>
        rcases Registry.job?_of_get? hget with ⟨job, -, hjob⟩
        have hwrites := writes_modify hget hjob (RefreshJob.rescheduled r.1 r.2) persists
        have hnew := hwrites.jobs accessToken
        rw [if_pos rfl] at hnew
        refine ⟨job.assign (RefreshJob.rescheduled r.1 r.2), ?_, by rw [hjob]; rfl⟩
        dsimp only at hnew ⊢
        rw [hnew]
        exact hwrites
    | none =>
        have hnone := Registry.job?_eq_none.mpr hget
        let job : RefreshJob := {
          accessToken, userId, intervalSeconds := r.2, scheduleFormat := r.1 }
        rcases Registry.add?_of_none (show s.registry.job? job.accessToken = none from hnone) with ⟨registry, hadd⟩
        refine ⟨job, ?_, by rw [hnone]; rfl⟩
        have hnew := Registry.job?_add hadd
        have hjob : registry.job? accessToken = some job := by
          rw [hnew]
          exact if_pos rfl
        dsimp only
        rw [hadd, Option.getD_some, hjob]
        exact ⟨hnew, rfl, rfl⟩

/-- An update keeps the token and the user. -/
theorem assign_reformatted {lower : String → String} {old job : RefreshJob}
    {intervalSeconds : Option Int} {scheduleFormat : Option String}
    (h : reformatted lower old intervalSeconds scheduleFormat = .ok job)
    (enabled : Option Bool) :
    old.assign (fun _ => enabledAs enabled job) = enabledAs enabled job := by
  have hkept : job.accessToken = old.accessToken ∧ job.userId = old.userId := by
    unfold reformatted at h
    split at h
    · cases hresolve : resolveSchedule lower
          (some ((scheduleFormat.filter (· ≠ "")).getD old.scheduleFormat.name))
          (some ((intervalSeconds.filter (· ≠ 0)).getD old.intervalSeconds)) with
      | error e =>
          rw [hresolve] at h
          cases h
      | ok r =>
          rw [hresolve] at h
          obtain rfl := Except.ok.inj h
          exact ⟨rfl, rfl⟩
    · obtain rfl := Except.ok.inj h
      exact ⟨rfl, rfl⟩
  cases enabled with
  | none => simp [RefreshJob.assign, enabledAs, ← hkept.1, ← hkept.2]
  | some enabled => simp [RefreshJob.assign, enabledAs, ← hkept.1, ← hkept.2]

theorem update_writes {lower : String → String} {s t : Scheduler} {accessToken : String}
    {intervalSeconds : Option Int} {scheduleFormat : Option String} {enabled : Option Bool}
    {persists found : Bool}
    (h : s.update lower accessToken intervalSeconds scheduleFormat enabled persists =
      .ok (t, found)) :
    (s.registry.job? accessToken = none ∧ t = s) ∨
      ∃ old job, s.registry.job? accessToken = some old ∧
        Writes s t accessToken job persists ∧ job.userId = old.userId := by
  unfold update at h
  cases hget : s.registry.jobs.get? accessToken with
  | none =>
      rw [hget] at h
      obtain ⟨rfl, -⟩ := Prod.mk.inj (Except.ok.inj h)
      exact .inl ⟨Registry.job?_eq_none.mpr hget, rfl⟩
  | some e =>
      rcases Registry.job?_of_get? hget with ⟨old, -, hold⟩
      rw [hget, hold] at h
      dsimp only at h
      cases hupdated : reformatted lower old intervalSeconds scheduleFormat with
      | error text =>
          rw [hupdated] at h
          cases h
      | ok job =>
          rw [hupdated] at h
          obtain ⟨rfl, -⟩ := Prod.mk.inj (Except.ok.inj h)
          have hassign := assign_reformatted hupdated enabled
          have hwrites := writes_modify hget hold (fun _ => enabledAs enabled job) persists
          rw [hassign] at hwrites
          refine .inr ⟨old, enabledAs enabled job, hold, hwrites, ?_⟩
          rw [← hassign]
          rfl

/-! ### How many jobs a user has -/

/-- The jobs of a user are counted in the dictionary. -/
theorem length_jobsForUser (s : Scheduler) (userId : Nat) :
    (s.jobsForUser userId).length = s.registry.jobs.rows.countP fun e =>
      s.registry.objects[e.object]?.any (·.userId == userId) := by
  unfold jobsForUser Registry.values
  rw [← List.countP_eq_length_filter, List.countP_filterMap]
  refine List.countP_congr fun e _ => ?_
  cases s.registry.objects[e.object]? with
  | none => simp
  | some job => simp

theorem count_modify (s : Scheduler) (object : Nat) (f : RefreshJob → RefreshJob) (rows : Rows)
    (userId : Nat) :
    (jobsForUser ⟨s.registry.modify object f, rows⟩ userId).length =
      (s.jobsForUser userId).length := by
  rw [length_jobsForUser, length_jobsForUser]
  refine List.countP_congr fun e _ => ?_
  rw [show (s.registry.modify object f).objects =
    s.registry.objects.modify object (RefreshJob.assign f) from rfl, List.getElem?_modify]
  cases s.registry.objects[e.object]? with
  | none => simp
  | some job =>
      by_cases h : object = e.object
      · simp [h]
      · simp [h]

theorem count_add {s : Scheduler} {job : RefreshJob} {registry : Registry}
    (h : s.registry.add? job = some registry) (rows : Rows) (userId : Nat) :
    (jobsForUser ⟨registry, rows⟩ userId).length =
      (s.jobsForUser userId).length + if job.userId = userId then 1 else 0 := by
  rcases Registry.add?_eq_some h with ⟨-, hobjects, hinsert⟩
  rw [length_jobsForUser, length_jobsForUser]
  dsimp only
  rw [(Table.insert?_eq_some hinsert).2, hobjects, List.countP_append, List.countP_singleton]
  congr 1
  · refine List.countP_congr fun e he => ?_
    rcases Option.map_eq_some_iff.mp (s.registry.named e he) with ⟨old, hold, -⟩
    rw [List.getElem?_append_left (List.getElem?_eq_some_iff.mp hold).1]
  · simp

theorem count_remove (s : Scheduler) (k : String) (rows : Rows) (userId : Nat) :
    (jobsForUser ⟨s.registry.remove k, rows⟩ userId).length ≤
      (s.jobsForUser userId).length := by
  rw [length_jobsForUser, length_jobsForUser]
  exact List.Sublist.countP_le List.filter_sublist

/-- A schedule adds a job if the token has none. -/
theorem schedule_count {lower : String → String} {s t : Scheduler} {accessToken : String}
    {owner : Nat} {intervalSeconds : Option Int} {scheduleFormat : Option String}
    {persists : Bool}
    (h : s.schedule lower accessToken owner intervalSeconds scheduleFormat persists = .ok t)
    (userId : Nat) :
    (t.jobsForUser userId).length = (s.jobsForUser userId).length +
      if s.registry.job? accessToken = none ∧ owner = userId then 1 else 0 := by
  unfold schedule at h
  simp only [bind, Except.bind] at h
  split at h
  · cases h
  · rename_i r hresolve
    obtain rfl := Except.ok.inj h
    cases hget : s.registry.jobs.get? accessToken with
    | some e =>
        rcases Registry.job?_of_get? hget with ⟨job, -, hjob⟩
        rw [count_modify, hjob]
        simp
    | none =>
        have hnone := Registry.job?_eq_none.mpr hget
        let job : RefreshJob := {
          accessToken, userId := owner, intervalSeconds := r.2, scheduleFormat := r.1 }
        rcases Registry.add?_of_none (show s.registry.job? job.accessToken = none from hnone) with ⟨registry, hadd⟩
        dsimp only
        rw [hadd, Option.getD_some, count_add hadd, hnone]
        simp [job]

theorem update_count {lower : String → String} {s t : Scheduler} {accessToken : String}
    {intervalSeconds : Option Int} {scheduleFormat : Option String} {enabled : Option Bool}
    {persists found : Bool}
    (h : s.update lower accessToken intervalSeconds scheduleFormat enabled persists =
      .ok (t, found)) (userId : Nat) :
    (t.jobsForUser userId).length = (s.jobsForUser userId).length := by
  unfold update at h
  split at h
  · rename_i e old _ _
    cases hupdated : reformatted lower old intervalSeconds scheduleFormat with
    | error text =>
        rw [hupdated] at h
        cases h
    | ok job =>
        rw [hupdated] at h
        obtain ⟨rfl, -⟩ := Prod.mk.inj (Except.ok.inj h)
        exact count_modify s _ _ _ userId
  · obtain ⟨rfl, -⟩ := Prod.mk.inj (Except.ok.inj h)
    rfl

theorem unschedule_eq {s t : Scheduler} {accessToken : String} {deletes removed : Bool}
    (h : s.unschedule accessToken deletes = (t, removed)) :
    (removed = false ∧ t = s ∧ s.registry.job? accessToken = none) ∨
      (removed = true ∧ t.registry = s.registry.remove accessToken ∧
        t.rows = deletePersistedJob s.rows accessToken deletes) := by
  unfold unschedule at h
  split at h
  · obtain ⟨rfl, rfl⟩ := Prod.mk.inj h
    exact .inr ⟨rfl, rfl, rfl⟩
  · rename_i hnone
    obtain ⟨rfl, rfl⟩ := Prod.mk.inj h
    exact .inl ⟨rfl, rfl, by simpa using hnone⟩

end Scheduler

end Plaidify.Refresh
