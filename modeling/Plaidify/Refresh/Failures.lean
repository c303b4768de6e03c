import Plaidify.Refresh.Unscheduling

/-!
# Jobs that keep failing

The tenth failure in a row disables a job. That holds for every job object and every row,
whatever is scheduled, updated, in flight, lost on the way to the table or loaded from it
again: an enabled job has less than ten failures behind it, so that the backoff of a job
that is run is at most 2⁹ intervals.
-/

namespace Plaidify.Refresh

/-! ## The invariant -/

/-- If the job is enabled, it has not failed ten times in a row. -/
def Capped (job : RefreshJob) : Prop :=
  job.enabled = true → job.consecutiveFailures < maxConsecutiveFailures

/-- All job objects and all rows are capped, also those of jobs that are gone. -/
structure CappedScheduler (s : Scheduler) : Prop where
  objects : ∀ job ∈ s.registry.objects, Capped job
  rows : ∀ row ∈ s.rows.rows, Capped row.toJob

/-- A job that has not failed is below the limit. -/
theorem capped_of_failures_zero {job : RefreshJob} (h : job.consecutiveFailures = 0) :
    Capped job := by
  intro _
  rw [h]
  decide

/-- An outcome leaves a capped job capped: the tenth failure disables it. -/
theorem Capped.apply {job : RefreshJob} (h : Capped job) (outcome : Outcome) (now : DateTime) :
    Capped (outcome.apply now job) := by
  cases outcome with
  | refreshed hasData => exact capped_of_failures_zero rfl
  | cancelled => exact h
  | failed error =>
    intro henabled
    have hboth : job.enabled = true ∧ job.consecutiveFailures + 1 < maxConsecutiveFailures := by
      simpa [Outcome.apply, RefreshJob.failed] using henabled
    exact hboth.2

/-- Turning a job on forgets its failures, and turning it off is harmless. -/
theorem Capped.enabledAs {job : RefreshJob} (h : Capped job) (enabled : Option Bool) :
    Capped (Scheduler.enabledAs enabled job) := by
  cases enabled with
  | none => exact h
  | some enabled =>
    cases enabled with
    | true => exact capped_of_failures_zero rfl
    | false => exact fun henabled => absurd henabled Bool.false_ne_true

/-- A new schedule leaves the failures. -/
theorem Capped.reformatted {lower : String → String} {job job' : RefreshJob}
    {intervalSeconds : Option Int} {scheduleFormat : Option String} (h : Capped job)
    (hjob : Scheduler.reformatted lower job intervalSeconds scheduleFormat = .ok job') :
    Capped job' := by
  unfold Scheduler.reformatted at hjob
  split at hjob
  · cases hresolve : resolveSchedule lower
        (some ((scheduleFormat.filter (· ≠ "")).getD job.scheduleFormat.name))
        (some ((intervalSeconds.filter (· ≠ 0)).getD job.intervalSeconds)) with
    | error text =>
      rw [hresolve] at hjob
      cases hjob
    | ok resolved =>
      rw [hresolve] at hjob
      rw [← Except.ok.inj hjob]
      exact h
  · rw [← Except.ok.inj hjob]
    exact h

/-! ## Objects and rows -/

/-- An assignment to one object. -/
theorem objects_modify {r : Registry} {f : RefreshJob → RefreshJob} {object : Nat}
    (h : ∀ job ∈ r.objects, Capped job)
    (hf : ∀ job, r.objects[object]? = some job → Capped (f job)) :
    ∀ job ∈ (r.modify object f).objects, Capped job := by
  intro job hjob
  obtain ⟨i, hi⟩ := List.mem_iff_getElem?.mp hjob
  have hmodify : (r.modify object f).objects = r.objects.modify object (RefreshJob.assign f) := rfl
  rw [hmodify, List.getElem?_modify] at hi
  obtain ⟨old, hold, rfl⟩ := Option.map_eq_some_iff.mp hi
  by_cases hobject : object = i
  · rw [if_pos hobject]
    exact hf old (hobject ▸ hold)
  · rw [if_neg hobject]
    exact h old (List.mem_of_getElem? hold)

/-- A job comes to the registry. -/
theorem objects_add {r r' : Registry} {job : RefreshJob} (h : ∀ job ∈ r.objects, Capped job)
    (hjob : Capped job) (hadd : r.add? job = some r') : ∀ job ∈ r'.objects, Capped job := by
  rw [(Registry.add?_eq_some hadd).2.1]
  exact List.forall_mem_append.mpr ⟨h, List.forall_mem_singleton.mpr hjob⟩

/-- A row that is written holds what the job holds. -/
theorem rows_persistJob {rows : Rows} {job : RefreshJob} (h : ∀ row ∈ rows.rows, Capped row.toJob)
    (hjob : Capped job) (persists : Bool) :
    ∀ row ∈ (persistJob rows job persists).rows, Capped row.toJob := by
  intro row hrow
  unfold persistJob at hrow
  split at hrow
  · split at hrow
    · rcases Table.mem_put hrow with rfl | ⟨hold, -⟩
      · exact hjob
      · exact h row hold
    · cases hinsert : rows.insert? (job.toRow job.userId) with
      | none =>
        rw [hinsert] at hrow
        exact h row hrow
      | some rows' =>
        rw [hinsert, Option.getD_some, (Table.insert?_eq_some hinsert).2] at hrow
        rcases List.mem_append.mp hrow with hold | hnew
        · exact h row hold
        · rw [List.mem_singleton.mp hnew]
          exact hjob
  · exact h row hrow

/-- The job that is written to the table is one of the objects. -/
theorem mem_objects_of_job? {r : Registry} {accessToken : String} {job : RefreshJob}
    (h : r.job? accessToken = some job) : job ∈ r.objects := by
  obtain ⟨e, -, hobject⟩ := Registry.job?_eq_some.mp h
  exact List.mem_of_getElem? hobject

/-- The jobs of a restart are those of the enabled rows. -/
theorem objects_loadFromDb {rows : Rows} (h : ∀ row ∈ rows.rows, Capped row.toJob) :
    ∀ job ∈ (loadFromDb rows).objects, Capped job := by
  have hfold : ∀ (loaded : List ScheduledRefreshJob) (r : Registry),
      (∀ row ∈ loaded, Capped row.toJob) → (∀ job ∈ r.objects, Capped job) →
        ∀ job ∈ (loaded.foldl (fun r row => (r.add? row.toJob).getD r) r).objects, Capped job := by
    intro loaded
    induction loaded with
    | nil => exact fun r _ hr => hr
    | cons row loaded ih =>
      intro r hloaded hr
      obtain ⟨hrow, hloaded⟩ := List.forall_mem_cons.mp hloaded
      refine ih _ hloaded ?_
      dsimp only
      cases hadd : r.add? row.toJob with
      | none => exact hr
      | some r' => exact objects_add hr hrow hadd
  exact hfold _ _ (fun row hrow => h row (List.mem_filter.mp hrow).1)
    fun job hjob => absurd hjob List.not_mem_nil

/-! ## Every operation -/

/-- The object that `schedule` makes or assigns to starts without failures. -/
theorem objects_scheduled {lower : String → String} {s t : Scheduler} {accessToken : String}
    {userId : Nat} {intervalSeconds : Option Int} {scheduleFormat : Option String}
    {persists : Bool} (hs : ∀ job ∈ s.registry.objects, Capped job)
    (h : s.schedule lower accessToken userId intervalSeconds scheduleFormat persists = .ok t) :
    ∀ job ∈ t.registry.objects, Capped job := by
  unfold Scheduler.schedule at h
  simp only [bind, Except.bind] at h
  split at h
  · cases h
  · next resolved _ =>
    rw [← Except.ok.inj h]
    dsimp only
    split
    · exact objects_modify hs fun _ _ => capped_of_failures_zero rfl
    · cases hadd : s.registry.add? {
          accessToken
          userId
          intervalSeconds := resolved.2
          scheduleFormat := resolved.1 } with
      | none => exact hs
      | some registry => exact objects_add hs (capped_of_failures_zero rfl) hadd

/-- A schedule starts a job anew. -/
theorem capped_schedule {lower : String → String} {s t : Scheduler} {accessToken : String}
    {userId : Nat} {intervalSeconds : Option Int} {scheduleFormat : Option String}
    {persists : Bool} (hs : CappedScheduler s)
    (h : s.schedule lower accessToken userId intervalSeconds scheduleFormat persists = .ok t) :
    CappedScheduler t := by
  have hobjects := objects_scheduled hs.objects h
  obtain ⟨job, hwrites, -⟩ := Scheduler.schedule_writes h
  have hjob : t.registry.job? accessToken = some job := by
    rw [hwrites.jobs, if_pos rfl]
  refine ⟨hobjects, ?_⟩
  rw [hwrites.rows]
  exact rows_persistJob hs.rows (hobjects job (mem_objects_of_job? hjob)) persists

/-- An update that enables a job clears its failures. -/
theorem capped_update {lower : String → String} {s t : Scheduler} {accessToken : String}
    {intervalSeconds : Option Int} {scheduleFormat : Option String} {enabled : Option Bool}
    {persists found : Bool} (hs : CappedScheduler s)
    (h : s.update lower accessToken intervalSeconds scheduleFormat enabled persists =
      .ok (t, found)) : CappedScheduler t := by
  unfold Scheduler.update at h
  split at h
  · next e old _ hold =>
    cases hjob : Scheduler.reformatted lower old intervalSeconds scheduleFormat with
    | error text =>
      rw [hjob] at h
      cases h
    | ok job =>
      rw [hjob] at h
      obtain ⟨rfl, -⟩ := Prod.mk.inj (Except.ok.inj h)
      have hcapped := ((hs.objects old (mem_objects_of_job? hold)).reformatted hjob).enabledAs enabled
      exact ⟨objects_modify hs.objects fun _ _ => hcapped, rows_persistJob hs.rows hcapped persists⟩
  · obtain ⟨rfl, -⟩ := Prod.mk.inj (Except.ok.inj h)
    exact hs

/-- A job that is dropped is not run again. -/
theorem capped_unschedule {s t : Scheduler} {accessToken : String} {deletes removed : Bool}
    (hs : CappedScheduler s) (h : s.unschedule accessToken deletes = (t, removed)) :
    CappedScheduler t := by
  rcases Scheduler.unschedule_eq h with ⟨-, rfl, -⟩ | ⟨-, hregistry, hrows⟩
  · exact hs
  · refine ⟨?_, ?_⟩
    · rw [hregistry]
      exact hs.objects
    · rw [hrows]
      unfold deletePersistedJob
      split
      · exact fun row hrow => hs.rows row (List.mem_filter.mp hrow).1
      · exact hs.rows

/-- A run that ends writes its job. -/
theorem capped_finish {s : LiveScheduler} {flight : Flight} {job : RefreshJob} {persists : Bool}
    (hs : CappedScheduler s.scheduler) (hjob : Capped job) :
    CappedScheduler (s.finish flight job persists).scheduler :=
  ⟨hs.objects, rows_persistJob hs.rows hjob persists⟩

/-- A run that fails for the tenth time disables its job. -/
theorem capped_fetched {webhook : Bool} {s t : LiveScheduler} {flight : Flight} {outcome : Outcome}
    {now : DateTime} {persists : Bool} (hs : CappedScheduler s.scheduler)
    (h : s.fetched webhook flight outcome now persists = some t) : CappedScheduler t.scheduler := by
  unfold LiveScheduler.fetched at h
  split at h
  · obtain ⟨job, hjob, rfl⟩ := Option.map_eq_some_iff.mp h
    have hcapped : Capped (job.assign (outcome.apply now)) :=
      Capped.apply (hs.objects job (List.mem_of_getElem? hjob)) outcome now
    have hmodified : CappedScheduler ⟨s.scheduler.registry.modify flight.object (outcome.apply now),
        s.scheduler.rows⟩ :=
      ⟨objects_modify hs.objects fun old hold =>
        Capped.apply (hs.objects old (List.mem_of_getElem? hold)) outcome now, hs.rows⟩
    dsimp only
    split
    · exact hmodified
    · exact capped_finish hmodified hcapped
  · cases h

/-- Every step keeps the jobs below the limit. -/
theorem capped_step {lower : String → String} {webhook : Bool} {s t : LiveScheduler}
    {l : LiveLabel} (hs : CappedScheduler s.scheduler) (h : liveStep lower webhook s l = some t) :
    CappedScheduler t.scheduler := by
  cases l with
  | schedule k userId interval format persists =>
    simp only [liveStep] at h
    split at h
    · rw [← Option.some.inj h]
      exact hs
    · next hop =>
      rw [← Option.some.inj h]
      exact capped_schedule hs hop
  | update k interval format enabled persists =>
    simp only [liveStep] at h
    split at h
    · rw [← Option.some.inj h]
      exact hs
    · next hop =>
      rw [← Option.some.inj h]
      exact capped_update hs hop
  | unschedule k deletes =>
    simp only [liveStep] at h
    split at h
    · next hop =>
      rw [← Option.some.inj h]
      exact capped_unschedule hs hop
    · next hop =>
      rw [← Option.some.inj h]
      exact capped_unschedule hs hop
  | tick now =>
    simp only [liveStep] at h
    split at h
    · rw [← Option.some.inj h]
      exact hs
    · rw [← Option.some.inj h]
      exact hs
  | fetched flight outcome now persists => exact capped_fetched hs h
  | notified flight persists =>
    simp only [liveStep] at h
    split at h
    · obtain ⟨job, hjob, rfl⟩ := Option.map_eq_some_iff.mp h
      exact capped_finish hs (hs.objects job (List.mem_of_getElem? hjob))
    · cases h
  | dropped flight =>
    simp only [liveStep] at h
    split at h
    · rw [← Option.some.inj h]
      exact hs
    · cases h
  | restart =>
    rw [← Option.some.inj h]
    exact ⟨objects_loadFromDb hs.rows, hs.rows⟩

/-- At the start there are no jobs. -/
theorem capped_empty : CappedScheduler LiveScheduler.empty.scheduler :=
  ⟨fun _ hjob => absurd hjob List.not_mem_nil, fun _ hrow => absurd hrow List.not_mem_nil⟩

/-- In every state of every run, an enabled job has failed less than ten times in a row:
the jobs that are scheduled, those that a run still holds, and the rows. -/
theorem enabled_failures_lt {lower : String → String} {webhook : Bool} {run : List LiveLabel}
    {s : LiveScheduler} (h : Runs.exec (liveStep lower webhook) LiveScheduler.empty run = some s) :
    (∀ job ∈ s.scheduler.registry.objects,
      job.enabled = true → job.consecutiveFailures < maxConsecutiveFailures) ∧
    ∀ row ∈ s.scheduler.rows.rows,
      row.enabled = true → row.consecutiveFailures < maxConsecutiveFailures := by
  have hcapped : CappedScheduler s.scheduler :=
    Runs.invariant (I := fun s => CappedScheduler s.scheduler) (fun _ _ _ => capped_step)
      capped_empty h
  exact ⟨hcapped.objects, hcapped.rows⟩

/-- A job that fails ten times. -/
def failingJob : List LiveLabel :=
  .schedule "acc-1" 1 (some 600) none true ::
    (List.range 10).flatMap fun n =>
      [.tick (100000000000 * (n + 1)), .fetched ⟨0, .fetching⟩ (.failed "gone") (100000000000 * n) true]

theorem failingJob_failures_lt :
    ∃ s, Runs.exec (liveStep id false) LiveScheduler.empty failingJob = some s ∧
      (s.scheduler.registry.objects.map fun job => (job.enabled, job.consecutiveFailures)) =
        [(false, 10)] ∧
      ∀ job ∈ s.scheduler.registry.objects,
        job.enabled = true → job.consecutiveFailures < maxConsecutiveFailures := by
  have hrun : (Runs.exec (liveStep id false) LiveScheduler.empty failingJob).map
      (fun s => s.scheduler.registry.objects.map fun job =>
        (job.enabled, job.consecutiveFailures)) = some [(false, 10)] := by
    decide +kernel
  obtain ⟨s, hs, hobjects⟩ := Option.map_eq_some_iff.mp hrun
  exact ⟨s, hs, hobjects, (enabled_failures_lt hs).1⟩

end Plaidify.Refresh
