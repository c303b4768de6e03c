import Plaidify.Refresh.Scheduler

/-!
# What a restart leaves of the refresh scheduler

A fresh scheduler calls `load_from_db` on the rows of the one before. The runs
here are sequences of the operations of `RefreshScheduler` in which every write
to the table succeeds, with restarts between them.
-/

namespace Plaidify.Refresh

variable {lower : String → String}

inductive SchedulerLabel where
  | schedule (accessToken : String) (userId : Nat) (intervalSeconds : Option Int)
      (scheduleFormat : Option String)
  | update (accessToken : String) (intervalSeconds : Option Int)
      (scheduleFormat : Option String) (enabled : Option Bool)
  | unschedule (accessToken : String)
  /-- A job that a tick found due is executed. -/
  | execute (accessToken : String) (tick : Int) (outcome : Outcome) (now : Int)
  /-- A fresh scheduler loads the rows. -/
  | restart
deriving Repr, DecidableEq

/-- An enabled job that is due is executed, and saved in the end. -/
def Scheduler.execute (s : Scheduler) (accessToken : String) (tick : Int) (outcome : Outcome)
    (now : Int) : Option Scheduler :=
  match s.registry.jobs.get? accessToken, s.registry.job? accessToken with
  | some e, some job =>
      if job.enabled && (isDue job (utc tick)).toOption.getD false then
        some {
          registry := s.registry.modify e.object (outcome.apply (utc now))
          rows := persistJob s.rows (job.assign (outcome.apply (utc now))) true }
      else none
  | _, _ => none

/-- One operation. What it raises leaves the scheduler as it is. -/
def schedulerStep (lower : String → String) (s : Scheduler) :
    SchedulerLabel → Option Scheduler
  | .schedule accessToken userId intervalSeconds scheduleFormat =>
      some (((s.schedule lower accessToken userId intervalSeconds scheduleFormat true).toOption).getD
        s)
  | .update accessToken intervalSeconds scheduleFormat enabled =>
      some (((s.update lower accessToken intervalSeconds scheduleFormat enabled true).toOption.map
        Prod.fst).getD s)
  | .unschedule accessToken => some (s.unschedule accessToken true).1
  | .execute accessToken tick outcome now => s.execute accessToken tick outcome now
  | .restart => some { s with registry := loadFromDb s.rows }

/-- What a restart is to leave of a job. -/
def RefreshJob.shape (job : RefreshJob) : String × Nat × Int × ScheduleFormat × Bool × Nat :=
  (job.accessToken, job.userId, job.intervalSeconds, job.scheduleFormat, job.enabled,
    job.consecutiveFailures)

/-- A fresh scheduler that loads the rows has the same jobs, and at every time
it finds the same of them due, without raising. -/
structure SurvivesRestart (s : Scheduler) : Prop where
  jobs : ∀ t, ((loadFromDb s.rows).job? t).map RefreshJob.shape =
    (s.registry.job? t).map RefreshJob.shape
  due : ∀ t job loaded, s.registry.job? t = some job → (loadFromDb s.rows).job? t = some loaded →
    ∀ now, ∃ due, isDue job (utc now) = .ok due ∧ isDue loaded (utc now) = .ok due

/-- Every job is enabled and has never been executed to an end, and no row is
another user's. -/
def Untouched (s : Scheduler) : Prop :=
  ∀ t job, s.registry.job? t = some job →
    job.enabled = true ∧ job.lastRefreshed = none ∧
      ∀ row, s.rows.get? t = some row → row.userId = job.userId

/-- The tokens that have a job are the keys of the dictionary. -/
theorem untouched_iff {s : Scheduler} :
    Untouched s ↔ ∀ e ∈ s.registry.jobs.rows, ∀ job ∈ s.registry.job? e.accessToken,
      job.enabled = true ∧ job.lastRefreshed = none ∧
        ∀ row ∈ s.rows.get? e.accessToken, row.userId = job.userId := by
  constructor
  · intro h e _ job hjob
    exact h e.accessToken job hjob
  · intro h t job hjob
    rcases Registry.job?_eq_some.mp hjob with ⟨e, hget, -⟩
    rcases Table.get?_mem hget with ⟨he, rfl⟩
    exact h e he job hjob

instance (s : Scheduler) : Decidable (Untouched s) := decidable_of_iff' _ untouched_iff

/-! ## The loaded jobs -/

/-- A pass over rows of distinct tokens enters every row that has no job yet. -/
theorem job?_foldl_add (rows : List ScheduledRefreshJob)
    (hnodup : (rows.map (·.accessToken)).Nodup) (r : Registry)
    (hnew : ∀ row ∈ rows, r.job? row.accessToken = none) (t : String) :
    (rows.foldl (fun r row => (r.add? row.toJob).getD r) r).job? t =
      ((rows.find? fun row => decide (row.accessToken = t)).map (·.toJob)).or (r.job? t) := by
  induction rows generalizing r with
  | nil => simp
  | cons row rows ih =>
      rw [List.map_cons, List.nodup_cons] at hnodup
      have hnone : r.job? row.toJob.accessToken = none := hnew row List.mem_cons_self
      rcases Registry.add?_of_none hnone with ⟨r', hadd⟩
      have hjob := Registry.job?_add hadd
      have hrest : ∀ row' ∈ rows, r'.job? row'.accessToken = none := by
        intro row' hrow'
        have hne : row'.accessToken ≠ row.toJob.accessToken := fun heq =>
          hnodup.1 (List.mem_map.mpr ⟨row', hrow', heq⟩)
        rw [hjob, if_neg hne]
        exact hnew row' (List.mem_cons_of_mem _ hrow')
      rw [List.foldl_cons, hadd, Option.getD_some, ih hnodup.2 r' hrest, hjob, List.find?_cons]
      by_cases ht : t = row.accessToken
      · subst ht
        have hfind : rows.find? (fun row' => decide (row'.accessToken = row.accessToken)) =
            none := by
          refine List.find?_eq_none.mpr fun row' hrow' => ?_
          have hne : row'.accessToken ≠ row.accessToken := fun heq =>
            hnodup.1 (List.mem_map.mpr ⟨row', hrow', heq⟩)
          simpa using hne
        rw [hfind, if_pos (show row.accessToken = row.toJob.accessToken from rfl)]
        simp
      · have hne : row.accessToken ≠ t := fun heq => ht heq.symm
        rw [if_neg (show ¬t = row.toJob.accessToken from ht)]
        simp [hne]

/-- The loader makes a job of every enabled row. -/
theorem job?_loadFromDb (rows : Rows) (t : String) :
    (loadFromDb rows).job? t =
      ((rows.get? t).filter (·.enabled)).map ScheduledRefreshJob.toJob := by
  have hnodup : ((rows.rows.filter (·.enabled)).map (·.accessToken)).Nodup :=
    rows.nodup.sublist (List.filter_sublist.map _)
  unfold loadFromDb
  rw [job?_foldl_add _ hnodup _ (fun _ _ => rfl), Registry.job?_empty, Option.or_none]
  congr 1
  refine Option.ext fun row => ?_
  have hget : ((rows.delete fun r => !r.enabled).get? t) =
      (rows.rows.filter (·.enabled)).find? fun row => decide (row.accessToken = t) := by
    simp [Table.get?]
  rw [← hget, Table.get?_delete_eq_some, Option.filter_eq_some_iff]
  simp

/-! ## The rows -/

/-- Every job has its row, and the rows of no job are disabled. -/
structure Saved (s : Scheduler) : Prop where
  row : ∀ t job, s.registry.job? t = some job →
    ∃ userId, s.rows.get? t = some (job.toRow userId)
  left : ∀ t row, s.registry.job? t = none → s.rows.get? t = some row → row.enabled = false

theorem saved_empty : Saved Scheduler.empty := by
  constructor
  · intro t job h
    cases h
  · intro t row _ h
    cases h

/-- The new job has its row and the others keep theirs. -/
theorem saved_of_writes {s t : Scheduler} {k : String} {job : RefreshJob} (hs : Saved s)
    (h : Scheduler.Writes s t k job true) : Saved t := by
  have hrows : ∀ k', t.rows.get? k' =
      if k' = k then some (job.toRow ((s.rows.get? k).elim job.userId (·.userId)))
      else s.rows.get? k' := by
    intro k'
    rw [h.rows, get?_persistJob, h.token]
  constructor
  · intro k' job' hjob
    rw [h.jobs] at hjob
    rw [hrows]
    by_cases hk : k' = k
    · rw [if_pos hk, Option.some.injEq] at hjob
      rw [if_pos hk, hjob]
      exact ⟨_, rfl⟩
    · rw [if_neg hk] at hjob
      rw [if_neg hk]
      exact hs.row k' job' hjob
  · intro k' row hnone hrow
    rw [h.jobs] at hnone
    rw [hrows] at hrow
    by_cases hk : k' = k
    · rw [if_pos hk] at hnone
      cases hnone
    · rw [if_neg hk] at hnone hrow
      exact hs.left k' row hnone hrow

theorem saved_unschedule {s : Scheduler} (hs : Saved s) (k : String) :
    Saved (s.unschedule k true).1 := by
  rcases Scheduler.unschedule_eq (t := (s.unschedule k true).1) rfl with
    ⟨-, hsame, -⟩ | ⟨-, hregistry, hrows⟩
  · rw [hsame]
    exact hs
  · constructor
    · intro t job hjob
      rw [hregistry, Registry.job?_remove] at hjob
      rw [hrows, get?_deletePersistedJob]
      by_cases ht : t = k
      · rw [if_pos ht] at hjob
        cases hjob
      · rw [if_neg ht] at hjob
        rw [if_neg ht]
        exact hs.row t job hjob
    · intro t row hnone hrow
      rw [hregistry, Registry.job?_remove] at hnone
      rw [hrows, get?_deletePersistedJob] at hrow
      by_cases ht : t = k
      · rw [if_pos ht] at hrow
        cases hrow
      · rw [if_neg ht] at hnone hrow
        exact hs.left t row hnone hrow

/-- The column has no timezone, so that the row of a loaded job is the row that
it was made of. -/
theorem toRow_toJob (row : ScheduledRefreshJob) : row.toJob.toRow row.userId = row := by
  simp [RefreshJob.toRow, ScheduledRefreshJob.toJob, Function.comp_def]

theorem saved_restart (s : Scheduler) : Saved { s with registry := loadFromDb s.rows } := by
  constructor
  · intro t job hjob
    rw [job?_loadFromDb] at hjob
    rcases Option.map_eq_some_iff.mp hjob with ⟨row, hrow, rfl⟩
    rcases Option.filter_eq_some_iff.mp hrow with ⟨hget, -⟩
    exact ⟨row.userId, by rw [toRow_toJob]; exact hget⟩
  · intro t row hnone hrow
    have hloaded := job?_loadFromDb s.rows t
    rw [show s.rows.get? t = some row from hrow, hnone] at hloaded
    by_contra henabled
    simp [Option.filter, henabled] at hloaded

theorem execute_writes {s t : Scheduler} {k : String} {tick now : Int} {outcome : Outcome}
    (h : s.execute k tick outcome now = some t) :
    ∃ job, s.registry.job? k = some job ∧
      Scheduler.Writes s t k (job.assign (outcome.apply (utc now))) true := by
  unfold Scheduler.execute at h
  split at h
  · rename_i e job hget hjob
    split at h
    · obtain rfl := Option.some.inj h
      exact ⟨job, hjob, Scheduler.writes_modify hget hjob _ true⟩
    · cases h
  · cases h

theorem saved_step {s t : Scheduler} {l : SchedulerLabel} (hs : Saved s)
    (h : schedulerStep lower s l = some t) : Saved t := by
  cases l with
  | schedule k userId interval format =>
      obtain rfl := Option.some.inj h
      cases hop : s.schedule lower k userId interval format true with
      | error e => exact hs
      | ok t =>
          rcases Scheduler.schedule_writes hop with ⟨job, hwrites, -⟩
          exact saved_of_writes hs hwrites
  | update k interval format enabled =>
      obtain rfl := Option.some.inj h
      cases hop : s.update lower k interval format enabled true with
      | error e => exact hs
      | ok r =>
          rcases Scheduler.update_writes (show _ = Except.ok (r.1, r.2) from hop) with
            ⟨-, hsame⟩ | ⟨old, job, -, hwrites, -⟩
          · change Saved r.1
            rw [hsame]
            exact hs
          · exact saved_of_writes hs hwrites
  | unschedule k =>
      obtain rfl := Option.some.inj h
      exact saved_unschedule hs k
  | execute k tick outcome now =>
      rcases execute_writes h with ⟨job, -, hwrites⟩
      exact saved_of_writes hs hwrites
  | restart =>
      obtain rfl := Option.some.inj h
      exact saved_restart s

/-! ## Restarts -/

/-- A loaded time has no timezone, so that no time can be subtracted from it. -/
theorem isDue_toJob_raises {row : ScheduledRefreshJob} {micros : Int}
    (h : row.lastRefreshed = some micros) (now : Int) :
    isDue row.toJob (utc now) =
      .error "can't subtract offset-naive and offset-aware datetimes" := by
  simp [isDue, ScheduledRefreshJob.toJob, h, DateTime.sub, utc, Except.map]

/-- The jobs of a scheduler survive a restart exactly when all of them are
enabled and still to be executed for the first time. -/
theorem survivesRestart_iff {s : Scheduler} {tr : List SchedulerLabel}
    (h : Runs.exec (schedulerStep lower) Scheduler.empty tr = some s) :
    SurvivesRestart s ↔ Untouched s := by
  have hsaved := Runs.invariant (fun _ _ _ => saved_step) saved_empty h
  constructor
  · -- every job has a row, and the row of a job that survives is loaded
    intro hsurvives t job hjob
    rcases hsaved.row t job hjob with ⟨userId, hrow⟩
    have hloaded := job?_loadFromDb s.rows t
    have hshape := hsurvives.jobs t
    rw [hjob, hloaded, hrow] at hshape
    -- a disabled row is not loaded
    have henabled : job.enabled = true := by
      by_contra hoff
      simp [RefreshJob.toRow, Option.filter, hoff] at hshape
    rw [hrow, Option.filter_some, if_pos (show (job.toRow userId).enabled = true from henabled),
      Option.map_some] at hloaded
    refine ⟨henabled, ?_, ?_⟩
    · -- a job that was refreshed once raises when it is asked whether it is due
      cases hlast : job.lastRefreshed with
      | none => rfl
      | some last =>
          rcases hsurvives.due t job _ hjob hloaded 0 with ⟨due, -, hdue⟩
          have hcolumn : (job.toRow userId).lastRefreshed = some last.micros := by
            simp [RefreshJob.toRow, hlast]
          rw [isDue_toJob_raises hcolumn] at hdue
          cases hdue
    · -- the row has the user of the job
      intro row hget
      obtain rfl := Option.some.inj (hget.symm.trans hrow)
      simp only [RefreshJob.toRow, Option.filter_some, henabled, if_true, Option.map_some,
        RefreshJob.shape, ScheduledRefreshJob.toJob, Option.some.injEq, Prod.mk.injEq] at hshape
      exact hshape.2.1
  · intro huntouched
    -- a job that is loaded is the job in memory
    have hsame : ∀ t, (loadFromDb s.rows).job? t = s.registry.job? t := by
      intro t
      rw [job?_loadFromDb]
      cases hjob : s.registry.job? t with
      -- without a job there is no enabled row
      | none =>
          cases hget : s.rows.get? t with
          | none => rfl
          | some row => simp [Option.filter, hsaved.left t row hjob hget]
      | some job =>
          rcases hsaved.row t job hjob with ⟨userId, hrow⟩
          -- an untouched job is what its row says
          rcases huntouched t job hjob with ⟨henabled, hlast, huser⟩
          have howner : userId = job.userId := huser _ hrow
          rw [hrow]
          cases job
          simp_all [RefreshJob.toRow, ScheduledRefreshJob.toJob]
    constructor
    · intro t
      rw [hsame]
    · intro t job loaded hjob hloaded now
      -- so it is due as a new one is
      obtain rfl := Option.some.inj (hloaded.symm.trans ((hsame t).trans hjob))
      refine ⟨true, ?_, ?_⟩
      · simp [isDue, (huntouched t loaded hjob).2.1]
      · simp [isDue, (huntouched t loaded hjob).2.1]

/-- Two schedules that are still to be executed. -/
def scheduledOnly : List SchedulerLabel :=
  [.schedule "acc-1" 1 (some 600) none, .schedule "acc-2" 1 none (some "daily"),
    .update "acc-1" none (some "weekly") none]

theorem scheduledOnly_survives :
    ∃ s, Runs.exec (schedulerStep id) Scheduler.empty scheduledOnly = some s ∧
      s.registry.values.length = 2 ∧ SurvivesRestart s := by
  have hrun : (Runs.exec (schedulerStep id) Scheduler.empty scheduledOnly).map
      (fun s => (s.registry.values.length, decide (Untouched s))) = some (2, true) := by
    decide +kernel
  rcases Option.map_eq_some_iff.mp hrun with ⟨s, hs, heq⟩
  simp only [Prod.mk.injEq, decide_eq_true_eq] at heq
  exact ⟨s, hs, heq.1, (survivesRestart_iff hs).mpr heq.2⟩

/-- A schedule that was executed once is loaded with a time from which `_is_due`
cannot subtract, and one that was disabled is not loaded. -/
theorem executedOrDisabled_not_survives :
    (∃ s, Runs.exec (schedulerStep id) Scheduler.empty
      [.schedule "acc-1" 1 (some 600) none, .execute "acc-1" 1000000 (.refreshed true) 2000000] =
        some s ∧ ¬SurvivesRestart s) ∧
    ∃ s, Runs.exec (schedulerStep id) Scheduler.empty
      [.schedule "acc-1" 1 (some 600) none, .update "acc-1" none none (some false)] = some s ∧
        ¬SurvivesRestart s := by
  constructor
  · have hrun : (Runs.exec (schedulerStep id) Scheduler.empty
        [.schedule "acc-1" 1 (some 600) none,
          .execute "acc-1" 1000000 (.refreshed true) 2000000]).map
          (fun s => ((s.registry.job? "acc-1").isSome,
            ((loadFromDb s.rows).job? "acc-1").map fun job => (isDue job (utc 0)).toOption)) =
        some (true, some none) := by
      decide +kernel
    rcases Option.map_eq_some_iff.mp hrun with ⟨s, hs, heq⟩
    simp only [Prod.mk.injEq] at heq
    rcases heq with ⟨hjob, hloaded⟩
    refine ⟨s, hs, fun hsurvives => ?_⟩
    rcases Option.isSome_iff_exists.mp hjob with ⟨job, hjob⟩
    rcases Option.map_eq_some_iff.mp hloaded with ⟨loaded, hload, hraises⟩
    rcases hsurvives.due "acc-1" job loaded hjob hload 0 with ⟨due, -, hdue⟩
    rw [hdue] at hraises
    cases hraises
  · have hrun : (Runs.exec (schedulerStep id) Scheduler.empty
        [.schedule "acc-1" 1 (some 600) none, .update "acc-1" none none (some false)]).map
          (fun s => ((s.registry.job? "acc-1").isSome,
            ((loadFromDb s.rows).job? "acc-1").isSome)) = some (true, false) := by
      decide +kernel
    rcases Option.map_eq_some_iff.mp hrun with ⟨s, hs, heq⟩
    simp only [Prod.mk.injEq] at heq
    refine ⟨s, hs, fun hsurvives => ?_⟩
    have hsame := congrArg Option.isSome (hsurvives.jobs "acc-1")
    rw [Option.isSome_map, Option.isSome_map, heq.1, heq.2] at hsame
    cases hsame

end Plaidify.Refresh
