import Plaidify.Refresh.Restarts

/-!
# Unscheduling while jobs are executed

A run of `_execute_job` holds its job object while it waits for the fetch and
for the webhook callback, and saves it in the end whatever has become of the
dictionary entry. In the meantime the token may be unscheduled, and scheduled
again. Every write to the table may fail: the error is logged.
-/

namespace Plaidify.Refresh

variable {lower : String → String} {webhook : Bool}

inductive Phase where
  | fetching
  /-- The webhook callback has been called. -/
  | notifying
deriving Repr, DecidableEq

/-- A run of `_execute_job`. -/
structure Flight where
  object : Nat
  phase : Phase := .fetching
deriving Repr, DecidableEq

structure LiveScheduler where
  scheduler : Scheduler
  flights : List Flight
  /-- History variable: the tokens for which `unschedule` has returned `True`, and
  that have not been scheduled since. -/
  unscheduled : List String

inductive LiveLabel where
  | schedule (accessToken : String) (userId : Nat) (intervalSeconds : Option Int)
      (scheduleFormat : Option String) (persists : Bool)
  | update (accessToken : String) (intervalSeconds : Option Int)
      (scheduleFormat : Option String) (enabled : Option Bool) (persists : Bool)
  | unschedule (accessToken : String) (deletes : Bool)
  /-- A tick of `_run_loop` starts the runs of the due jobs. -/
  | tick (now : Int)
  /-- The fetch of a run is over. -/
  | fetched (flight : Flight) (outcome : Outcome) (now : Int) (persists : Bool)
  /-- The webhook callback of a run has returned, raised, or was cancelled. -/
  | notified (flight : Flight) (persists : Bool)
  /-- A run is cancelled before it gets the semaphore. -/
  | dropped (flight : Flight)
  /-- A fresh process loads the rows. -/
  | restart
deriving Repr, DecidableEq

/-- The webhook callback is called after this outcome. -/
def Outcome.notifies (outcome : Outcome) (webhook : Bool) (job : RefreshJob) : Bool :=
  webhook && match outcome with
    | .refreshed hasData => hasData
    | .failed _ => decide (maxConsecutiveFailures ≤ job.consecutiveFailures)
    | .cancelled => false

namespace LiveScheduler

def empty : LiveScheduler := ⟨.empty, [], []⟩

def job (s : LiveScheduler) (flight : Flight) : Option RefreshJob :=
  s.scheduler.registry.objects[flight.object]?

/-- The `finally` block of `_execute_job`. -/
def finish (s : LiveScheduler) (flight : Flight) (job : RefreshJob) (persists : Bool) :
    LiveScheduler :=
  { s with
    scheduler := { s.scheduler with rows := persistJob s.scheduler.rows job persists }
    flights := s.flights.erase flight }

/-- The end of a fetch: the object is assigned to, and the run calls the webhook
or ends. -/
def fetched (webhook : Bool) (s : LiveScheduler) (flight : Flight) (outcome : Outcome)
    (now : DateTime) (persists : Bool) : Option LiveScheduler :=
  if flight ∈ s.flights ∧ flight.phase = .fetching then
    (s.job flight).map fun job =>
      let job := job.assign (outcome.apply now)
      let s := { s with scheduler := { s.scheduler with
        registry := s.scheduler.registry.modify flight.object (outcome.apply now) } }
      if outcome.notifies webhook job then
        { s with flights := s.flights.erase flight ++ [{ flight with phase := .notifying }] }
      else s.finish flight job persists
  else none

end LiveScheduler

/-- One step. An operation that raises leaves the scheduler as it is. -/
def liveStep (lower : String → String) (webhook : Bool) (s : LiveScheduler) :
    LiveLabel → Option LiveScheduler
  | .schedule accessToken userId intervalSeconds scheduleFormat persists =>
      match s.scheduler.schedule lower accessToken userId intervalSeconds scheduleFormat
          persists with
      | .error _ => some s
      | .ok scheduler => some { s with
          scheduler, unscheduled := s.unscheduled.filter (· ≠ accessToken) }
  | .update accessToken intervalSeconds scheduleFormat enabled persists =>
      match s.scheduler.update lower accessToken intervalSeconds scheduleFormat enabled
          persists with
      | .error _ => some s
      | .ok (scheduler, _) => some { s with scheduler }
  | .unschedule accessToken deletes =>
      match s.scheduler.unschedule accessToken deletes with
      | (scheduler, true) => some { s with
          scheduler, unscheduled := accessToken :: s.unscheduled }
      | (scheduler, false) => some { s with scheduler }
  | .tick now =>
      match s.scheduler.dueJobs (utc now) with
      -- logged by the loop, which goes on to the next tick
      | .error _ => some s
      | .ok due => some { s with flights := s.flights ++ due.map fun e => { object := e.object } }
  | .fetched flight outcome now persists => s.fetched webhook flight outcome (utc now) persists
  | .notified flight persists =>
      if flight ∈ s.flights ∧ flight.phase = .notifying then
        (s.job flight).map fun job => s.finish flight job persists
      else none
  | .dropped flight =>
      if flight ∈ s.flights ∧ flight.phase = .fetching then
        some { s with flights := s.flights.erase flight }
      else none
  | .restart => some { s with
      scheduler := { s.scheduler with registry := loadFromDb s.scheduler.rows }, flights := [] }

/-- A token that was unscheduled has no job and, when no run of a job of the token
is in flight, no row. -/
def Final (s : LiveScheduler) : Prop :=
  ∀ t ∈ s.unscheduled, s.scheduler.registry.job? t = none ∧
    ((∀ flight ∈ s.flights, ∀ job ∈ s.job flight, job.accessToken ≠ t) →
      s.scheduler.rows.get? t = none)

/-- The step saves no job of a token that was unscheduled, and an `unschedule`
that finds a job deletes its row. -/
def SavesScheduled (webhook : Bool) (s : LiveScheduler) : LiveLabel → Prop
  | .unschedule accessToken deletes =>
      (s.scheduler.registry.job? accessToken).isSome = true → deletes = true
  | .fetched flight outcome now persists =>
      ∀ job ∈ s.job flight,
        outcome.notifies webhook (job.assign (outcome.apply (utc now))) = false →
          persists = true → job.accessToken ∉ s.unscheduled
  | .notified flight persists =>
      ∀ job ∈ s.job flight, persists = true → job.accessToken ∉ s.unscheduled
  | _ => True

instance (s : LiveScheduler) : (l : LiveLabel) → Decidable (SavesScheduled webhook s l)
  | .unschedule accessToken deletes =>
      inferInstanceAs (Decidable
        ((s.scheduler.registry.job? accessToken).isSome = true → deletes = true))
  | .fetched flight outcome now persists =>
      inferInstanceAs (Decidable (∀ job ∈ s.job flight,
        outcome.notifies webhook (job.assign (outcome.apply (utc now))) = false →
          persists = true → job.accessToken ∉ s.unscheduled))
  | .notified flight persists =>
      inferInstanceAs (Decidable (∀ job ∈ s.job flight,
        persists = true → job.accessToken ∉ s.unscheduled))
  | .schedule .. | .update .. | .tick _ | .dropped _ | .restart => .isTrue trivial

/-! ## The invariant -/

/-- A token that was unscheduled has neither a job nor a row. -/
def Gone (s : LiveScheduler) : Prop :=
  ∀ t ∈ s.unscheduled,
    s.scheduler.registry.job? t = none ∧ s.scheduler.rows.get? t = none

theorem final_of_gone {s : LiveScheduler} (h : Gone s) : Final s :=
  fun t ht => ⟨(h t ht).1, fun _ => (h t ht).2⟩

theorem gone_empty : Gone LiveScheduler.empty := by
  intro t ht
  cases ht

/-- What is written for one token is not seen under another. -/
theorem rows_of_writes {s t : Scheduler} {k x : String} {job : RefreshJob} {persists : Bool}
    (h : Scheduler.Writes s t k job persists) (hne : x ≠ k) :
    t.registry.job? x = s.registry.job? x ∧ t.rows.get? x = s.rows.get? x := by
  constructor
  · rw [h.jobs, if_neg hne]
  · rw [h.rows]
    exact get?_persistJob_of_ne (by rw [h.token]; exact hne)

/-- An assignment to an object enters nothing into the dictionary. -/
theorem job?_modify_eq_none {r : Registry} {object : Nat} {f : RefreshJob → RefreshJob}
    {t : String} : (r.modify object f).job? t = none ↔ r.job? t = none := by
  rw [Registry.job?_eq_none, Registry.job?_eq_none]
  rfl

/-- A run that saves its job, or fails to, keeps the invariant if the token has
not been unscheduled. -/
theorem gone_finish {s : LiveScheduler} {flight : Flight} {job : RefreshJob} {persists : Bool}
    (hs : Gone s) (hC : persists = true → job.accessToken ∉ s.unscheduled) :
    Gone (s.finish flight job persists) := by
  intro t ht
  refine ⟨(hs t ht).1, ?_⟩
  cases persists with
  | false => exact (hs t ht).2
  | true =>
      have hne : t ≠ job.accessToken := fun heq => hC rfl (heq ▸ ht)
      exact (get?_persistJob_of_ne hne).trans (hs t ht).2

theorem gone_fetched {s t : LiveScheduler} {flight : Flight} {outcome : Outcome} {now : Int}
    {persists : Bool} (hs : Gone s)
    (hC : SavesScheduled webhook s (.fetched flight outcome now persists))
    (h : s.fetched webhook flight outcome (utc now) persists = some t) : Gone t := by
  unfold LiveScheduler.fetched at h
  split at h
  · rcases Option.map_eq_some_iff.mp h with ⟨job, hjob, rfl⟩
    have hmodified : Gone { s with scheduler := { s.scheduler with
        registry := s.scheduler.registry.modify flight.object (outcome.apply (utc now)) } } :=
      fun t ht => ⟨job?_modify_eq_none.mpr (hs t ht).1, (hs t ht).2⟩
    dsimp only
    split
    · exact hmodified
    · rename_i hends
      refine gone_finish hmodified fun hpersists => ?_
      exact hC job hjob (by simpa using hends) hpersists
  · cases h

theorem gone_step {s t : LiveScheduler} {l : LiveLabel} (hs : Gone s)
    (hC : SavesScheduled webhook s l) (h : liveStep lower webhook s l = some t) : Gone t := by
  cases l with
  | schedule k userId interval format persists =>
      simp only [liveStep] at h
      split at h
      · rw [← Option.some.inj h]
        exact hs
      · rename_i scheduler hop
        -- the token is scheduled again, so it is no longer among the unscheduled
        rw [← Option.some.inj h]
        rcases Scheduler.schedule_writes hop with ⟨job, hwrites, -⟩
        intro x hx
        rcases List.mem_filter.mp hx with ⟨hmem, hne⟩
        rcases rows_of_writes hwrites (by simpa using hne) with ⟨hjob, hrow⟩
        exact ⟨hjob.trans (hs x hmem).1, hrow.trans (hs x hmem).2⟩
  | update k interval format enabled persists =>
      simp only [liveStep] at h
      split at h
      · rw [← Option.some.inj h]
        exact hs
      · rename_i scheduler found hop
        rw [← Option.some.inj h]
        rcases Scheduler.update_writes hop with ⟨-, hsame⟩ | ⟨old, job, hold, hwrites, -⟩
        · rw [hsame]
          exact hs
        · intro x hx
          -- the token has a job, so that it is not one of the unscheduled
          have hne : x ≠ k := by
            rintro rfl
            rw [(hs x hx).1] at hold
            cases hold
          rcases rows_of_writes hwrites hne with ⟨hjob, hrow⟩
          exact ⟨hjob.trans (hs x hx).1, hrow.trans (hs x hx).2⟩
  | unschedule k deletes =>
      simp only [liveStep] at h
      split at h
      · rename_i scheduler hop
        rw [← Option.some.inj h]
        rcases Scheduler.unschedule_eq hop with ⟨hfalse, -, -⟩ | ⟨-, hregistry, hrows⟩
        · cases hfalse
        · -- the row goes with the job, for the caller commits the deletion
          have hdeletes : deletes = true := by
            refine hC ?_
            by_contra hnone
            simp [Scheduler.unschedule, hnone] at hop
          intro x hx
          dsimp only
          -- the token itself, or one unscheduled before
          rw [hregistry, hrows, hdeletes, Registry.job?_remove, get?_deletePersistedJob]
          by_cases hk : x = k
          · rw [if_pos hk, if_pos hk]
            exact ⟨rfl, rfl⟩
          · rw [if_neg hk, if_neg hk]
            rcases List.mem_cons.mp hx with hx | hx
            · exact absurd hx hk
            · exact hs x hx
      · rename_i scheduler hop
        rw [← Option.some.inj h]
        rcases Scheduler.unschedule_eq hop with ⟨-, hsame, -⟩ | ⟨htrue, -, -⟩
        · rw [hsame]
          exact hs
        · cases htrue
  | tick now =>
      simp only [liveStep] at h
      split at h
      · rw [← Option.some.inj h]
        exact hs
      · rw [← Option.some.inj h]
        exact hs
  -- a run in flight saves its job only if it is still scheduled
  | fetched flight outcome now persists => exact gone_fetched hs hC h
  | notified flight persists =>
      simp only [liveStep] at h
      split at h
      · rcases Option.map_eq_some_iff.mp h with ⟨job, hjob, rfl⟩
        exact gone_finish hs (hC job hjob)
      · cases h
  | dropped flight =>
      simp only [liveStep] at h
      split at h
      · rw [← Option.some.inj h]
        exact hs
      · cases h
  | restart =>
      rw [← Option.some.inj h]
      -- a restart loads the rows, and the rows are gone
      intro x hx
      refine ⟨?_, (hs x hx).2⟩
      have hrow : s.scheduler.rows.get? x = none := (hs x hx).2
      change (loadFromDb s.scheduler.rows).job? x = none
      rw [job?_loadFromDb, hrow]
      rfl

/-- Where no run saves a job of a token that was unscheduled in the meantime, and
no deletion fails, unscheduling is final. -/
theorem unscheduling_final {tr : List LiveLabel}
    (hC : Runs.Along (liveStep lower webhook) (SavesScheduled webhook) LiveScheduler.empty tr) :
    ∀ before after s, tr = before ++ after →
      Runs.exec (liveStep lower webhook) LiveScheduler.empty before = some s → Final s := by
  intro before after s heq h
  exact final_of_gone (Runs.always_of_along (fun _ _ _ => gone_step) gone_empty hC
    before after s heq h)

/-- A run that ends before its token is unscheduled. -/
def finishedFirst : List LiveLabel :=
  [.schedule "acc-1" 1 (some 600) none true, .tick 1000000,
    .fetched ⟨0, .fetching⟩ (.refreshed true) 2000000 true, .notified ⟨0, .notifying⟩ true,
    .unschedule "acc-1" true]

theorem finishedFirst_final :
    ∃ s, Runs.exec (liveStep id true) LiveScheduler.empty finishedFirst = some s ∧
      s.unscheduled = ["acc-1"] ∧ Final s := by
  have hrun : (Runs.exec (liveStep id true) LiveScheduler.empty finishedFirst).map
      LiveScheduler.unscheduled = some ["acc-1"] := by
    decide +kernel
  rcases Option.map_eq_some_iff.mp hrun with ⟨s, hs, hunscheduled⟩
  refine ⟨s, hs, hunscheduled, unscheduling_final ?_ _ [] s (List.append_nil _).symm hs⟩
  decide +kernel

/-- A run that is waiting for the fetch when its token is unscheduled writes the
row again. -/
theorem unscheduledInFlight_not_final :
    ∃ s, Runs.exec (liveStep id true) LiveScheduler.empty
      [.schedule "acc-1" 1 (some 600) none true, .tick 1000000, .unschedule "acc-1" true,
        .fetched ⟨0, .fetching⟩ (.refreshed false) 2000000 true] = some s ∧
      s.flights = [] ∧ ¬Final s := by
  have hrun : (Runs.exec (liveStep id true) LiveScheduler.empty
      [.schedule "acc-1" 1 (some 600) none true, .tick 1000000, .unschedule "acc-1" true,
        .fetched ⟨0, .fetching⟩ (.refreshed false) 2000000 true]).map
          (fun s => (s.unscheduled, s.flights, (s.scheduler.rows.get? "acc-1").isSome)) =
      some (["acc-1"], [], true) := by
    decide +kernel
  rcases Option.map_eq_some_iff.mp hrun with ⟨s, hs, heq⟩
  simp only [Prod.mk.injEq] at heq
  rcases heq with ⟨hunscheduled, hflights, hrow⟩
  refine ⟨s, hs, hflights, fun hfinal => ?_⟩
  have hgone := (hfinal "acc-1" (by simp [hunscheduled])).2 (by simp [hflights])
  rw [hgone] at hrow
  cases hrow

end Plaidify.Refresh
