import Plaidify.AccessJobs.Workers

/-!
# One execution and one outcome per job

The stream delivers a message at least once. A job should nevertheless be
executed at most once, and the status it ends with should stay. `settled_once`
proves both for the runs in which no delivery comes too early or too late:

* a message whose job is unfinished is reclaimed only when the worker that had
  it before is dead or past its last write;
* a worker that finds the payload finds the job unfinished;
* a worker gets the lock of the scope only if the executor was not called for
  the job before, so the lock of a worker that died in the executor still holds.

The code checks none of the three: the writes of `_execute_existing_job` do not
look at the status they overwrite, and a message is reclaimed after a time that
an executor may well take.
-/

namespace Plaidify.AccessJobs

/-! ## The condition -/

/-- The worker is in its `finally` clause, after its last write of the row. -/
def Pc.isClosing : Pc → Bool
  | .closing _ => true
  | _ => false

/-- The worker goes on to write the row, whatever the row is by then. -/
def Pc.writes : Pc → Bool
  | .claimed | .completed | .marking _ _ | .closing _ => false
  | .releasing _ (.raised _) => false
  | _ => true

/-- The worker has the lock and has not called the executor yet. -/
def Pc.unstarted : Pc → Bool
  | .locked _ | .ready _ => true
  | _ => false

/-- The answer gives the worker the lock of its scope. -/
def getsLock (s : System) (w : Worker) : Answer → Bool
  | .done =>
      match w.pc with
      | .locking loaded | .polling loaded _ => s.lockFree loaded.job.lockScope
      | .waitingLocal _ => true
      | _ => false
  | _ => false

/-- The worker is about to read a payload that is there. -/
def findsPayload (s : System) (w : Worker) : Bool :=
  match w.pc with
  | .claimed => (loadDispatchPayload s.payloads s.now w.message.jobId).isSome
  | _ => false

/-- The step does not overlap with another delivery of the same job. -/
def timely (s : System) : Label → Bool
  | .reclaim messageId =>
      match s.pending.get? messageId with
      | none => true
      | some entry =>
          s.terminal entry.message.jobId ||
            s.workers.rows.all fun w =>
              w.message.jobId != entry.message.jobId || w.pc.isClosing
  | .go id answer =>
      match s.workers.get? id with
      | none => true
      | some w =>
          (!findsPayload s w || !s.terminal w.message.jobId) &&
            (!getsLock s w answer || !s.started.contains w.message.jobId)
  | _ => true

/-! ## What a step of a worker does -/

/-- Everything but locks, payloads and the clock is the same. -/
structure SameRows (s t : System) : Prop where
  jobs : t.jobs = s.jobs
  undelivered : t.undelivered = s.undelivered
  pending : t.pending = s.pending
  workers : t.workers = s.workers
  started : t.started = s.started

theorem SameRows.refl (s : System) : SameRows s s := ⟨rfl, rfl, rfl, rfl, rfl⟩

theorem sameRows_setLock (s : System) (scope : String) (holder : Option Nat) :
    SameRows s (s.setLock scope holder) := ⟨rfl, rfl, rfl, rfl, rfl⟩

theorem sameRows_releaseLock (s : System) (scope : String) (holder : Option Nat) :
    SameRows s (s.releaseLock scope holder) := ⟨rfl, rfl, rfl, rfl, rfl⟩

/-- The kinds of steps of a worker. -/
inductive Advanced (s : System) (w : Worker) (answer : Answer) : System → Prop where
  /-- Nothing but the worker moves. Where it goes on to write the row, it was
  going to before, or has just seen the row unfinished or the payload. -/
  | moved (t : System) (pc : Pc) (hsame : SameRows s t)
      (hclosing : w.pc.isClosing = true → pc.isClosing = true)
      (hwrites : pc.writes = true → w.pc.writes = true ∨
        s.terminal w.message.jobId = false ∨ findsPayload s w = true)
      (hunstarted : pc.unstarted = true → getsLock s w answer = true) :
      Advanced s w answer (t.goto w pc)
  /-- The row is written, for the last time unless as `running`. -/
  | wrote (loaded : Loaded) (state : JobState) (pc : Pc) (hw : w.pc.writes = true)
      (hpc : pc.writes = false ∨ (state.status = .running ∧ w.pc.unstarted = true)) :
      Advanced s w answer ((s.write w.message.jobId loaded state).goto w pc)
  /-- The executor is called. -/
  | called (pc : Pc) (hw : w.pc.unstarted = true) (hpc : pc.unstarted = false) :
      Advanced s w answer ({ s with started := w.message.jobId :: s.started }.goto w pc)
  | ended (p : PendingEntry → Bool) :
      Advanced s w answer ({ s with pending := s.pending.delete p }.drop w.id)

theorem afterException_cases (exc : Exc) :
    (afterException exc).writes = false ∧ (afterException exc).unstarted = false := by
  cases exc <;> exact ⟨rfl, rfl⟩

/-- A move to a place where the row is not written without a look at it. -/
theorem Advanced.idle {s t : System} {w : Worker} {answer : Answer} {pc : Pc}
    (hsame : SameRows s t) (hclosing : w.pc.isClosing = true → pc.isClosing = true)
    (hpc : pc.writes = false ∧ pc.unstarted = false) : Advanced s w answer (t.goto w pc) := by
  refine .moved t pc hsame hclosing ?_ ?_
  · intro h
    exact absurd h (by simp [hpc.1])
  · intro h
    exact absurd h (by simp [hpc.2])

/-- A move of a worker that was going to write the row anyway. -/
theorem Advanced.onward {s t : System} {w : Worker} {answer : Answer} {pc : Pc}
    (hsame : SameRows s t) (hw : w.pc.writes = true)
    (hpc : pc.unstarted = true → getsLock s w answer = true) :
    Advanced s w answer (t.goto w pc) := by
  refine .moved t pc hsame ?_ (fun _ => .inl hw) hpc
  intro h
  cases hcase : w.pc <;> simp_all [Pc.isClosing, Pc.writes]

/-- After the lock is released the row is written if the executor returned. -/
theorem Advanced.released {s t : System} {w : Worker} {answer : Answer} {loaded : Loaded}
    {ending : Ending} (hsame : SameRows s t) (hpc : w.pc = .releasing loaded ending) :
    Advanced s w answer (t.goto w (afterRelease loaded ending)) := by
  cases ending with
  | returned result =>
      exact .onward hsame (by simp [hpc, Pc.writes]) (by simp [afterRelease, Pc.unstarted])
  | raised exc => exact .idle hsame (by simp [hpc, Pc.isClosing]) (afterException_cases exc)

theorem pollLock_advanced {s t : System} {w : Worker} {loaded : Loaded} {deadline : Nat}
    {answer : Answer} (hpc : w.pc.writes = true)
    (hlock : s.lockFree loaded.job.lockScope = true → getsLock s w .done = true)
    (h : pollLock s w loaded deadline answer = some t) : Advanced s w answer t := by
  cases answer with
  | done =>
      simp only [pollLock] at h
      split at h
      · rename_i hfree
        obtain rfl := Option.some.inj h
        exact .onward (sameRows_setLock s _ _) hpc fun _ => hlock hfree
      · split at h <;> obtain rfl := Option.some.inj h
        · exact .onward (.refl s) hpc (by simp [Pc.unstarted])
        · exact .onward (.refl s) hpc (by simp [Pc.unstarted])
  | raised message =>
      obtain rfl := Option.some.inj h
      exact .onward (.refl s) hpc (by simp [Pc.unstarted])
  | cancelled => cases h
  | executor outcome => cases h

theorem advance_advanced {s t : System} {w : Worker} {answer : Answer}
    (h : advance s w answer = some t) : Advanced s w answer t := by
  simp only [advance] at h
  split at h
  · -- the payload is read
    rename_i hpc
    split at h
    · obtain rfl := Option.some.inj h
      exact .idle (.refl s) (by simp [hpc, Pc.isClosing]) ⟨rfl, rfl⟩
    · rename_i payload hload
      obtain rfl := Option.some.inj h
      have hfinds : findsPayload s w = true := by simp [findsPayload, hpc, hload]
      exact .moved s _ (.refl s) (by simp [hpc, Pc.isClosing]) (fun _ => .inr (.inr hfinds))
        (by simp [Pc.unstarted])
    · obtain rfl := Option.some.inj h
      exact .idle (.refl s) (by simp [hpc, Pc.isClosing]) ⟨rfl, rfl⟩
    · cases h
  · -- the row is read
    rename_i hpc
    split at h <;> obtain rfl := Option.some.inj h
    · exact .idle (.refl s) (by simp [hpc, Pc.isClosing]) (afterException_cases _)
    · exact .onward (.refl s) (by simp [hpc, Pc.writes]) (by simp [Pc.unstarted])
  · -- the lock is tried for the first time
    rename_i loaded hpc
    exact pollLock_advanced (by simp [hpc, Pc.writes]) (by simp [getsLock, hpc]) h
  · -- cancelled between two polls
    rename_i hpc
    obtain rfl := Option.some.inj h
    exact .idle (.refl s) (by simp [hpc, Pc.isClosing]) (afterException_cases _)
  · -- the lock is polled
    rename_i loaded deadline hpc _
    exact pollLock_advanced (by simp [hpc, Pc.writes]) (by simp [getsLock, hpc]) h
  · -- the lock of this process is free
    rename_i hpc
    obtain rfl := Option.some.inj h
    exact .onward (.refl s) (by simp [hpc, Pc.writes]) (by simp [getsLock, hpc])
  · -- the wait for it ran out
    rename_i hpc
    obtain rfl := Option.some.inj h
    exact .onward (.refl s) (by simp [hpc, Pc.writes]) (by simp [Pc.unstarted])
  · -- cancelled while waiting for it
    rename_i hpc
    obtain rfl := Option.some.inj h
    exact .idle (.refl s) (by simp [hpc, Pc.isClosing]) (afterException_cases _)
  · -- `blocked` is written
    rename_i hpc
    obtain rfl := Option.some.inj h
    exact .wrote _ _ _ (by simp [hpc, Pc.writes]) (.inl (afterException_cases _).1)
  · -- `running` is written
    rename_i hpc
    obtain rfl := Option.some.inj h
    exact .wrote _ _ _ (by simp [hpc, Pc.writes]) (.inr ⟨rfl, by simp [hpc, Pc.unstarted]⟩)
  · -- the executor is called
    rename_i hpc
    obtain rfl := Option.some.inj h
    exact .called _ (by simp [hpc, Pc.unstarted]) rfl
  · -- it returned
    rename_i hpc
    obtain rfl := Option.some.inj h
    exact .onward (.refl s) (by simp [hpc, Pc.writes]) (by simp [Pc.unstarted])
  · -- it raised, and the link session goes unless a code is asked for
    rename_i hpc
    split at h <;> obtain rfl := Option.some.inj h
    · exact .onward (.refl s) (by simp [hpc, Pc.writes]) (by simp [Pc.unstarted])
    · exact .onward (.refl s) (by simp [hpc, Pc.writes]) (by simp [Pc.unstarted])
  · -- the link session is gone
    rename_i hpc
    obtain rfl := Option.some.inj h
    exact .onward (.refl s) (by simp [hpc, Pc.writes]) (by simp [Pc.unstarted])
  · -- removing it raised
    rename_i hpc
    obtain rfl := Option.some.inj h
    exact .idle (.refl s) (by simp [hpc, Pc.isClosing]) ⟨rfl, rfl⟩
  · -- cancelled while removing it
    rename_i hpc
    obtain rfl := Option.some.inj h
    exact .idle (.refl s) (by simp [hpc, Pc.isClosing]) ⟨rfl, rfl⟩
  · -- the `except` clauses write the row
    rename_i hpc
    obtain rfl := Option.some.inj h
    exact .wrote _ _ _ (by simp [hpc, Pc.writes]) (.inl rfl)
  · -- the policy audit raised after the write
    rename_i hpc
    obtain rfl := Option.some.inj h
    exact .wrote _ _ _ (by simp [hpc, Pc.writes]) (.inl rfl)
  · -- the lock is released
    rename_i hpc
    obtain rfl := Option.some.inj h
    exact .released (sameRows_releaseLock s _ _) hpc
  · -- what the release raised is logged
    rename_i hpc
    obtain rfl := Option.some.inj h
    exact .released (.refl s) hpc
  · -- `completed` is written
    rename_i hpc
    split at h <;> obtain rfl := Option.some.inj h
    · exact .idle (.refl s) (by simp [hpc, Pc.isClosing]) (afterException_cases _)
    · exact .wrote _ _ _ (by simp [hpc, Pc.writes]) (.inl rfl)
  · -- the payload goes next
    rename_i hpc
    obtain rfl := Option.some.inj h
    exact .idle (.refl s) (by simp [hpc, Pc.isClosing]) ⟨rfl, rfl⟩
  · -- the audit of the completion raised
    rename_i hpc
    obtain rfl := Option.some.inj h
    exact .idle (.refl s) (by simp [hpc, Pc.isClosing]) (afterException_cases _)
  · -- cancelled after the row was written
    rename_i hpc
    obtain rfl := Option.some.inj h
    exact .idle (.refl s) (by simp [hpc, Pc.isClosing]) (afterException_cases _)
  · -- `_mark_job_failed` reads the row
    rename_i hpc
    split at h
    · obtain rfl := Option.some.inj h
      exact .idle (.refl s) (by simp [hpc, Pc.isClosing]) ⟨rfl, rfl⟩
    · rename_i job hget
      split at h <;> obtain rfl := Option.some.inj h
      · rename_i hjob
        have hterm : s.terminal w.message.jobId = false := by simp [System.terminal, hget, hjob]
        exact .moved s _ (.refl s) (by simp [hpc, Pc.isClosing]) (fun _ => .inr (.inl hterm))
          (by simp [Pc.unstarted])
      · exact .idle (.refl s) (by simp [hpc, Pc.isClosing]) ⟨rfl, rfl⟩
  · -- `_mark_job_failed` writes it
    rename_i hpc
    obtain rfl := Option.some.inj h
    exact .wrote _ _ _ (by simp [hpc, Pc.writes]) (.inl rfl)
  · -- the payload goes
    obtain rfl := Option.some.inj h
    exact .idle ⟨rfl, rfl, rfl, rfl, rfl⟩ (fun _ => rfl) ⟨rfl, rfl⟩
  · -- the message is acknowledged
    obtain rfl := Option.some.inj h
    exact .ended _
  · cases h

/-! ## Rows after a write -/

theorem write_get (s : System) (jobId : String) (loaded : Loaded) (state : JobState) (k : String) :
    (s.write jobId loaded state).jobs.get? k =
      if k = jobId then (s.jobs.get? k).map (flush loaded.job state) else s.jobs.get? k := by
  unfold System.write
  cases hget : s.jobs.get? jobId with
  | none =>
      by_cases hk : k = jobId
      · subst hk
        simp [hget]
      · simp [hk]
  | some row =>
      obtain ⟨-, rfl⟩ := Table.get?_mem hget
      have hid : (flush loaded.job state row).id = row.id := rfl
      show (s.jobs.put (flush loaded.job state row)).get? k = _
      rw [Table.get?_put_eq, hid]
      by_cases hk : k = row.id
      · subst hk
        simp [hget]
      · simp [hk]

theorem write_keys (s : System) (jobId : String) (loaded : Loaded) (state : JobState) :
    (s.write jobId loaded state).jobs.rows.map Job.id = s.jobs.rows.map Job.id := by
  unfold System.write
  split
  · rfl
  · exact Table.map_key_overwrite _ _

/-- A write of `running` leaves an unfinished row unfinished. -/
theorem terminal_write_running {s : System} {jobId : String} {loaded : Loaded} {state : JobState}
    (hstate : state.status = .running) (hs : s.terminal jobId = false) :
    (s.write jobId loaded state).terminal jobId = false := by
  unfold System.terminal at hs ⊢
  rw [write_get, if_pos rfl]
  cases hget : s.jobs.get? jobId with
  | none => simp
  | some row =>
      rw [hget] at hs
      simp only [Option.map_some, flush, hstate]
      split
      · exact hs
      · rfl

/-- The status of a finished job is the same later. -/
def Stable (s t : System) : Prop :=
  ∀ jobId job, s.jobs.get? jobId = some job → job.status.unfinished = false →
    t.status jobId = some job.status

theorem Stable.refl (s : System) : Stable s s := by
  intro jobId job hget _
  simp [System.status, hget]

theorem Stable.trans {s t u : System} (h₁ : Stable s t) (h₂ : Stable t u) : Stable s u := by
  intro jobId job hget hjob
  have hstatus := h₁ jobId job hget hjob
  obtain ⟨job', hget', heq⟩ := Option.map_eq_some_iff.mp hstatus
  rw [← heq]
  exact h₂ jobId job' hget' (by rw [heq]; exact hjob)

theorem Stable.of_get {s t : System}
    (h : ∀ k, s.terminal k = true → t.jobs.get? k = s.jobs.get? k) : Stable s t := by
  intro jobId job hget hjob
  have hterm : s.terminal jobId = true := by simp [System.terminal, hget, hjob]
  simp [System.status, h jobId hterm, hget]

/-! ## The invariant -/

/-- The messages of the stream that were not acknowledged. -/
def System.messages (s : System) : List DispatchMessage :=
  s.undelivered ++ s.pending.rows.map PendingEntry.message

def System.jobIds (s : System) : List String :=
  s.jobs.rows.map Job.id

/-- What holds in the runs whose steps are timely. -/
structure Inv (s : System) : Prop where
  /-- Only jobs that were created are dispatched, worked on and started. -/
  knownMessages : ∀ m ∈ s.messages, m.jobId ∈ s.jobIds
  knownWorkers : ∀ w ∈ s.workers.rows, w.message.jobId ∈ s.jobIds
  knownStarted : ∀ jobId ∈ s.started, jobId ∈ s.jobIds
  /-- A job has one message, and nobody works on it before it is delivered. -/
  oneMessage : (s.messages.map DispatchMessage.jobId).Nodup
  untouched : ∀ m ∈ s.undelivered, ∀ w ∈ s.workers.rows, w.message.jobId ≠ m.jobId
  /-- One worker is on an unfinished job, apart from those that are done with it. -/
  oneWorker : ∀ w ∈ s.workers.rows, ∀ w' ∈ s.workers.rows, w.message.jobId = w'.message.jobId →
    s.terminal w.message.jobId = false → w.pc.isClosing = false → w'.pc.isClosing = false → w = w'
  /-- Whoever is going to write a row writes an unfinished one. -/
  writers : ∀ w ∈ s.workers.rows, w.pc.writes = true → s.terminal w.message.jobId = false
  /-- Whoever is going to call the executor is the first to do so. -/
  unstarted : ∀ w ∈ s.workers.rows, w.pc.unstarted = true → w.message.jobId ∉ s.started
  startedOnce : s.started.Nodup

theorem writes_of_unstarted {pc : Pc} (h : pc.unstarted = true) : pc.writes = true := by
  cases pc <;> first | rfl | exact absurd h (by simp [Pc.unstarted])

theorem not_closing_of_writes {pc : Pc} (h : pc.writes = true) : pc.isClosing = false := by
  cases pc <;> first | rfl | exact absurd h (by simp [Pc.writes])

/-- A worker that is going to write is alone. -/
theorem Inv.alone {s : System} (hs : Inv s) {w w' : Worker} (hw : w ∈ s.workers.rows)
    (hw' : w' ∈ s.workers.rows) (hwrites : w.pc.writes = true)
    (hjob : w'.message.jobId = w.message.jobId) (hne : w' ≠ w) : w'.pc.isClosing = true := by
  by_contra hclosing
  have hopen : w'.pc.isClosing = false := by simpa using hclosing
  exact hne (hs.oneWorker w hw w' hw' hjob.symm (hs.writers w hw hwrites)
    (not_closing_of_writes hwrites) hopen).symm

/-- What a step of one worker may do: move it, and where it was going to write,
change the row of its job and call the executor. -/
structure Moves (s t : System) (w : Worker) (pc : Pc) : Prop where
  workers : t.workers = s.workers.put { w with pc }
  undelivered : t.undelivered = s.undelivered
  pending : t.pending = s.pending
  jobIds : t.jobIds = s.jobIds
  started : ∀ jobId ∈ t.started, jobId ∈ s.started ∨ jobId = w.message.jobId
  startedOnce : t.started.Nodup
  others : ∀ jobId, jobId ≠ w.message.jobId → t.terminal jobId = s.terminal jobId
  later : t.terminal w.message.jobId = false → s.terminal w.message.jobId = false
  change : (t.terminal w.message.jobId = s.terminal w.message.jobId ∧ t.started = s.started) ∨
    w.pc.writes = true
  closing : w.pc.isClosing = true → pc.isClosing = true
  writes : pc.writes = true → t.terminal w.message.jobId = false
  unstarted : pc.unstarted = true → w.message.jobId ∉ t.started

theorem Inv.moves {s t : System} (hs : Inv s) {w : Worker} (hw : w ∈ s.workers.rows) {pc : Pc}
    (h : Moves s t w pc) : Inv t := by
  have hmem : ∀ k ∈ t.workers.rows, k = { w with pc } ∨ (k ∈ s.workers.rows ∧ k ≠ w) := by
    intro k hk
    rw [h.workers] at hk
    rcases Table.mem_put hk with rfl | ⟨hk, hne⟩
    · exact .inl rfl
    · exact .inr ⟨hk, fun heq => hne (by rw [heq])⟩
  have hmessages : t.messages = s.messages := by
    unfold System.messages
    rw [h.undelivered, h.pending]
  have hlater : ∀ jobId, t.terminal jobId = false → s.terminal jobId = false := by
    intro jobId hterm
    by_cases hjob : jobId = w.message.jobId
    · subst hjob
      exact h.later hterm
    · rw [← h.others jobId hjob]
      exact hterm
  -- an older worker on the job cannot be going to write where this one was
  have hquiet : ∀ k ∈ s.workers.rows, k ≠ w → k.message.jobId = w.message.jobId →
      k.pc.writes = true →
      t.terminal w.message.jobId = s.terminal w.message.jobId ∧ t.started = s.started := by
    intro k hk hne hjob hwrites
    rcases h.change with hsame | hw'
    · exact hsame
    · exact absurd (hs.alone hw hk hw' hjob hne) (by simp [not_closing_of_writes hwrites])
  refine ⟨?_, ?_, ?_, ?_, ?_, ?_, ?_, ?_, h.startedOnce⟩
  · -- knownMessages
    rw [hmessages, h.jobIds]
    exact hs.knownMessages
  · -- knownWorkers
    intro k hk
    rw [h.jobIds]
    rcases hmem k hk with rfl | ⟨hk, -⟩
    · exact hs.knownWorkers w hw
    · exact hs.knownWorkers k hk
  · -- knownStarted
    intro jobId hjob
    rw [h.jobIds]
    rcases h.started jobId hjob with hjob | rfl
    · exact hs.knownStarted jobId hjob
    · exact hs.knownWorkers w hw
  · -- oneMessage
    rw [hmessages]
    exact hs.oneMessage
  · -- untouched
    intro m hm k hk
    rw [h.undelivered] at hm
    rcases hmem k hk with rfl | ⟨hk, -⟩
    · exact hs.untouched m hm w hw
    · exact hs.untouched m hm k hk
  · -- oneWorker
    intro k hk k' hk' hjob hterm hopen hopen'
    have hopenW : ∀ {p : Pc}, p = pc → p.isClosing = false → w.pc.isClosing = false := by
      rintro p rfl hp
      by_contra hclosing
      exact absurd (h.closing (by simpa using hclosing)) (by simp [hp])
    rcases hmem k hk with rfl | ⟨hk, hne⟩
    · rcases hmem k' hk' with rfl | ⟨hk', hne'⟩
      · rfl
      · exact absurd (hs.oneWorker w hw k' hk' hjob (hlater _ hterm) (hopenW rfl hopen) hopen').symm
          hne'
    · rcases hmem k' hk' with rfl | ⟨hk', -⟩
      · exact absurd (hs.oneWorker k hk w hw hjob (hlater _ hterm) hopen (hopenW rfl hopen')) hne
      · exact hs.oneWorker k hk k' hk' hjob (hlater _ hterm) hopen hopen'
  · -- writers
    intro k hk hwrites
    rcases hmem k hk with rfl | ⟨hk, hne⟩
    · exact h.writes hwrites
    · have hterm := hs.writers k hk hwrites
      by_cases hjob : k.message.jobId = w.message.jobId
      · rw [hjob] at hterm ⊢
        rw [(hquiet k hk hne hjob hwrites).1]
        exact hterm
      · rw [h.others _ hjob]
        exact hterm
  · -- unstarted
    intro k hk hun
    rcases hmem k hk with rfl | ⟨hk, hne⟩
    · exact h.unstarted hun
    · have hnot := hs.unstarted k hk hun
      by_cases hjob : k.message.jobId = w.message.jobId
      · rw [(hquiet k hk hne hjob (writes_of_unstarted hun)).2]
        exact hnot
      · intro hmem'
        exact (h.started _ hmem').elim hnot hjob

theorem terminal_congr {s t : System} (h : t.jobs = s.jobs) (jobId : String) :
    t.terminal jobId = s.terminal jobId := by
  unfold System.terminal
  rw [h]

/-- Workers and messages may go. -/
theorem Inv.fewer {s t : System} (hs : Inv s) (hjobs : t.jobs = s.jobs)
    (hstarted : t.started = s.started) (hundelivered : t.undelivered = s.undelivered)
    (hpending : t.pending.rows.Sublist s.pending.rows)
    (hworkers : ∀ w ∈ t.workers.rows, w ∈ s.workers.rows) : Inv t := by
  have hids : t.jobIds = s.jobIds := congrArg (fun j => j.rows.map Job.id) hjobs
  have hmessages : t.messages.Sublist s.messages := by
    unfold System.messages
    rw [hundelivered]
    exact (List.Sublist.refl _).append (hpending.map _)
  refine ⟨?_, ?_, ?_, hs.oneMessage.sublist (hmessages.map _), ?_, ?_, ?_, ?_, ?_⟩
  · intro m hm
    rw [hids]
    exact hs.knownMessages m (hmessages.subset hm)
  · intro w hw
    rw [hids]
    exact hs.knownWorkers w (hworkers w hw)
  · rw [hids, hstarted]
    exact hs.knownStarted
  · intro m hm w hw
    rw [hundelivered] at hm
    exact hs.untouched m hm w (hworkers w hw)
  · intro w hw w' hw' hjob hterm
    rw [terminal_congr hjobs] at hterm
    exact hs.oneWorker w (hworkers w hw) w' (hworkers w' hw') hjob hterm
  · intro w hw hwrites
    rw [terminal_congr hjobs]
    exact hs.writers w (hworkers w hw) hwrites
  · intro w hw hun
    rw [hstarted]
    exact hs.unstarted w (hworkers w hw) hun
  · rw [hstarted]
    exact hs.startedOnce

/-- A worker may claim a message if nobody else still works on its job. -/
theorem Inv.spawn {s t u : System} (hs : Inv s) (hjobs : t.jobs = s.jobs)
    (hworkers : t.workers = s.workers) (hstarted : t.started = s.started) {m : DispatchMessage}
    (hm : m ∈ s.messages) (hmessages : t.messages.Perm s.messages)
    (hundelivered : ∀ k ∈ t.undelivered, k ∈ s.undelivered ∧ k.jobId ≠ m.jobId)
    (halone : s.terminal m.jobId = false → ∀ w ∈ s.workers.rows, w.message.jobId = m.jobId →
      w.pc.isClosing = true) (h : t.spawn m = some u) : Inv u := by
  obtain ⟨workers, hins, h⟩ := Option.bind_eq_some_iff.mp h
  obtain rfl := Option.some.inj h
  obtain ⟨-, hrows⟩ := Table.insert?_eq_some hins
  have hmem : ∀ k ∈ workers.rows, k ∈ s.workers.rows ∨
      k = { id := t.nextWorker, message := m, pc := .claimed } := by
    intro k hk
    rw [hrows, hworkers] at hk
    simpa using hk
  have hids : t.jobIds = s.jobIds := congrArg (fun j => j.rows.map Job.id) hjobs
  have hterm : ∀ jobId, t.terminal jobId = s.terminal jobId := terminal_congr hjobs
  refine ⟨?_, ?_, ?_, ?_, ?_, ?_, ?_, ?_, ?_⟩
  · -- knownMessages
    intro k hk
    show k.jobId ∈ t.jobIds
    rw [hids]
    exact hs.knownMessages k (hmessages.subset hk)
  · -- knownWorkers
    intro k hk
    show k.message.jobId ∈ t.jobIds
    rw [hids]
    rcases hmem k hk with hk | rfl
    · exact hs.knownWorkers k hk
    · exact hs.knownMessages m hm
  · -- knownStarted
    show ∀ jobId ∈ t.started, jobId ∈ t.jobIds
    rw [hids, hstarted]
    exact hs.knownStarted
  · -- oneMessage
    exact (hmessages.map DispatchMessage.jobId).nodup_iff.mpr hs.oneMessage
  · -- untouched
    intro k hk w hw
    obtain ⟨hk, hne⟩ := hundelivered k hk
    rcases hmem w hw with hw | rfl
    · exact hs.untouched k hk w hw
    · exact hne.symm
  · -- oneWorker: the new worker is alone, for the others are closing or the job is finished
    intro w hw w' hw' hjob hopen hw₁ hw₂
    replace hopen : s.terminal w.message.jobId = false := (hterm _).symm.trans hopen
    rcases hmem w hw with hw | rfl
    · rcases hmem w' hw' with hw' | rfl
      · exact hs.oneWorker w hw w' hw' hjob hopen hw₁ hw₂
      · exact absurd (halone (by rw [← hjob]; exact hopen) w hw hjob) (by simp [hw₁])
    · rcases hmem w' hw' with hw' | rfl
      · exact absurd (halone hopen w' hw' hjob.symm) (by simp [hw₂])
      · rfl
  · -- writers
    intro w hw hwrites
    refine (hterm _).trans ?_
    rcases hmem w hw with hw | rfl
    · exact hs.writers w hw hwrites
    · exact absurd hwrites (by simp [Pc.writes])
  · -- unstarted
    intro w hw hun
    show w.message.jobId ∉ t.started
    rw [hstarted]
    rcases hmem w hw with hw | rfl
    · exact hs.unstarted w hw hun
    · exact absurd hun (by simp [Pc.unstarted])
  · -- startedOnce
    show t.started.Nodup
    rw [hstarted]
    exact hs.startedOnce

section

variable {cfg : Settings} {s t : System}

theorem enqueue_jobs {job : Job} {payload : Payload} {messageId : String}
    (h : enqueue cfg s job payload messageId = some t) :
    job.id ∉ s.jobIds ∧ t.jobIds = s.jobIds ++ [job.id] ∧
      (∀ jobId ∈ s.jobIds, t.jobs.get? jobId = s.jobs.get? jobId) ∧
      t.undelivered = s.undelivered ++ [⟨messageId, job.id⟩] ∧ t.pending = s.pending ∧
      t.workers = s.workers ∧ t.started = s.started := by
  obtain ⟨jobs, hjobs, h⟩ := Option.bind_eq_some_iff.mp h
  obtain ⟨payloads, -, h⟩ := Option.bind_eq_some_iff.mp h
  obtain rfl := Option.some.inj h
  obtain ⟨hfresh, hrows⟩ := Table.insert?_eq_some hjobs
  refine ⟨hfresh, ?_, ?_, rfl, rfl, rfl, rfl⟩
  · simp [System.jobIds, hrows]
  · intro jobId hjob
    obtain ⟨row, hrow, rfl⟩ := List.mem_map.mp hjob
    rw [Table.get?_of_mem hrow]
    exact Table.get?_insert hjobs (Table.get?_of_mem hrow)

theorem Inv.enqueue (hs : Inv s) {job : Job} {payload : Payload} {messageId : String}
    (h : enqueue cfg s job payload messageId = some t) : Inv t := by
  obtain ⟨hfresh, hids, hget, hundelivered, hpending, hworkers, hstarted⟩ := enqueue_jobs h
  have hsub : ∀ jobId ∈ s.jobIds, jobId ∈ t.jobIds := by
    intro jobId hjob
    rw [hids]
    exact List.mem_append_left _ hjob
  have hterm : ∀ jobId ∈ s.jobIds, t.terminal jobId = s.terminal jobId := by
    intro jobId hjob
    unfold System.terminal
    rw [hget jobId hjob]
  have hmessages : t.messages.Perm (⟨messageId, job.id⟩ :: s.messages) := by
    unfold System.messages
    rw [hundelivered, hpending, List.append_assoc, List.singleton_append]
    exact List.perm_middle
  refine ⟨?_, ?_, ?_, ?_, ?_, ?_, ?_, ?_, ?_⟩
  · -- knownMessages
    intro m hm
    rcases List.mem_cons.mp (hmessages.subset hm) with rfl | hm
    · rw [hids]
      simp
    · exact hsub _ (hs.knownMessages m hm)
  · -- knownWorkers
    intro w hw
    rw [hworkers] at hw
    exact hsub _ (hs.knownWorkers w hw)
  · -- knownStarted
    intro jobId hjob
    rw [hstarted] at hjob
    exact hsub _ (hs.knownStarted jobId hjob)
  · -- oneMessage: the id of the new job is in no older message
    rw [(hmessages.map DispatchMessage.jobId).nodup_iff, List.map_cons, List.nodup_cons]
    refine ⟨?_, hs.oneMessage⟩
    intro hmem
    obtain ⟨m, hm, heq⟩ := List.mem_map.mp hmem
    have hknown := hs.knownMessages m hm
    rw [heq] at hknown
    exact hfresh hknown
  · -- untouched
    intro m hm w hw
    rw [hworkers] at hw
    rw [hundelivered] at hm
    rcases List.mem_append.mp hm with hm | hm
    · exact hs.untouched m hm w hw
    · obtain rfl := List.mem_singleton.mp hm
      intro heq
      have hknown := hs.knownWorkers w hw
      rw [heq] at hknown
      exact hfresh hknown
  · -- oneWorker
    intro w hw w' hw' hjob hopen
    rw [hworkers] at hw hw'
    rw [hterm _ (hs.knownWorkers w hw)] at hopen
    exact hs.oneWorker w hw w' hw' hjob hopen
  · -- writers
    intro w hw hwrites
    rw [hworkers] at hw
    rw [hterm _ (hs.knownWorkers w hw)]
    exact hs.writers w hw hwrites
  · -- unstarted
    intro w hw hun
    rw [hworkers] at hw
    rw [hstarted]
    exact hs.unstarted w hw hun
  · rw [hstarted]
    exact hs.startedOnce

/-! ## Steps and runs -/

theorem moves_of_sameRows {s' : System} (hsame : SameRows s s') (hs : Inv s) {w : Worker}
    {pc : Pc} (hclosing : w.pc.isClosing = true → pc.isClosing = true)
    (hwrites : pc.writes = true → s.terminal w.message.jobId = false)
    (hunstarted : pc.unstarted = true → w.message.jobId ∉ s.started) :
    Moves s (s'.goto w pc) w pc := by
  have hterm : ∀ jobId, (s'.goto w pc).terminal jobId = s.terminal jobId :=
    terminal_congr hsame.jobs
  have hstarted : (s'.goto w pc).started = s.started := hsame.started
  exact
    { workers := congrArg (fun t => t.put { w with pc }) hsame.workers
      undelivered := hsame.undelivered
      pending := hsame.pending
      jobIds := congrArg (fun j => j.rows.map Job.id) hsame.jobs
      started := fun jobId h => .inl (hstarted ▸ h)
      startedOnce := hstarted ▸ hs.startedOnce
      others := fun jobId _ => hterm jobId
      later := fun h => (hterm _).symm.trans h
      change := .inl ⟨hterm _, hstarted⟩
      closing := hclosing
      writes := fun h => (hterm _).trans (hwrites h)
      unstarted := fun h => hstarted ▸ hunstarted h }

theorem terminal_write_of_ne {jobId k : String} {loaded : Loaded} {state : JobState}
    (h : k ≠ jobId) : (s.write jobId loaded state).terminal k = s.terminal k := by
  unfold System.terminal
  rw [write_get, if_neg h]

theorem moves_of_write (hs : Inv s) {w : Worker} (hw : w ∈ s.workers.rows) {loaded : Loaded}
    {state : JobState} {pc : Pc} (hwrites : w.pc.writes = true)
    (hpc : pc.writes = false ∨ (state.status = .running ∧ w.pc.unstarted = true)) :
    Moves s ((s.write w.message.jobId loaded state).goto w pc) w pc := by
  have hterm : s.terminal w.message.jobId = false := hs.writers w hw hwrites
  have hsame : (s.write w.message.jobId loaded state).undelivered = s.undelivered ∧
      (s.write w.message.jobId loaded state).pending = s.pending ∧
      (s.write w.message.jobId loaded state).workers = s.workers ∧
      (s.write w.message.jobId loaded state).started = s.started := by
    unfold System.write
    split <;> exact ⟨rfl, rfl, rfl, rfl⟩
  obtain ⟨hundelivered, hpending, hworkers, hstarted⟩ := hsame
  have hstarted' : ((s.write w.message.jobId loaded state).goto w pc).started = s.started :=
    hstarted
  exact
    { workers := congrArg (fun t => t.put { w with pc }) hworkers
      undelivered := hundelivered
      pending := hpending
      jobIds := write_keys s _ loaded state
      started := fun jobId h => .inl (hstarted' ▸ h)
      startedOnce := hstarted' ▸ hs.startedOnce
      others := fun jobId h => terminal_write_of_ne h
      later := fun _ => hterm
      change := .inr hwrites
      closing := fun h => absurd h (by simp [not_closing_of_writes hwrites])
      writes := by
        intro h
        rcases hpc with hpc | ⟨hrunning, -⟩
        · exact absurd h (by simp [hpc])
        · exact terminal_write_running hrunning hterm
      unstarted := by
        intro h
        rcases hpc with hpc | ⟨-, hun⟩
        · exact absurd (writes_of_unstarted h) (by simp [hpc])
        · exact hstarted' ▸ hs.unstarted w hw hun }

theorem moves_of_call (hs : Inv s) {w : Worker} (hw : w ∈ s.workers.rows) {pc : Pc}
    (hun : w.pc.unstarted = true) (hpc : pc.unstarted = false) :
    Moves s ({ s with started := w.message.jobId :: s.started }.goto w pc) w pc :=
  have hwrites : w.pc.writes = true := writes_of_unstarted hun
  { workers := rfl
    undelivered := rfl
    pending := rfl
    jobIds := rfl
    started := fun _ h => (List.mem_cons.mp h).symm
    startedOnce := List.nodup_cons.mpr ⟨hs.unstarted w hw hun, hs.startedOnce⟩
    others := fun _ _ => rfl
    later := fun h => h
    change := .inr hwrites
    closing := fun h => absurd h (by simp [not_closing_of_writes hwrites])
    writes := fun _ => hs.writers w hw hwrites
    unstarted := fun h => absurd h (by simp [hpc]) }

/-- What a timely step of a worker preserves. -/
theorem Inv.advanced (hs : Inv s) {w : Worker} (hw : w ∈ s.workers.rows) {answer : Answer}
    (hpayload : findsPayload s w = true → s.terminal w.message.jobId = false)
    (hlock : getsLock s w answer = true → w.message.jobId ∉ s.started)
    (h : Advanced s w answer t) : Inv t ∧ Stable s t := by
  cases h with
  | moved s' pc hsame hclosing hwrites hunstarted =>
      refine ⟨hs.moves hw (moves_of_sameRows hsame hs hclosing ?_ fun h => hlock (hunstarted h)),
        .of_get fun k _ => congrArg (fun j => j.get? k) hsame.jobs⟩
      intro hpc
      rcases hwrites hpc with h | h | h
      · exact hs.writers w hw h
      · exact h
      · exact hpayload h
  | wrote loaded state pc hwrites hpc =>
      refine ⟨hs.moves hw (moves_of_write hs hw hwrites hpc), .of_get fun k hk => ?_⟩
      have hne : k ≠ w.message.jobId := by
        rintro rfl
        exact absurd hk (by simp [hs.writers w hw hwrites])
      show (s.write w.message.jobId loaded state).jobs.get? k = _
      rw [write_get, if_neg hne]
  | called pc hun hpc =>
      exact ⟨hs.moves hw (moves_of_call hs hw hun hpc), .of_get fun k _ => rfl⟩
  | ended p =>
      refine ⟨hs.fewer rfl rfl rfl List.filter_sublist ?_, .of_get fun k _ => rfl⟩
      exact fun k hk => (List.mem_filter.mp hk).1

theorem messages_readNew {m : DispatchMessage} {undelivered : List DispatchMessage}
    {pending : Table PendingEntry fun e => e.message.id} {now : Nat}
    (hund : s.undelivered = m :: undelivered) (hins : s.pending.insert? ⟨m, now⟩ = some pending) :
    ({ s with undelivered, pending } : System).messages.Perm s.messages := by
  unfold System.messages
  rw [hund, (Table.insert?_eq_some hins).2, List.map_append]
  have hperm : (undelivered ++ (s.pending.rows.map PendingEntry.message ++ [m])).Perm
      (m :: (undelivered ++ s.pending.rows.map PendingEntry.message)) := by
    rw [← List.append_assoc]
    exact List.perm_append_singleton m _
  exact hperm

/-- What a timely step preserves. -/
theorem step_inv {l : Label} (hs : Inv s) (hl : timely s l = true) (h : step cfg s l = some t) :
    Inv t ∧ Stable s t := by
  cases l with
  | enqueue job payload messageId =>
      refine ⟨hs.enqueue h, .of_get fun k hk => ?_⟩
      refine (enqueue_jobs h).2.2.1 k ?_
      cases hget : s.jobs.get? k with
      | none => simp [System.terminal, hget] at hk
      | some job =>
          obtain ⟨hjob, rfl⟩ := Table.get?_mem hget
          exact List.mem_map_of_mem hjob
  | readNew =>
      simp only [step] at h
      split at h
      · cases h
      · rename_i m undelivered hund
        obtain ⟨pending, hins, h⟩ := Option.bind_eq_some_iff.mp h
        have hstable : Stable s t := by
          obtain ⟨workers, -, h⟩ := Option.bind_eq_some_iff.mp h
          obtain rfl := Option.some.inj h
          exact .of_get fun k _ => rfl
        have hnodup := hs.oneMessage
        rw [System.messages, hund, List.cons_append, List.map_cons, List.nodup_cons,
          List.map_append] at hnodup
        -- the message is no longer among those nobody works on
        have hm : m ∈ s.undelivered := by simp [hund]
        refine ⟨hs.spawn (t := { s with undelivered, pending }) rfl rfl rfl ?_
          (messages_readNew hund hins) ?_ ?_ h, hstable⟩
        · simp [System.messages, hund]
        · intro k hk
          refine ⟨by simp [hund, hk], fun heq => hnodup.1 (List.mem_append_left _ ?_)⟩
          exact heq ▸ List.mem_map_of_mem hk
        · intro _ w hw hjob
          exact absurd hjob (hs.untouched m hm w hw)
  | reclaim messageId =>
      simp only [step] at h
      split at h
      · cases h
      · rename_i entry hentry
        split at h
        · have hstable : Stable s t := by
            obtain ⟨workers, -, h⟩ := Option.bind_eq_some_iff.mp h
            obtain rfl := Option.some.inj h
            exact .of_get fun k _ => rfl
          obtain ⟨hmem, -⟩ := Table.get?_mem hentry
          have hmess : entry.message ∈ s.pending.rows.map PendingEntry.message :=
            List.mem_map_of_mem hmem
          refine ⟨hs.spawn (t := { s with pending := s.pending.put ⟨entry.message, s.now⟩ })
            rfl rfl rfl (List.mem_append_right _ hmess) ?_ ?_ ?_ h, hstable⟩
          · unfold System.messages
            show List.Perm (s.undelivered ++ (s.pending.put _).rows.map _) _
            rw [Table.map_put (a := ⟨entry.message, s.now⟩) hmem rfl rfl]
          · intro k hk
            refine ⟨hk, fun heq => ?_⟩
            have hnodup := hs.oneMessage
            rw [System.messages, List.map_append, List.nodup_append] at hnodup
            exact hnodup.2.2 _ (List.mem_map_of_mem hk) _ (List.mem_map_of_mem hmess) heq
          · intro hterm w hw hjob
            -- a timely claim finds every worker on the job closing
            simp only [timely, hentry, hterm, Bool.false_or, List.all_eq_true] at hl
            simpa [hjob] using hl w hw
        · cases h
  | go id answer =>
      simp only [step] at h
      split at h
      · cases h
      · rename_i w hget
        obtain ⟨hw, -⟩ := Table.get?_mem hget
        simp only [timely, hget, Bool.and_eq_true] at hl
        refine hs.advanced hw ?_ ?_ (advance_advanced h)
        · intro hfinds
          simpa [hfinds] using hl.1
        · intro hlock
          simpa [hlock] using hl.2
  | crash id =>
      obtain rfl := Option.some.inj h
      exact ⟨hs.fewer rfl rfl rfl (List.Sublist.refl _) fun k hk => (List.mem_filter.mp hk).1,
        .of_get fun k _ => rfl⟩
  | wait ms =>
      obtain rfl := Option.some.inj h
      exact ⟨hs.fewer rfl rfl rfl (List.Sublist.refl _) fun k hk => hk, .of_get fun k _ => rfl⟩
  | foreignLock scope =>
      simp only [step] at h
      split at h
      · obtain rfl := Option.some.inj h
        exact ⟨hs.fewer rfl rfl rfl (List.Sublist.refl _) fun k hk => hk, .of_get fun k _ => rfl⟩
      · cases h
  | foreignRelease scope =>
      obtain rfl := Option.some.inj h
      exact ⟨hs.fewer rfl rfl rfl (List.Sublist.refl _) fun k hk => hk, .of_get fun k _ => rfl⟩

end

/-- A system in which nothing has been dispatched yet, whatever its rows, keys
and locks are. -/
structure Undispatched (s : System) : Prop where
  undelivered : s.undelivered = []
  pending : s.pending.rows = []
  workers : s.workers.rows = []
  started : s.started = []

theorem init_inv {s : System} (hs : Undispatched s) : Inv s := by
  refine ⟨?_, ?_, ?_, ?_, ?_, ?_, ?_, ?_, ?_⟩ <;>
    simp [System.messages, hs.undelivered, hs.pending, hs.workers, hs.started]

/-- A job that is finished at some point of the run has the same status at its
end, and no executor was called twice for one job. -/
def SettledOnce (cfg : Settings) (s : System) (run : List Label) (u : System) : Prop :=
  (∀ before after t, run = before ++ after → Runs.exec (step cfg) s before = some t →
    Stable t u) ∧ u.started.Nodup

/-- In a run of timely steps every job is executed at most once and keeps the
status that it ends with. -/
theorem settled_once (cfg : Settings) {s u : System} {run : List Label} (hs : Undispatched s)
    (htimely : Runs.Along (step cfg) (fun s l => timely s l = true) s run)
    (h : Runs.exec (step cfg) s run = some u) : SettledOnce cfg s run u := by
  have hinv : ∀ {t : System} {labels : List Label}, Runs.exec (step cfg) s labels = some t →
      Runs.Along (step cfg) (fun s l => timely s l = true) s labels → Inv t := by
    intro t labels hrun hlabels
    exact Runs.invariant_along (fun s l t hs hl h => (step_inv hs hl h).1) (init_inv hs) hlabels
      hrun
  refine ⟨?_, (hinv h htimely).startedOnce⟩
  rintro before after t rfl ht
  obtain ⟨t', ht', hafter⟩ := Runs.exec_append.mp h
  obtain rfl : t = t' := Option.some.inj (ht.symm.trans ht')
  obtain ⟨hbefore, hrest⟩ := (Runs.along_append ht).mp htimely
  exact Runs.relation_along Stable.refl (fun _ _ _ => Stable.trans)
    (fun s l t hs hl h => step_inv hs hl h) (hinv ht hbefore) hrest hafter

/-! ### A worker that dies -/

/-- No job yet. -/
def noJobs : System where
  now := 0
  jobs := .empty
  payloads := .empty
  undelivered := []
  pending := .empty
  locks := .empty
  workers := .empty
  nextWorker := 1
  started := []

/-- The job is dispatched, and the first worker gets as far as the executor. -/
def executing : List Label :=
  [.enqueue bankJob ⟨"connect_to_site", []⟩ "1-0", .readNew, .go 1 .done, .go 1 .done,
    .go 1 .done, .go 1 .done, .go 1 .done]

/-- After the idle time a second worker takes the message over and gives up
waiting for the lock. -/
def takenOver : List Label :=
  [.wait 30000, .reclaim "1-0", .go 2 .done, .go 2 .done, .go 2 .done, .wait 250, .go 2 .done,
    .go 2 .done]

/-- The first worker dies in the executor; its lock is still held when the
message is delivered again, and the job ends as blocked. -/
theorem crashed_settledOnce :
    ∃ u, Runs.exec (step {}) noJobs
        (executing ++ .crash 1 :: takenOver ++ [.go 2 .done, .go 2 .done, .go 2 .done]) = some u ∧
      SettledOnce {} noJobs
        (executing ++ .crash 1 :: takenOver ++ [.go 2 .done, .go 2 .done, .go 2 .done]) u := by
  obtain ⟨u, hu, htimely⟩ : ∃ u, Runs.exec (step {}) noJobs
        (executing ++ .crash 1 :: takenOver ++ [.go 2 .done, .go 2 .done, .go 2 .done]) = some u ∧
      Runs.Along (step {}) (fun s l => timely s l = true) noJobs
        (executing ++ .crash 1 :: takenOver ++ [.go 2 .done, .go 2 .done, .go 2 .done]) :=
    ⟨_, rfl, by decide +kernel⟩
  exact ⟨u, hu, settled_once {} ⟨rfl, rfl, rfl, rfl⟩ htimely hu⟩

/-- The first worker is only slow: when it comes back, it writes `completed`
over `blocked`. -/
theorem slow_not_settledOnce :
    ¬ ∀ (cfg : Settings) (s u : System) (run : List Label), Undispatched s →
      Runs.exec (step cfg) s run = some u → SettledOnce cfg s run u := by
  intro hall
  obtain ⟨t, u, ht, hu, hblocked, hcompleted⟩ : ∃ t u,
      Runs.exec (step {}) noJobs (executing ++ takenOver) = some t ∧
      Runs.exec (step {}) noJobs (executing ++ takenOver ++
        [.go 1 (.executor (.ok [])), .go 1 .done, .go 1 .done]) = some u ∧
      t.status "ajob-1" = some .blocked ∧ u.status "ajob-1" = some .completed :=
    ⟨_, _, rfl, rfl, by decide +kernel, by decide +kernel⟩
  obtain ⟨job, hget, hjob⟩ := Option.map_eq_some_iff.mp hblocked
  have hstable := (hall {} noJobs u _ ⟨rfl, rfl, rfl, rfl⟩ hu).1 (executing ++ takenOver)
    [.go 1 (.executor (.ok [])), .go 1 .done, .go 1 .done] t rfl ht "ajob-1" job hget
    (by rw [hjob]; rfl)
  rw [hcompleted, hjob] at hstable
  exact absurd hstable (by decide)

end Plaidify.AccessJobs
