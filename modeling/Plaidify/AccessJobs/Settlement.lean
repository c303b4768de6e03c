import Plaidify.AccessJobs.Dispatch

/-!
# Acknowledged means settled

A run of `process_dispatched_access_job` that acknowledges its message or
deletes the payload should leave the job of the message finished: nothing else
could finish it any more.

The status of the row is written in one function and the message given up in
another. What connects the two is how the first one raises: an `Exception` that
leaves the row unfinished is caught, and the row marked failed; a cancellation
is not. `Raised` is that bookkeeping, and every function has a triple that ends
in it.
-/

namespace Plaidify.AccessJobs

open Raising

/-- The row of the job is pending or running. -/
def Unfinished (jobId : String) (w : World) : Prop :=
  ∃ job, w.jobs.get? jobId = some job ∧ job.status.unfinished = true

/-- What a run of a job leaves alone until it gives up the message. -/
def World.queue (w : World) :
    Table PayloadEntry PayloadEntry.jobId × List String × List String :=
  (w.payloads, w.stream, w.unacked)

/-- The exceptions that end in `_mark_job_failed`. -/
def Exc.markable : Exc → Bool
  | .cancelled | .mfaRequired _ _ _ => false
  | _ => true

/-- The cancellation that reaches the job at a point where nobody writes its row
any more: while it waits for the lock of its scope, or in `remove_session` on
the way to the row after the executor raised. -/
def Interrupted (env : Env) (job : Job) (executor : Executor) (executorKwargs : Dict) : Prop :=
  (env.acquireScopeLock = .cancelled ∧ job.status.unfinished = true) ∨
    (env.acquireScopeLock = .acquired ∧ env.removeSession = .cancelled ∧
      ∃ exc, executor (executionKwargs job executorKwargs) = .error exc ∧
        ∀ site mfaType sessionId, exc ≠ .mfaRequired site mfaType sessionId)

/-- The exception of a run: a cancellation over an unfinished row where the run
strands its job, and one that is marked or comes after the row was settled where
it does not. -/
def Raised (jobId : String) (strands : Prop) (exc : Exc) (w : World) : Prop :=
  (strands ∧ exc = .cancelled ∧ Unfinished jobId w) ∨
    (¬ strands ∧ (exc.markable = true ∨ ¬ Unfinished jobId w))

theorem Raised.congr {jobId : String} {s s' : Prop} {exc : Exc} {w : World} (hs : s ↔ s')
    (h : Raised jobId s exc w) : Raised jobId s' exc w := by
  unfold Raised at h ⊢
  rwa [hs] at h

/-! ## The row -/

variable {env : Env} {jobId : String} {p : Status → Prop}
  {q : Table PayloadEntry PayloadEntry.jobId × List String × List String}

/-- The queue is `q`, and the job has a row with a status in `p`. -/
structure Holds (q : Table PayloadEntry PayloadEntry.jobId × List String × List String)
    (jobId : String) (p : Status → Prop) (w : World) : Prop where
  queue : w.queue = q
  row : ∃ job, w.jobs.get? jobId = some job ∧ p job.status

theorem Holds.unfinished {w : World} (h : Holds q jobId p w)
    (hp : ∀ s, p s → s.unfinished = true) : Unfinished jobId w := by
  obtain ⟨job, hget, hjob⟩ := h.row
  exact ⟨job, hget, hp _ hjob⟩

theorem Holds.finished {w : World} (h : Holds q jobId p w)
    (hp : ∀ s, p s → s.unfinished = false) : ¬ Unfinished jobId w := by
  rintro ⟨job, hget, hjob⟩
  obtain ⟨job', hget', hp'⟩ := h.row
  obtain rfl := Option.some.inj (hget.symm.trans hget')
  exact absurd (hp _ hp') (by simp [hjob])

/-- A written row has the status that was written. -/
theorem persistJob_triple (job : Job) {E : Exc → World → Prop} :
    Triple (Holds q job.id p) (persistJob job) (fun _ => Holds q job.id (· = job.status)) E := by
  refine triple_modify _ ?_
  intro w h
  obtain ⟨row, hget, -⟩ := h.row
  exact ⟨h.queue, job, Table.get?_put hget, rfl⟩

theorem writeState_triple {job : Job} {state : Nat → JobState} {r : Status → Prop}
    {E : Exc → World → Prop} (hstate : ∀ now, r (state now).status) :
    Triple (Holds q job.id p) (writeState job state) (fun _ => Holds q job.id r) E := by
  refine triple_get_bind fun w h => ?_
  refine (persistJob_triple (applyJobState job (state w.now))).conseq (E := E)
    (fun _ h => h) ?_ (fun _ _ h => h) w h
  rintro _ w' ⟨hq, row, hget, hrow⟩
  exact ⟨hq, row, hget, hrow ▸ hstate w.now⟩

/-- `_mark_job_failed` settles the job, whatever its row is. -/
theorem markJobFailed_triple {message : String} {E : Exc → World → Prop} :
    Triple (fun w => w.queue = q) (markJobFailed jobId message)
      (fun _ w => w.queue = q ∧ ¬ Unfinished jobId w) E := by
  refine triple_get_bind fun w hq => ?_
  cases hget : w.jobs.get? jobId with
  | none =>
      refine ⟨hq, ?_⟩
      rintro ⟨job, hget', -⟩
      exact absurd (hget.symm.trans hget') (by simp)
  | some job =>
      show Ends _ _ (after (if job.status.unfinished then _ else _) w)
      cases hjob : job.status.unfinished with
      | true =>
          obtain ⟨-, hkey⟩ := Table.get?_mem hget
          subst hkey
          refine ⟨hq, ?_⟩
          rintro ⟨job', hget', hjob'⟩
          have hput := Table.get?_put (a := applyJobState job (failedState w.now message)) hget
          obtain rfl := Option.some.inj (hput.symm.trans hget')
          exact absurd hjob' (by simp [failedState, Status.unfinished])
      | false =>
          refine ⟨hq, ?_⟩
          rintro ⟨job', hget', hjob'⟩
          obtain rfl := Option.some.inj (hget.symm.trans hget')
          exact absurd hjob' (by simp [hjob])

/-! ## The answers of the environment -/

theorem removeSession_triple {sessionId : Option String} :
    Triple (Holds q jobId p) (removeSession env sessionId)
      (fun _ w => Holds q jobId p w ∧ env.removeSession ≠ .cancelled)
      (fun exc w => Holds q jobId p w ∧
        ((env.removeSession = .cancelled ∧ exc = .cancelled) ∨
          (env.removeSession ≠ .cancelled ∧ exc.markable = true))) := by
  intro w h
  unfold removeSession
  cases hrem : env.removeSession with
  | done => exact ⟨⟨h.queue, h.row⟩, by simp⟩
  | raised message => exact ⟨⟨h.queue, h.row⟩, .inr ⟨by simp, rfl⟩⟩
  | cancelled => exact ⟨h, .inl ⟨rfl, rfl⟩⟩

theorem recordPolicyAudit_triple {metadata : Option Dict} {status : Status}
    {P : World → Prop} : Triple P (recordPolicyAudit env metadata status) (fun _ => P)
      (fun _ => P) := by
  intro w h
  unfold recordPolicyAudit
  cases env.policyAudit metadata status with
  | ok u => exact h
  | error exc => exact h

theorem awaitExecutor_triple {executor : Executor} {kwargs : Dict} :
    Triple (Holds q jobId p) (awaitExecutor env executor kwargs)
      (fun result w => executor kwargs = .ok result ∧ Holds q jobId p w)
      (fun exc w => executor kwargs = .error exc ∧ Holds q jobId p w) := by
  refine Triple.bind (Q := fun _ => Holds q jobId p)
    (triple_modify _ fun w h => ⟨h.queue, h.row⟩) fun _ w h => ?_
  cases hex : executor kwargs with
  | ok result => exact ⟨rfl, h⟩
  | error exc => exact ⟨rfl, h⟩

theorem releaseScopeLock_triple {scope : String} {P : World → Prop} {E : Exc → World → Prop}
    (hP : ∀ w scopes, P w → P { w with heldScopes := scopes }) :
    Triple P (releaseScopeLock env scope) (fun _ => P) E := by
  intro w h
  unfold releaseScopeLock
  cases env.redis .eval with
  | none => exact hP w _ h
  | some message => exact h

/-! ## A job under the lock -/

theorem len_markable {v : Json} {exc : Exc} (h : len v = .error exc) : exc.markable = true := by
  cases v <;> simp only [len] at h <;> cases h <;> rfl

theorem policyMetadata_markable {result : Dict} {exc : Exc}
    (h : policyMetadata result = .error exc) : exc.markable = true := by
  unfold policyMetadata at h
  split at h
  · split at h
    · simp only [bind, Except.bind] at h
      split at h
      · rename_i e he
        obtain rfl := Except.error.inj h
        exact len_markable he
      · cases h
    · cases h
  · cases h

theorem resultMetadata_markable {result : Dict} {exc : Exc}
    (h : resultMetadata result = .error exc) : exc.markable = true := by
  simp only [resultMetadata, bind, Except.bind] at h
  split at h
  · rename_i e he
    obtain rfl := Except.error.inj h
    exact policyMetadata_markable he
  · cases h

/-- The statuses that `Unfinished` is not about. -/
def Final (status : Status) : Prop :=
  status.unfinished = false

theorem writeRaised_triple {job : Job} {metadata : Option Dict} {exc : Exc} :
    Triple (Holds q job.id p) (writeRaised env job metadata exc)
      (fun _ => Holds q job.id Final) (fun _ => Holds q job.id Final) := by
  refine Triple.bind (writeState_triple (r := Final)
    fun now => raisedState_unfinished now job metadata exc) fun _ => ?_
  cases exc with
  | concurrentAccess | plaidify => exact recordPolicyAudit_triple
  | cancelled | mfaRequired | other => exact triple_pure _ fun w h => h

/-- The handlers settle the row unless `remove_session` does not let them: what
it raises is marked later, and its cancellation is not. -/
theorem handleRaised_triple (job : Job) {metadata : Option Dict} {exc : Exc} :
    Triple (Holds q job.id (· = .running)) (handleRaised env job metadata exc)
      (fun _ _ => False)
      (fun e w => w.queue = q ∧
        Raised job.id (env.removeSession = .cancelled ∧
          ∀ site mfaType sessionId, exc ≠ .mfaRequired site mfaType sessionId) e w) := by
  have hfinal : ∀ {strands : Prop} (e : Exc) (w : World), ¬ strands → Holds q job.id Final w →
      w.queue = q ∧ Raised job.id strands e w :=
    fun e w hs h => ⟨h.queue, .inr ⟨hs, .inr (h.finished fun _ hp => hp)⟩⟩
  cases exc with
  | mfaRequired site mfaType sessionId =>
      have hnot : ¬ (env.removeSession = .cancelled ∧ ∀ s m i,
          Exc.mfaRequired site mfaType sessionId ≠ .mfaRequired s m i) :=
        fun h => h.2 _ _ _ rfl
      refine Triple.bind (writeRaised_triple.conseq (fun _ h => h) (fun _ _ h => h)
        fun e w h => hfinal e w hnot h) fun _ => ?_
      exact triple_throw _ fun w h => hfinal _ w hnot h
  | _ =>
      refine Triple.bind (removeSession_triple.conseq (fun _ h => h) (fun _ _ h => h) ?_) fun _ => ?_
      · rintro e w ⟨hw, ⟨hrem, rfl⟩ | ⟨hne, he⟩⟩
        · -- the removal is cancelled, and with it the handler
          refine ⟨hw.queue, .inl ⟨⟨hrem, by simp⟩, rfl, hw.unfinished ?_⟩⟩
          rintro _ rfl
          rfl
        · exact ⟨hw.queue, .inr ⟨fun hs => hne hs.1, .inl he⟩⟩
      · rintro w ⟨hw, hne⟩
        refine Triple.bind (writeRaised_triple.conseq (fun _ h => h) (fun _ _ h => h)
          fun e w h => hfinal e w (fun hs => hne hs.1) h) (fun _ => ?_) w hw
        exact triple_throw _ fun w h => hfinal _ w (fun hs => hne hs.1) h

/-- After the lock is gone, an exception before the row is written is marked,
and one after it finds the row settled. -/
theorem completeJob_triple (job : Job) {metadata : Option Dict} {result : Dict} :
    Triple (Holds q job.id (· = .running)) (completeJob env job metadata result)
      (fun _ => Holds q job.id Final)
      (fun exc w => w.queue = q ∧ (exc.markable = true ∨ ¬ Unfinished job.id w)) := by
  unfold completeJob
  cases hres : resultMetadata result with
  | error exc =>
      refine triple_throw _ fun w h => ?_
      exact ⟨h.queue, .inl (resultMetadata_markable hres)⟩
  | ok resultMetadata =>
      have hfinal : ∀ (exc : Exc) w, Holds q job.id Final w →
          w.queue = q ∧ (exc.markable = true ∨ ¬ Unfinished job.id w) :=
        fun _ w h => ⟨h.queue, .inr (h.finished fun _ hp => hp)⟩
      refine Triple.bind (writeState_triple (r := Final) fun _ => rfl) fun _ => ?_
      refine Triple.bind (recordPolicyAudit_triple.conseq (fun _ h => h) (fun _ _ h => h)
        hfinal) fun _ => ?_
      refine Triple.bind (removeSession_triple.conseq (fun _ h => h) (fun _ _ h => h.1)
        fun exc w h => hfinal exc w h.1) fun _ => ?_
      exact triple_pure _ fun w h => h

/-- The lock is held, or the run ends here; a cancellation while it waits leaves
the row as it was. -/
theorem lockOrBlock_triple {job : Job} (executor : Executor) (kwargs : Dict) :
    Triple (fun w => w.queue = q ∧ w.jobs.get? job.id = some job) (lockOrBlock env job)
      (fun _ w => env.acquireScopeLock = .acquired ∧ w.queue = q ∧
        w.jobs.get? job.id = some job)
      (fun exc w => w.queue = q ∧ Raised job.id (Interrupted env job executor kwargs) exc w) := by
  rintro w ⟨hq, hget⟩
  unfold lockOrBlock acquireScopeLock
  cases hlock : env.acquireScopeLock with
  | acquired => exact ⟨rfl, hq, hget⟩
  | busy =>
      have hnot : ¬ Interrupted env job executor kwargs := by simp [Interrupted, hlock]
      exact ⟨hq, .inr ⟨hnot, .inl rfl⟩⟩
  | cancelled =>
      refine ⟨hq, ?_⟩
      by_cases hjob : job.status.unfinished = true
      · exact .inl ⟨.inl ⟨hlock, hjob⟩, rfl, job, hget, hjob⟩
      · refine .inr ⟨by simp [Interrupted, hlock, hjob], .inr ?_⟩
        rintro ⟨job', hget', hjob'⟩
        obtain rfl := Option.some.inj (hget.symm.trans hget')
        exact hjob hjob'

/-- A run of a job that has a row. -/
theorem executeExistingJob_triple {job : Job} {executor : Executor} {kwargs : Dict}
    {metadata : Option Dict} :
    Triple (fun w => w.queue = q ∧ w.jobs.get? job.id = some job)
      (executeExistingJob env job executor kwargs metadata)
      (fun _ w => w.queue = q ∧ ¬ Interrupted env job executor kwargs ∧ ¬ Unfinished job.id w)
      (fun exc w => w.queue = q ∧ Raised job.id (Interrupted env job executor kwargs) exc w) := by
  refine Triple.bind (lockOrBlock_triple executor kwargs) fun _ => ?_
  refine triple_get_bind fun w ⟨hlock, hq, hget⟩ => ?_
  have hrow : Holds q job.id (fun _ => True) w := ⟨hq, job, hget, trivial⟩
  have hint : ∀ exc, executor (executionKwargs job kwargs) = .error exc →
      ((env.removeSession = .cancelled ∧ ∀ s m i, exc ≠ .mfaRequired s m i) ↔
        Interrupted env job executor kwargs) := by
    intro exc hex
    simp [Interrupted, hlock, hex]
  refine Triple.bind (persistJob_triple (applyJobState job (runningState w.now)))
    (fun _ => ?_) w hrow
  refine Triple.bind (Q := fun result w => executor (executionKwargs job kwargs) = .ok result ∧
    Holds q job.id (· = .running) w) ?_ fun result => ?_
  · -- the executor and its handlers under the lock
    refine Triple.tryFinally (Triple.tryCatch awaitExecutor_triple fun exc => ?_) (fun _ =>
      releaseScopeLock_triple ?_) (fun _ => releaseScopeLock_triple ?_)
    · rintro w' ⟨hex, hw'⟩
      exact (handleRaised_triple (applyJobState job (runningState w.now))).conseq
        (fun _ h => h) (fun _ _ h => h.elim)
        (fun e w h => ⟨h.1, h.2.congr (hint exc hex)⟩) w' hw'
    · exact fun w scopes h => ⟨h.1, h.2.queue, h.2.row⟩
    · exact fun w scopes h => h
  · rintro w' ⟨hex, hw'⟩
    have hnot : ¬ Interrupted env job executor kwargs := by simp [Interrupted, hlock, hex]
    exact (completeJob_triple (applyJobState job (runningState w.now))).conseq
      (fun _ h => h) (fun _ w h => ⟨h.queue, hnot, h.finished fun _ hp => hp⟩)
      (fun e w h => ⟨h.1, .inr ⟨hnot, h.2⟩⟩) w' hw'

/-! ## Processing a message -/

/-- A payload whose executor can be called, for a job that will be interrupted. -/
def Strands (env : Env) (w : World) (jobId : String) (payload : Payload) : Prop :=
  ∃ executor kwargs job, prepareExecutor env payload = .ok (executor, kwargs) ∧
    w.jobs.get? jobId = some job ∧ Interrupted env job executor kwargs

theorem runPayload_triple (w : World) (payload : Payload) :
    Triple (· = w) (runPayload env jobId payload)
      (fun _ w' => w'.queue = w.queue ∧ ¬ Strands env w jobId payload ∧ ¬ Unfinished jobId w')
      (fun exc w' => w'.queue = w.queue ∧ Raised jobId (Strands env w jobId payload) exc w') := by
  unfold runPayload
  cases hprep : prepareExecutor env payload with
  | error message =>
      rintro _ rfl
      refine ⟨rfl, .inr ⟨?_, .inl rfl⟩⟩
      rintro ⟨executor, kwargs, job, hok, -⟩
      exact absurd (hprep.symm.trans hok) (by simp)
  | ok prepared =>
      obtain ⟨executor, kwargs⟩ := prepared
      refine Triple.bind (triple_get_bind ?_) fun _ => triple_pure _ fun _ h => h
      rintro w rfl
      cases hget : w.jobs.get? jobId with
      | none =>
          refine ⟨rfl, .inr ⟨?_, .inl rfl⟩⟩
          rintro ⟨_, _, job, -, hget', -⟩
          exact absurd (hget.symm.trans hget') (by simp)
      | some job =>
          obtain ⟨-, rfl⟩ := Table.get?_mem hget
          have hstrands : Interrupted env job executor kwargs ↔ Strands env w job.id payload := by
            constructor
            · intro hint
              exact ⟨executor, kwargs, job, hprep, hget, hint⟩
            · rintro ⟨executor', kwargs', job', hok, hget', hint⟩
              obtain ⟨rfl, rfl⟩ := Prod.mk.inj (Except.ok.inj (hprep.symm.trans hok))
              obtain rfl := Option.some.inj (hget.symm.trans hget')
              exact hint
          refine executeExistingJob_triple.conseq (fun _ h => h) (fun _ w' h => ⟨h.1, ?_, h.2.2⟩)
            (fun e w' h => ⟨h.1, h.2.congr hstrands⟩) w ⟨rfl, hget⟩
          rw [← hstrands]
          exact h.2.1

/-- After the `except` clauses the job is unfinished in exactly the stranding runs. -/
theorem handled_triple (w : World) (payload : Payload) :
    Triple (· = w) (tryCatch (runPayload env jobId payload) (handleProcessing jobId))
      (fun _ w' => w'.queue = w.queue ∧ (Unfinished jobId w' ↔ Strands env w jobId payload))
      (fun _ w' => w'.queue = w.queue ∧ (Unfinished jobId w' ↔ Strands env w jobId payload)) := by
  refine ((runPayload_triple w payload).conseq (fun _ h => h) (fun _ w' h => ?_)
    (fun _ _ h => h)).tryCatch fun exc => ?_
  · exact ⟨h.1, iff_of_false h.2.2 h.2.1⟩
  · rintro w' ⟨hq, ⟨hs, rfl, hun⟩ | ⟨hs, hexc⟩⟩
    · exact ⟨hq, iff_of_true hun hs⟩
    · cases exc with
      | cancelled | mfaRequired =>
          exact ⟨hq, iff_of_false (hexc.resolve_left (by simp [Exc.markable])) hs⟩
      | _ =>
          exact markJobFailed_triple.conseq (fun _ h => h)
            (fun _ _ h => ⟨h.1, iff_of_false h.2 hs⟩) (fun _ _ h => h) w' hq

/-! ### Giving up the message -/

theorem callRedis_triple {command : RedisCommand} {effect : World → World} {P R : World → Prop}
    (hP : ∀ w, P w → R (effect w)) :
    Triple P (callRedis env command effect) (fun _ w => env.redis command = none ∧ R w)
      (fun _ w => env.redis command ≠ none ∧ P w) := by
  intro w h
  unfold callRedis
  cases env.redis command with
  | none => exact ⟨rfl, hP w h⟩
  | some message => exact ⟨by simp, h⟩

theorem ackDispatchedMessage_triple {messageId : String} {P : World → Prop}
    (hP : ∀ w unacked stream, P w → P { w with unacked, stream }) :
    Triple P (ackDispatchedMessage env messageId) (fun _ => P) (fun _ => P) := by
  refine Triple.bind ((callRedis_triple fun w h => hP w _ w.stream h).conseq (fun _ h => h)
    (fun _ _ h => h.2) (fun _ _ h => h.2)) fun _ => ?_
  exact (callRedis_triple fun w h => hP w w.unacked _ h).conseq (fun _ h => h)
    (fun _ _ h => h.2) (fun _ _ h => h.2)

/-- What the `finally` clause makes of a state: the rows stay, and the payload
goes before the message does. -/
structure GivenUp (env : Env) (jobId : String) (w w' : World) : Prop where
  jobs : w'.jobs = w.jobs
  kept : env.redis .delete ≠ none → w'.queue = w.queue
  deleted : env.redis .delete = none → w'.payloads = w.payloads.delete (·.jobId == jobId)

theorem finishMessage_triple (messageId : String) (w : World) :
    Triple (· = w) (finishMessage env jobId messageId) (fun _ => GivenUp env jobId w)
      (fun _ => GivenUp env jobId w) := by
  refine Triple.bind ((callRedis_triple (R := fun w' => w'.jobs = w.jobs ∧
    w'.payloads = w.payloads.delete (·.jobId == jobId)) ?_).conseq (fun _ h => h) (fun _ _ h => h)
    ?_) fun _ => ?_
  · rintro _ rfl
    exact ⟨rfl, rfl⟩
  · rintro _ _ ⟨hdel, rfl⟩
    exact ⟨rfl, fun _ => rfl, fun h => absurd h hdel⟩
  · refine (ackDispatchedMessage_triple (P := fun w' => env.redis .delete = none ∧
      w'.jobs = w.jobs ∧ w'.payloads = w.payloads.delete (·.jobId == jobId)) ?_).conseq
      (fun _ h => h) ?_ ?_
    · exact fun _ _ _ h => h
    · exact fun _ _ h => ⟨h.2.1, fun hdel => absurd h.1 hdel, fun _ => h.2.2⟩
    · exact fun _ _ h => ⟨h.2.1, fun hdel => absurd h.1 hdel, fun _ => h.2.2⟩

/-- The run with a payload: what it leaves unfinished, and what it gives up. -/
structure Processed (env : Env) (w : World) (jobId : String) (payload : Payload) (w' : World) :
    Prop where
  unfinished : Unfinished jobId w' ↔ Strands env w jobId payload
  kept : env.redis .delete ≠ none → w'.queue = w.queue
  deleted : env.redis .delete = none → w'.payloads = w.payloads.delete (·.jobId == jobId)

theorem Processed.of_givenUp {w w₁ w' : World} {payload : Payload} (hq : w₁.queue = w.queue)
    (hun : Unfinished jobId w₁ ↔ Strands env w jobId payload) (h : GivenUp env jobId w₁ w') :
    Processed env w jobId payload w' := by
  have hpay : w₁.payloads = w.payloads := congrArg Prod.fst hq
  refine ⟨?_, fun hdel => (h.kept hdel).trans hq, fun hdel => hpay ▸ h.deleted hdel⟩
  unfold Unfinished at hun ⊢
  rwa [h.jobs]

theorem payloadRun_triple (messageId : String) (w : World) (payload : Payload) :
    Triple (· = w)
      (tryFinally (tryCatch (runPayload env jobId payload) (handleProcessing jobId))
        (finishMessage env jobId messageId))
      (fun _ => Processed env w jobId payload) (fun _ => Processed env w jobId payload) := by
  refine (handled_triple w payload).tryFinally (fun _ => ?_) (fun _ => ?_)
  · rintro w₁ ⟨hq, hun⟩
    exact (finishMessage_triple messageId w₁).conseq (fun _ h => h)
      (fun _ _ h => .of_givenUp hq hun h) (fun _ _ h => .of_givenUp hq hun h) w₁ rfl
  · rintro w₁ ⟨hq, hun⟩
    exact (finishMessage_triple messageId w₁).conseq (fun _ h => h)
      (fun _ _ h => .of_givenUp hq hun h) (fun _ _ h => .of_givenUp hq hun h) w₁ rfl

/-! ## The claim of a message -/

/-- The message was acknowledged or the payload of the job deleted. -/
def Released (w w' : World) (message : Message) (jobId : String) : Prop :=
  (message.id ∈ w.unacked ∧ message.id ∉ w'.unacked) ∨
    ((w.payloads.get? jobId).isSome ∧ w'.payloads.get? jobId = none)

/-- The state in which a run ends. -/
def World.processed (env : Env) (claimed : Option Message) (w : World) : World :=
  (after (processDispatchedAccessJob env claimed) w).2

/-- A run that releases its message or payload leaves its job finished. -/
def Settles (env : Env) (claimed : Option Message) (w : World) : Prop :=
  ∀ message jobId, claimed = some message → message.jobId = some jobId →
    Released w (w.processed env claimed) message jobId →
    ¬ Unfinished jobId (w.processed env claimed)

/-- The runs that are interrupted before the row is settled, with a Redis that
still lets go of the payload. -/
def StrandingRun (env : Env) (claimed : Option Message) (w : World) : Prop :=
  ∃ message jobId payload, claimed = some message ∧ message.jobId = some jobId ∧
    env.redis .get = none ∧ env.redis .delete = none ∧
    loadDispatchPayload w.payloads w.now jobId = some payload ∧ Strands env w jobId payload

section

variable {message : Message} {w : World}

/-- A run that cannot read the payload changes nothing. -/
theorem processed_unread (hid : message.jobId = some jobId) (hget : env.redis .get ≠ none) :
    w.processed env (some message) = w := by
  refine Triple.state (P := (· = w)) (R := (· = w)) ?_ rfl
  unfold processDispatchedAccessJob
  simp only [hid]
  refine Triple.bind (Q := fun _ _ => False) ((callRedis_triple (R := fun _ => True)
    fun _ _ => trivial).conseq (fun _ h => h) (fun _ _ h => absurd h.1 hget) (fun _ _ h => h.2)) ?_
  exact fun _ _ h => h.elim

/-- A run that finds no payload settles the job before it acknowledges. -/
theorem processed_expired (hid : message.jobId = some jobId) (hget : env.redis .get = none)
    (hload : loadDispatchPayload w.payloads w.now jobId = none) :
    ¬ Unfinished jobId (w.processed env (some message)) := by
  refine Triple.state (P := (· = w)) (R := fun w' => ¬ Unfinished jobId w') ?_ rfl
  unfold processDispatchedAccessJob callRedis
  simp only [hid, hget]
  refine Triple.bind (triple_modify (Q := fun _ => (· = w)) id fun _ h => h) fun _ => ?_
  refine triple_get_bind ?_
  rintro _ rfl
  simp only [hload]
  refine Triple.bind (markJobFailed_triple.conseq (fun _ h => h) (fun _ _ h => h.2)
    (fun _ _ h => h)) (fun _ => ?_) _ rfl
  refine Triple.bind (ackDispatchedMessage_triple fun _ _ _ h => h) fun _ => ?_
  exact triple_pure _ fun _ h => h

/-- A run that finds a payload. -/
theorem processed_payload {payload : Payload} (hid : message.jobId = some jobId)
    (hget : env.redis .get = none)
    (hload : loadDispatchPayload w.payloads w.now jobId = some payload) :
    Processed env w jobId payload (w.processed env (some message)) := by
  refine Triple.state (P := (· = w)) (R := Processed env w jobId payload) ?_ rfl
  unfold processDispatchedAccessJob callRedis
  simp only [hid, hget]
  refine Triple.bind (triple_modify (Q := fun _ => (· = w)) id fun _ h => h) fun _ => ?_
  refine triple_get_bind ?_
  rintro _ rfl
  simp only [hload]
  refine Triple.bind (payloadRun_triple message.id _ payload) (fun _ => ?_) _ rfl
  exact triple_pure _ fun _ h => h

theorem not_released_of_queue {w' : World} (h : w'.queue = w.queue) :
    ¬ Released w w' message jobId := by
  obtain ⟨hpay, hstream, hun⟩ : w'.payloads = w.payloads ∧ w'.stream = w.stream ∧
      w'.unacked = w.unacked := by simpa [World.queue] using h
  rintro (⟨hmem, hnot⟩ | ⟨hsome, hnone⟩)
  · exact hnot (hun ▸ hmem)
  · rw [hpay] at hnone
    rw [hnone] at hsome
    exact absurd hsome (by simp)

end

/-- A run leaves its job settled, or the message and the payload alone, exactly
when no cancellation reaches it while the row can no longer be settled. -/
theorem settles_iff_not_strandingRun (env : Env) (claimed : Option Message) (w : World) :
    Settles env claimed w ↔ ¬ StrandingRun env claimed w := by
  constructor
  · rintro hsettles ⟨message, jobId, payload, rfl, hid, hget, hdel, hload, hstrands⟩
    have hp := processed_payload hid hget hload
    refine hsettles message jobId rfl hid (.inr ?_) (hp.unfinished.mpr hstrands)
    rw [hp.deleted hdel]
    refine ⟨?_, ?_⟩
    · unfold loadDispatchPayload at hload
      cases hentry : w.payloads.get? jobId with
      | none => simp [hentry] at hload
      | some entry => rfl
    · exact Table.get?_delete_key w.payloads jobId
  · rintro hnot message jobId rfl hid hreleased
    by_cases hget : env.redis .get = none
    · cases hload : loadDispatchPayload w.payloads w.now jobId with
      | none => exact processed_expired hid hget hload
      | some payload =>
          have hp := processed_payload hid hget hload
          by_cases hdel : env.redis .delete = none
          · intro hun
            exact hnot ⟨message, jobId, payload, rfl, hid, hget, hdel, hload, hp.unfinished.mp hun⟩
          · exact absurd hreleased (not_released_of_queue (hp.kept hdel))
    · rw [processed_unread hid hget] at hreleased
      exact absurd hreleased (not_released_of_queue rfl)

/-! ### A worker that is stopped while a job waits for its scope -/

/-- The worker is cancelled while it polls for the lock. -/
def stoppedEnv : Env where
  executorOverrides := []
  connectToSite := fun _ => .ok []
  elapsed := 0
  decryptCredential := fun _ => .error "Failed to decrypt credential"
  acquireScopeLock := .cancelled
  removeSession := .done
  policyAudit := fun _ _ => .ok ()
  redis := fun _ => none

/-- One job, queued and claimed. -/
def waitingWorld : World where
  now := 0
  jobs := bankJobs
  payloads := ⟨[⟨"ajob-1", ⟨"connect_to_site", []⟩, payloadTtl⟩], List.nodup_singleton _⟩
  stream := ["1-0"]
  unacked := ["1-0"]
  heldScopes := []
  mfaSessions := []

theorem not_settles_of_cancelled_lock :
    ¬ ∀ (env : Env) (claimed : Option Message) (w : World), Settles env claimed w := by
  intro hall
  have hreleased : Released waitingWorld
      (waitingWorld.processed stoppedEnv (some ⟨"1-0", some "ajob-1"⟩)) ⟨"1-0", some "ajob-1"⟩
      "ajob-1" := by
    refine .inl ⟨?_, ?_⟩
    · decide
    · decide +kernel
  refine hall stoppedEnv (some ⟨"1-0", some "ajob-1"⟩) waitingWorld _ "ajob-1" rfl rfl hreleased ?_
  exact ⟨bankJob, by rfl, by rfl⟩

end Plaidify.AccessJobs
