import Plaidify.HostedLink.Connections

/-!
# Completion is announced once

A job that has completed is announced by a `CONNECTED` event and a
`LINK_COMPLETE` webhook, and the session is then completed for good. The
reconciler announces whenever the status it read is not `"completed"`, and the
status is written by the page, by `connect` and by reconciles that overlap. The
law holds in the runs where none of them disturbs a completed session.
-/

namespace Plaidify.HostedLink

open AccessJobs (Dict Job)

/-! ## The property -/

/-- The job that the data of an event names. -/
def jobOf (data : Dict) : Option String :=
  match data.lookup "job_id" with
  | some (.str id) => some id
  | _ => none

/-- The name of the announcement. -/
def isConnected : Json → Bool
  | .str name => name == "CONNECTED"
  | _ => false

/-- The event announces that the job has completed. -/
def Event.announces (event : Event) (jobId : String) : Bool :=
  isConnected event.name && jobOf event.data == some jobId

/-- The webhook announces that the job has completed. -/
def Webhook.announces (webhook : Webhook) (jobId : String) : Bool :=
  webhook.event == "LINK_COMPLETE" && jobOf webhook.data == some jobId

namespace State

/-- How many `CONNECTED` events of the job were appended. -/
def connected (s : State) (jobId : String) : Nat :=
  s.session.events.countP (·.announces jobId)

/-- How many `LINK_COMPLETE` webhooks of the job were fired. -/
def linkComplete (s : State) (jobId : String) : Nat :=
  s.webhooks.countP (·.announces jobId)

/-- The session is completed, or the in-memory store has marked it expired. -/
def settled (s : State) : Bool :=
  s.session.status == .completed || s.session.status == .expired

/-- The reconcile is about to announce its job. -/
def announcing (s : State) (reconcile : Reconcile) : Bool :=
  reconcile.job.status == .completed && (s.held reconcile.session).status != .completed

end State

/-- Every job is announced at most once. -/
structure AnnouncedOnce (s : State) : Prop where
  connected : ∀ jobId, s.connected jobId ≤ 1
  linkComplete : ∀ jobId, s.linkComplete jobId ≤ 1

/-- An event of the page leaves a completed session completed, unless its life
time has run out. -/
def KeepsCompleted (s : State) : Label → Prop
  | .posted i body =>
      ∀ t, step s (.posted i body) = some t → s.session.status = .completed →
        t.session.status = .completed ∨ t.session.status = .expired
  | _ => True

/-! ## The condition -/

/-- The session has not moved on since the reconcile read it: it is still about
the same job, and completed only if the reconcile goes by a completed session and
a completed job. Nothing is announced for a session that is gone. -/
def State.upToDate (s : State) (reconcile : Reconcile) : Bool :=
  if s.stored then
    s.session.currentJobId == some reconcile.job.id &&
      (!s.settled || (reconcile.job.status == .completed && !s.announcing reconcile))
  else !s.announcing reconcile

/-- No step disturbs a completed session. -/
def Undisturbed (s : State) : Label → Bool
  | .polled i _ => (s.polls i).all s.upToDate
  | .posted i body =>
      (s.posts i).all fun read => (askedStatus (s.held read) body).isNone || !s.settled
  | .finish i outcome =>
      match s.connects i, outcome with
      | some (.waiting _ (some _) job), .mfaSession
      | some (.waiting _ (some _) job), .mfaRequired _ _ _ true =>
          s.session.currentJobId == some job.id && !s.settled
      | _, _ => true
  | .reconciled i _ =>
      match s.connects i with
      | some (.reconciling reconcile) => s.upToDate reconcile
      | _ => true
  | _ => true

/-! ## What a push announces -/

/-- Just the event `CONNECTED` calls the webhook for `LINK_COMPLETE`. -/
theorem webhookEvent_eq_linkComplete {name : Json} :
    webhookEvent name = some "LINK_COMPLETE" ↔ isConnected name = true := by
  constructor
  · intro h
    unfold webhookEvent at h
    split at h
    · exact absurd h (by decide)
    · rfl
    · exact absurd h (by decide)
    · exact absurd h (by decide)
    · exact absurd h (by decide)
    · exact absurd h (by simp)
  · intro h
    cases name with
    | str name =>
        obtain rfl : name = "CONNECTED" := by simpa [isConnected] using h
        rfl
    | _ => cases h

section

variable {s : State} {updates : LinkSession → LinkSession}

/-- A read announces nothing. -/
theorem touch_connected (jobId : String) : s.touch.connected jobId = s.connected jobId := by
  unfold State.connected
  rw [s.touch_events]

theorem touch_linkComplete (jobId : String) :
    s.touch.linkComplete jobId = s.linkComplete jobId := by
  obtain ⟨session, heq, -⟩ := s.touch_eq
  rw [heq]
  rfl

/-- A settled session is still settled when it is read. -/
theorem touch_settled (h : s.settled = true) : s.touch.settled = true := by
  obtain ⟨session, heq, rfl | rfl⟩ := s.touch_eq
  · rw [heq]
    exact h
  · rw [heq]
    rfl

theorem touch_currentJobId : s.touch.session.currentJobId = s.session.currentJobId := by
  obtain ⟨session, heq, rfl | rfl⟩ := s.touch_eq
  · rw [heq]
  · rw [heq]

/-- An update announces nothing, for it leaves the events alone. -/
theorem update_connected (hevents : ∀ x, (updates x).events = x.events) (jobId : String) :
    (s.update updates).connected jobId = s.connected jobId := by
  unfold State.connected
  rw [State.update_events hevents]

theorem update_linkComplete (jobId : String) :
    (s.update updates).linkComplete jobId = s.linkComplete jobId := by
  unfold State.update
  split <;> rfl

/-- A push announces the job that its data name, if it is the event `CONNECTED`. -/
theorem push_connected {name : Json} {data : Dict}
    (hevents : ∀ x, (updates x).events = x.events) (jobId : String) :
    (s.push name data updates).connected jobId = s.connected jobId +
      if s.stored = true ∧ isConnected name = true ∧ jobOf (sanitizeMembers data) = some jobId
      then 1 else 0 := by
  unfold State.connected
  rw [State.push_events hevents]
  cases s.stored with
  | false => simp
  | true => simp [List.countP_cons, Event.announces]

/-- A push of `CONNECTED` fires `LINK_COMPLETE`, whether or not the session is
stored. -/
theorem push_linkComplete {name : Json} {data : Dict} (jobId : String) :
    (s.push name data updates).linkComplete jobId = s.linkComplete jobId +
      if isConnected name = true ∧ jobOf data = some jobId then 1 else 0 := by
  have hname : webhookEvent name = some "LINK_COMPLETE" ↔ isConnected name = true :=
    webhookEvent_eq_linkComplete
  unfold State.push
  simp only []
  cases hwebhook : webhookEvent name with
  | none =>
      rw [hwebhook] at hname
      have hnot : ¬ isConnected name = true := fun h => absurd (hname.mpr h) (by simp)
      rw [update_linkComplete, if_neg fun h => hnot h.1]
      rfl
  | some webhook =>
      rw [hwebhook] at hname
      simp only [Option.some.injEq] at hname
      show List.countP _ (_ ++ [_]) = _
      rw [List.countP_append]
      congr 1
      · exact update_linkComplete jobId
      · simp [List.countP_cons, Webhook.announces, hname]

end

/-! ## What a reconcile writes -/

/-- A write for a job, which announces it or does not. -/
structure Written (s t : State) (jobId : String) (announced : Bool) : Prop where
  stored : t.stored = s.stored
  jobs : t.jobs = s.jobs
  connected : ∀ id, t.connected id =
    s.connected id + if s.stored = true ∧ announced = true ∧ jobId = id then 1 else 0
  linkComplete : ∀ id, t.linkComplete id =
    s.linkComplete id + if announced = true ∧ jobId = id then 1 else 0
  current : s.stored = true → t.session.currentJobId = some jobId
  lost : s.stored = false → t.session = s.session

section

variable {s t : State} {jobId : String} {updates : LinkSession → LinkSession}

/-- A read after the write changes nothing of it. -/
theorem Written.touch {announced : Bool} (h : Written s t jobId announced) :
    Written s t.touch jobId announced where
  stored := by
    obtain ⟨session, heq, -⟩ := t.touch_eq
    rw [heq]
    exact h.stored
  jobs := by
    obtain ⟨session, heq, -⟩ := t.touch_eq
    rw [heq]
    exact h.jobs
  connected id := by rw [touch_connected, h.connected]
  linkComplete id := by rw [touch_linkComplete, h.linkComplete]
  current hs := by rw [touch_currentJobId, h.current hs]
  lost hs := by rw [State.touch_of_not_stored (h.stored.trans hs), h.lost hs]

/-- An update writes without announcing. -/
theorem update_written (hevents : ∀ x, (updates x).events = x.events)
    (hcurrent : ∀ x, (updates x).currentJobId = some jobId) :
    Written s (s.update updates) jobId false where
  stored := by
    obtain ⟨session, webhooks, heq⟩ := s.update_sessionOnly updates
    rw [heq]
  jobs := by
    obtain ⟨session, webhooks, heq⟩ := s.update_sessionOnly updates
    rw [heq]
  connected id := by rw [update_connected hevents]; simp
  linkComplete id := by rw [update_linkComplete]; simp
  current hs := by rw [State.update_of_stored hs]; exact hcurrent _
  lost hs := by rw [State.update_of_not_stored hs]

/-- A push announces if its event is `CONNECTED`. -/
theorem push_written {name : Json} {data : Dict} {announced : Bool}
    (hevents : ∀ x, (updates x).events = x.events)
    (hcurrent : ∀ x, (updates x).currentJobId = some jobId)
    (hname : isConnected name = announced)
    (hdata : announced = true → jobOf data = some jobId ∧ jobOf (sanitizeMembers data) = some jobId) :
    Written s (s.push name data updates) jobId announced where
  stored := by
    obtain ⟨session, webhooks, heq⟩ := s.push_sessionOnly name data updates
    rw [heq]
  jobs := by
    obtain ⟨session, webhooks, heq⟩ := s.push_sessionOnly name data updates
    rw [heq]
  connected id := by
    rw [push_connected hevents, hname]
    cases announced with
    | false => simp
    | true => simp [(hdata rfl).2]
  linkComplete id := by
    rw [push_linkComplete, hname]
    cases announced with
    | false => simp
    | true => simp [(hdata rfl).1]
  current hs := by
    rcases State.push_session hs name data updates with h | h
    · rw [h]
      exact hcurrent _
    · rw [h]
      exact hcurrent _
  lost hs := State.push_of_not_stored hs name data updates

/-- A completed session stays settled when its expiry is noticed. -/
theorem push_settled (hs : s.stored = true) (name : Json) (data : Dict)
    (hstatus : ∀ x, (updates x).status = .completed) :
    (s.push name data updates).settled = true := by
  rcases State.push_session hs name data updates with h | h
  · simp [State.settled, h, hstatus]
  · simp [State.settled, h]

/-- The branch of a completed job announces it exactly when the session it goes
by is not completed. -/
theorem reconcileCompleted_written (session : LinkSession) (job : Job) (payload : Payload)
    (publicToken : Option String) :
    Written s (reconcileCompleted s session job payload publicToken) job.id
      (session.status != .completed) := by
  unfold reconcileCompleted
  by_cases hstatus : session.status = .completed
  · rw [if_neg (by simpa using hstatus), hstatus]
    exact update_written (fun _ => rfl) fun _ => rfl
  · rw [if_pos hstatus, bne_iff_ne.mpr hstatus]
    refine push_written (fun _ => rfl) (fun _ => rfl) rfl fun _ => ⟨rfl, ?_⟩
    simp [sanitizeMembers, sanitizeHostedEventData, hostedEventForbiddenKeys, jobOf]

/-- A session with a completed job is settled. -/
theorem reconcileCompleted_settled (hs : s.stored = true) (session : LinkSession) (job : Job)
    (payload : Payload) (publicToken : Option String) :
    (reconcileCompleted s session job payload publicToken).settled = true := by
  unfold reconcileCompleted
  by_cases hstatus : session.status ≠ .completed
  · rw [if_pos hstatus]
    exact push_settled hs _ _ fun _ => rfl
  · rw [if_neg hstatus, State.update_of_stored hs]
    rfl

/-- The other branches announce nothing. -/
theorem reconcileConnecting_written (session : LinkSession) (job : Job) (payload : Payload) :
    Written s (reconcileConnecting s session job payload) job.id false :=
  update_written (fun _ => rfl) fun _ => rfl

/-- A prompt is no announcement. -/
theorem reconcileMfaRequired_written (session : LinkSession) (job : Job) (payload : Payload) :
    Written s (reconcileMfaRequired s session job payload) job.id false := by
  unfold reconcileMfaRequired
  simp only []
  split
  · exact push_written (fun _ => rfl) (fun _ => rfl) rfl (by simp)
  · exact update_written (fun _ => rfl) fun _ => rfl

/-- Neither is a failure. -/
theorem reconcileFailed_written (session : LinkSession) (job : Job) (payload : Payload) :
    Written s (reconcileFailed s session job payload) job.id false := by
  unfold reconcileFailed
  simp only []
  split
  · exact push_written (fun _ => rfl) (fun _ => rfl) rfl (by simp)
  · exact update_written (fun _ => rfl) fun _ => rfl

/-- A reconcile announces its job where it finds it newly completed. -/
theorem reconcileWrite_written {reconcile : Reconcile} {fresh : String}
    (h : reconcileWrite s reconcile fresh = some t) :
    Written s t reconcile.job.id (s.announcing reconcile) := by
  have hcompleted := runtime_completed_iff s reconcile.job
  have hnot : (serializeAccessJobRuntime s reconcile.job).status ≠ .completed →
      s.announcing reconcile = false := by
    intro hne
    simp [State.announcing, mt hcompleted.mpr hne]
  unfold reconcileWrite at h
  simp only [] at h
  cases hstatus : (serializeAccessJobRuntime s reconcile.job).status with
  | completed =>
      simp only [hstatus] at h
      obtain ⟨r, hr, heq⟩ := Option.bind_eq_some_iff.mp h
      obtain rfl := Option.some.inj heq
      obtain ⟨publicTokens, hs⟩ := completedPublicToken_eq hr
      have hannouncing : s.announcing reconcile =
          ((s.held reconcile.session).status != .completed) := by
        simp [State.announcing, hcompleted.mp hstatus]
      rw [hs, hannouncing]
      have hwritten := reconcileCompleted_written (s := { s with publicTokens := publicTokens })
        (s.held reconcile.session) reconcile.job (serializeAccessJobRuntime s reconcile.job) r.1
      -- the rows of the public tokens are no part of what is compared
      exact Written.touch ⟨hwritten.stored, hwritten.jobs, hwritten.connected,
        hwritten.linkComplete, hwritten.current, hwritten.lost⟩
  | pending | running =>
      rw [hnot (by simp [hstatus])]
      simp only [hstatus] at h
      obtain rfl := Option.some.inj h
      exact (reconcileConnecting_written _ _ _).touch
  | mfaRequired =>
      rw [hnot (by simp [hstatus])]
      simp only [hstatus] at h
      obtain rfl := Option.some.inj h
      exact (reconcileMfaRequired_written _ _ _).touch
  | failed | blocked | cancelled =>
      rw [hnot (by simp [hstatus])]
      simp only [hstatus] at h
      obtain rfl := Option.some.inj h
      exact (reconcileFailed_written _ _ _).touch

/-- The reconcile of a completed job leaves a stored session settled. -/
theorem reconcileWrite_settled {reconcile : Reconcile} {fresh : String}
    (h : reconcileWrite s reconcile fresh = some t) (hs : s.stored = true)
    (hjob : reconcile.job.status = .completed) : t.settled = true := by
  have hstatus := (runtime_completed_iff s reconcile.job).mpr hjob
  unfold reconcileWrite at h
  simp only [hstatus] at h
  obtain ⟨r, hr, heq⟩ := Option.bind_eq_some_iff.mp h
  obtain rfl := Option.some.inj heq
  obtain ⟨publicTokens, hr⟩ := completedPublicToken_eq hr
  rw [hr]
  exact touch_settled (reconcileCompleted_settled (by exact hs) _ _ _ _)

end

/-! ## The invariant -/

/-- An announced job that the session is still about has settled it. -/
structure Inv (s : State) : Prop where
  paired : ∀ id, s.linkComplete id = s.connected id
  once : ∀ id, s.connected id ≤ 1
  current : ∀ id, s.session.currentJobId = some id → (s.jobs.get? id).isSome = true
  known : ∀ id, 0 < s.connected id → (s.jobs.get? id).isSome = true
  final : ∀ id, 0 < s.connected id → s.session.currentJobId = some id → s.settled = true

section

variable {s t : State}

/-- A step that announces nothing keeps the invariant if the session goes on with
its job as settled as it was, or turns to a job that is not announced. -/
theorem Inv.frame (hs : Inv s) (hconnected : ∀ id, t.connected id = s.connected id)
    (hlink : ∀ id, t.linkComplete id = s.linkComplete id)
    (hjobs : ∀ id, (s.jobs.get? id).isSome = true → (t.jobs.get? id).isSome = true)
    (hcurrent : ∀ id, t.session.currentJobId = some id →
      (s.connected id = 0 ∧ (t.jobs.get? id).isSome = true) ∨
        (s.session.currentJobId = some id ∧ (s.settled = true → t.settled = true))) : Inv t where
  paired id := by rw [hconnected, hlink, hs.paired]
  once id := by rw [hconnected]; exact hs.once id
  current id hid := by
    rcases hcurrent id hid with ⟨-, hknown⟩ | ⟨hid, -⟩
    · exact hknown
    · exact hjobs id (hs.current id hid)
  known id hpos := hjobs id (hs.known id (by rwa [hconnected] at hpos))
  final id hpos hid := by
    rw [hconnected] at hpos
    rcases hcurrent id hid with ⟨hzero, -⟩ | ⟨hid, hsettled⟩
    · omega
    · exact hsettled (hs.final id hpos hid)

/-- Steps that leave the session and the webhooks alone. -/
theorem Inv.of_session (hs : Inv s) (hsession : t.session = s.session)
    (hwebhooks : t.webhooks = s.webhooks)
    (hjobs : ∀ id, (s.jobs.get? id).isSome = true → (t.jobs.get? id).isSome = true) : Inv t := by
  refine hs.frame ?_ ?_ hjobs ?_
  · intro id
    unfold State.connected
    rw [hsession]
  · intro id
    unfold State.linkComplete
    rw [hwebhooks]
  · intro id hid
    rw [hsession] at hid
    refine .inr ⟨hid, ?_⟩
    unfold State.settled
    rw [hsession]
    exact fun h => h

/-- A read keeps the invariant. -/
theorem Inv.touch (hs : Inv s) : Inv s.touch := by
  refine hs.frame touch_connected touch_linkComplete ?_ ?_
  · intro id h
    obtain ⟨session, heq, -⟩ := s.touch_eq
    rw [heq]
    exact h
  · intro id hid
    rw [touch_currentJobId] at hid
    exact .inr ⟨hid, touch_settled⟩

/-- A reconcile that is up to date keeps the invariant: where it announces, the
session was not settled, so its job was not announced before. -/
theorem Inv.reconcile (hs : Inv s) {reconcile : Reconcile} {fresh : String}
    (h : reconcileWrite s reconcile fresh = some t) (hup : s.upToDate reconcile = true) :
    Inv t := by
  -- what the write announces, and what it leaves alone
  have hwritten := reconcileWrite_written h
  have hjobs : ∀ id, (s.jobs.get? id).isSome = true → (t.jobs.get? id).isSome = true := by
    intro id hid
    rw [hwritten.jobs]
    exact hid
  cases hstored : s.stored with
  | false =>
      -- nothing is stored, so nothing is announced and the session is gone
      have hquiet : s.announcing reconcile = false := by
        simpa [State.upToDate, hstored] using hup
      have hlost := hwritten.lost hstored
      -- no count changes, and no session is left that could be settled
      refine hs.frame ?_ ?_ hjobs ?_
      · intro id
        rw [hwritten.connected, hquiet]
        simp
      · intro id
        rw [hwritten.linkComplete, hquiet]
        simp
      · intro id hid
        rw [hlost] at hid
        refine .inr ⟨hid, ?_⟩
        unfold State.settled
        rw [hlost]
        exact fun h => h
  | true =>
      have hcurrent := hwritten.current hstored
      have hup' : s.session.currentJobId = some reconcile.job.id ∧
          (s.settled = true →
            reconcile.job.status = .completed ∧ s.announcing reconcile = false) := by
        simp only [State.upToDate, hstored, if_true, Bool.and_eq_true, beq_iff_eq,
          Bool.or_eq_true, Bool.not_eq_true'] at hup
        refine ⟨hup.1, fun hsettled => ?_⟩
        rcases hup.2 with h | h
        · rw [hsettled] at h
          cases h
        · exact h
      cases hannouncing : s.announcing reconcile with
      -- the session is written without announcing: only its status can have changed
      | false =>
          refine hs.frame ?_ ?_ hjobs ?_
          · intro id
            rw [hwritten.connected, hannouncing]
            simp
          · intro id
            rw [hwritten.linkComplete, hannouncing]
            simp
          · intro id hid
            obtain rfl : reconcile.job.id = id := by simpa [hcurrent] using hid
            refine .inr ⟨hup'.1, fun hsettled => ?_⟩
            exact reconcileWrite_settled h hstored (hup'.2 hsettled).1
      -- the session announces its job
      | true =>
          have hjob : reconcile.job.status = .completed := by
            simp only [State.announcing, Bool.and_eq_true, beq_iff_eq] at hannouncing
            exact hannouncing.1
          -- it was not announced before, or the session would be settled
          have hzero : s.connected reconcile.job.id = 0 := by
            by_contra hne
            have hsettled := hs.final _ (Nat.pos_of_ne_zero hne) hup'.1
            rw [(hup'.2 hsettled).2] at hannouncing
            cases hannouncing
          have hsettled := reconcileWrite_settled h hstored hjob
          refine ⟨?_, ?_, ?_, ?_, fun _ _ _ => hsettled⟩
          · -- paired
            intro id
            rw [hwritten.connected, hwritten.linkComplete, hs.paired]
            simp [hstored]
          · -- once
            intro id
            rw [hwritten.connected]
            by_cases hid : reconcile.job.id = id
            · subst hid
              simp [hstored, hannouncing, hzero]
            · simpa [hid] using hs.once id
          · -- current
            intro id hid
            obtain rfl : reconcile.job.id = id := by simpa [hcurrent] using hid
            exact hjobs _ (hs.current _ hup'.1)
          · -- known
            intro id hpos
            rw [hwritten.connected] at hpos
            by_cases hid : reconcile.job.id = id
            · subst hid
              exact hjobs _ (hs.current _ hup'.1)
            · exact hjobs id (hs.known id (by simpa [hid] using hpos))

/-- A push of another event keeps the invariant if it leaves a settled session
settled and with its job. -/
theorem Inv.push (hs : Inv s) {name : Json} {data : Dict} {updates : LinkSession → LinkSession}
    (hname : isConnected name = false) (hevents : ∀ x, (updates x).events = x.events)
    (hcurrent : s.stored = true → ∀ event id,
      (updates { s.session with events := event }).currentJobId = some id →
        s.session.currentJobId = some id ∧
          (s.settled = true →
            (updates { s.session with events := event }).status = s.session.status)) :
    Inv (s.push name data updates) := by
  refine hs.frame ?_ ?_ ?_ ?_
  · intro id
    rw [push_connected hevents, hname]
    simp
  · intro id
    rw [push_linkComplete, hname]
    simp
  · intro id hid
    obtain ⟨session, webhooks, heq⟩ := s.push_sessionOnly name data updates
    rw [heq]
    exact hid
  · intro id hid
    right
    cases hstored : s.stored with
    | false =>
        have hlost := State.push_of_not_stored hstored name data updates
        rw [hlost] at hid
        refine ⟨hid, ?_⟩
        unfold State.settled
        rw [hlost]
        exact fun h => h
    | true =>
        rcases State.push_session hstored name data updates with h | h
        · rw [h] at hid
          obtain ⟨hid, hstatus⟩ := hcurrent hstored _ id hid
          refine ⟨hid, fun hsettled => ?_⟩
          have heq := hstatus hsettled
          unfold State.settled at hsettled ⊢
          rw [h, heq]
          exact hsettled
        · rw [h] at hid
          obtain ⟨hid, -⟩ := hcurrent hstored _ id hid
          refine ⟨hid, fun _ => ?_⟩
          simp [State.settled, h]

/-- The host's event keeps it, unless it asks for a status after the end. -/
theorem Inv.postedEvent (hs : Inv s) {read : LinkSession} {body : Dict}
    (h : (askedStatus (s.held read) body).isSome = true → s.settled = false) :
    Inv (postedEvent s read body) := by
  unfold HostedLink.postedEvent
  unfold askedStatus at h
  simp only []
  split
  · exact hs
  · rename_i name hne hname
    rw [hname] at h
    refine hs.push ?_ (fun _ => rfl) ?_
    · simpa [isConnected] using hne
    · intro hstored event id hid
      refine ⟨hid, fun hsettled => ?_⟩
      -- an event that moved the status would meet a settled session
      have hnone : eventStatus (s.held read) name = none := by
        rw [← Option.not_isSome_iff_eq_none]
        intro hsome
        rw [h hsome] at hsettled
        cases hsettled
      simp [eventUpdates, hnone]
  · rename_i name hne hstr
    refine hs.push ?_ (fun _ => rfl) (fun _ _ _ hid => ⟨hid, fun _ => rfl⟩)
    unfold isConnected
    split
    · rename_i heq
      exact (hstr _ heq).elim
    · rfl

/-- An event that asks for no status leaves the status, up to its overlay. -/
theorem postedEvent_status {read : LinkSession} {body : Dict}
    (h : askedStatus (s.held read) body = none) :
    (postedEvent s read body).session.status = s.session.status ∨
      (postedEvent s read body).session.status = .expired := by
  have hpush : ∀ {name : Json} {data : Dict} {updates : LinkSession → LinkSession},
      (∀ x, (updates x).status = x.status) →
      (s.push name data updates).session.status = s.session.status ∨
        (s.push name data updates).session.status = .expired := by
    intro name data updates hstatus
    cases hstored : s.stored with
    | false => exact .inl (congrArg _ (State.push_of_not_stored hstored name data updates))
    | true =>
        rcases State.push_session hstored name data updates with h | h
        · rw [h]
          exact .inl (hstatus _)
        · rw [h]
          exact .inr rfl
  unfold askedStatus at h
  unfold HostedLink.postedEvent
  simp only []
  split
  · exact .inl rfl
  · rename_i name hne hname
    rw [hname] at h
    refine hpush fun x => ?_
    have hnone : eventStatus (s.held read) name = none := h
    simp [eventUpdates, hnone]
  · exact hpush fun _ => rfl

/-- A connect begins without touching the session's job. -/
theorem Inv.connect (hs : Inv s) {i : Nat} {request : ConnectRequest} {fresh : String}
    {userFound : Bool} (h : HostedLink.connect s i request fresh userFound = some t) : Inv t := by
  unfold HostedLink.connect at h
  split at h
  · obtain rfl := Option.some.inj h
    exact hs.of_session rfl rfl fun _ hid => hid
  · split at h
    · obtain rfl := Option.some.inj h
      exact hs.touch.of_session rfl rfl fun _ hid => hid
    · split at h
      · obtain ⟨r, hr, rfl⟩ := Option.map_eq_some_iff.mp h
        obtain ⟨accessTokens, heq⟩ := writeLinkRows_eq hr
        rw [heq]
        exact hs.touch.of_session rfl rfl fun _ hid => hid
      · obtain rfl := Option.some.inj h
        exact hs.touch.of_session rfl rfl fun _ hid => hid

/-- A new job is not announced yet. -/
theorem Inv.addJob (hs : Inv s) (request : ConnectRequest) (job : Job) :
    Inv (addJob s request job) := by
  refine hs.of_session rfl rfl fun k hk => ?_
  show ((s.jobs.set job).get? k).isSome = true
  rw [Table.get?_set]
  split
  · rfl
  · exact hk

/-- The session may turn to a job that was not announced. -/
theorem Inv.attachJob (hs : Inv s) {request : ConnectRequest} {hosted : Option (Option String)}
    {job : Job} (hnew : s.connected job.id = 0) (hknown : (s.jobs.get? job.id).isSome = true) :
    Inv (attachJob s request hosted job) := by
  unfold HostedLink.attachJob
  cases hosted with
  | none => exact hs
  | some accessToken =>
      refine hs.frame (update_connected fun _ => rfl) update_linkComplete ?_ ?_
      · intro k hk
        obtain ⟨session, webhooks, heq⟩ :=
          s.update_sessionOnly (connectingUpdates request accessToken job)
        simp only [heq]
        exact hk
      · intro k hk
        cases hstored : s.stored with
        | false =>
            simp only [State.update_of_not_stored hstored] at hk ⊢
            exact .inr ⟨hk, fun h => h⟩
        | true =>
            simp only [State.update_of_stored hstored] at hk ⊢
            obtain rfl : job.id = k := by simpa [connectingUpdates] using hk
            exact .inl ⟨hnew, hknown⟩

/-- A new job is one that was not announced. -/
theorem Inv.startConnect (hs : Inv s) {i : Nat} {request : ConnectRequest}
    {hosted : Option (Option String)} {id sessionId lockScope : String}
    (h : HostedLink.startConnect s i request hosted id sessionId lockScope = some t) : Inv t := by
  unfold HostedLink.startConnect at h
  simp only [] at h
  split at h
  · cases h
  · rename_i hfresh
    obtain rfl := Option.some.inj h
    have hunknown : (s.jobs.get? id).isSome = false := by
      simp only [Bool.or_eq_true, not_or, Bool.not_eq_true] at hfresh
      exact hfresh.1.1
    have hnew : s.connected id = 0 := by
      by_contra hne
      have hknown := hs.known id (Nat.pos_of_ne_zero hne)
      rw [hunknown] at hknown
      cases hknown
    have hadded : Inv (HostedLink.addJob s request
        (connectJob s request id sessionId lockScope)) := hs.addJob _ _
    have hknown : ((HostedLink.addJob s request
        (connectJob s request id sessionId lockScope)).jobs.get? id).isSome = true := by
      show ((s.jobs.set _).get? id).isSome = true
      rw [Table.get?_set]
      simp [connectJob]
    have hattached : Inv (HostedLink.attachJob (HostedLink.addJob s request
        (connectJob s request id sessionId lockScope)) request hosted
        (connectJob s request id sessionId lockScope)) := hadded.attachJob hnew hknown
    exact hattached.of_session rfl rfl fun _ hid => hid

/-- A prompt is for the current job, which is not settled. -/
theorem Inv.connectMfaRequired (hs : Inv s) {request : ConnectRequest}
    {accessToken jobId : Option String} {mfaType sessionId : String} {message : Json}
    {metadata : Dict}
    (hjob : ∀ id, jobId = some id → s.session.currentJobId = some id ∧ s.settled = false) :
    Inv (connectMfaRequired s request accessToken jobId mfaType sessionId message metadata) := by
  refine hs.push rfl (fun _ => rfl) ?_
  intro _ event id hid
  obtain ⟨hcurrent, hsettled⟩ := hjob id hid
  refine ⟨hcurrent, fun h => ?_⟩
  rw [hsettled] at h
  cases h

/-- An undisturbed connect ends without announcing. -/
theorem Inv.finishConnect (hs : Inv s) {i : Nat} {request : ConnectRequest}
    {hosted : Option (Option String)} {job : Job} {outcome : Outcome}
    (hconnect : s.connects i = some (.waiting request hosted job))
    (hC : Undisturbed s (.finish i outcome) = true)
    (h : HostedLink.finishConnect s i request hosted job outcome = some t) : Inv t := by
  have hset : ∀ {u : State}, Inv u → Inv (u.setConnect i none) :=
    fun hu => hu.of_session rfl rfl fun _ hid => hid
  cases outcome with
  | completed =>
      simp only [HostedLink.finishConnect] at h
      split at h
      · obtain rfl := Option.some.inj h
        exact hset hs
      · obtain rfl := Option.some.inj h
        exact hs.touch.of_session rfl rfl fun _ hid => hid
  | mfaSession =>
      obtain ⟨session, -, heq⟩ := Option.bind_eq_some_iff.mp h
      obtain rfl := Option.some.inj heq
      cases hosted with
      | none => exact hset hs
      | some accessToken =>
          simp only [Undisturbed, hconnect, Bool.and_eq_true, beq_iff_eq,
            Bool.not_eq_true'] at hC
          refine hset (hs.connectMfaRequired fun id hid => ?_)
          obtain rfl := Option.some.inj hid
          exact hC
  | mfaRequired site mfaType sessionId tracked =>
      obtain rfl := Option.some.inj h
      cases hosted with
      | none => exact hset hs
      | some accessToken =>
          refine hset (hs.connectMfaRequired fun id hid => ?_)
          cases tracked with
          | false => cases hid
          | true =>
              simp only [Undisturbed, hconnect, Bool.and_eq_true, beq_iff_eq,
                Bool.not_eq_true'] at hC
              obtain rfl := Option.some.inj hid
              exact hC
  | pending =>
      obtain rfl := Option.some.inj h
      exact hset hs
  | raised =>
      obtain rfl := Option.some.inj h
      exact hset hs

/-! ## Every step -/

/-- An undisturbed step keeps the invariant. -/
theorem step_inv {l : Label} (hs : Inv s) (hC : Undisturbed s l = true)
    (h : step s l = some t) : Inv t := by
  cases l with
  | wait milliseconds =>
      obtain rfl := Option.some.inj h
      exact hs.of_session rfl rfl fun _ hid => hid
  | evict =>
      obtain rfl := Option.some.inj h
      exact hs.of_session rfl rfl fun _ hid => hid
  | writeJob id state =>
      obtain ⟨job, hjob, rfl⟩ := Option.map_eq_some_iff.mp h
      refine hs.of_session rfl rfl fun k hk => ?_
      show ((s.jobs.put _).get? k).isSome = true
      rw [Table.get?_put_eq]
      -- the job that is written, or another one
      split
      · rw [Option.isSome_map]
        exact hk
      · exact hk
  | createMfa sessionId challenge =>
      obtain rfl := Option.some.inj h
      exact hs.of_session rfl rfl fun _ hid => hid
  | submitMfa sessionId code =>
      obtain rfl := Option.some.inj h
      exact hs.of_session rfl rfl fun _ hid => hid
  | removeMfa sessionId =>
      obtain rfl := Option.some.inj h
      exact hs.of_session rfl rfl fun _ hid => hid
  | poll i =>
      simp only [step] at h
      split at h
      · cases h
      · obtain rfl := Option.some.inj h
        exact hs.touch.of_session rfl rfl fun _ hid => hid
  | polled i fresh =>
      simp only [step] at h
      split at h
      · cases h
      · rename_i reconcile hpoll
        -- the poll is over, and what it read is up to date
        have hs' : Inv (s.setPoll i none) := hs.of_session rfl rfl fun _ hid => hid
        simp only [Undisturbed, hpoll, Option.all_some] at hC
        exact hs'.reconcile h hC
  | post i =>
      simp only [step] at h
      split at h
      · cases h
      · obtain rfl := Option.some.inj h
        unfold postEvent
        split
        · exact hs
        · split
          · exact hs.touch
          · exact hs.touch.of_session rfl rfl fun _ hid => hid
  | posted i body =>
      simp only [step] at h
      split at h
      · cases h
      · rename_i read hpost
        obtain rfl := Option.some.inj h
        -- the event may ask for a status only while the session is not settled
        have hs' : Inv (s.setPost i none) := hs.of_session rfl rfl fun _ hid => hid
        refine hs'.postedEvent fun hasks => ?_
        simp only [Undisturbed, hpost, Option.all_some, Bool.or_eq_true, Bool.not_eq_true'] at hC
        rcases hC with hC | hC
        · have hsome : (askedStatus (s.held read) body).isSome = true := hasks
          rw [Option.isNone_iff_eq_none.mp hC] at hsome
          cases hsome
        · exact hC
  | connect i request fresh userFound =>
      simp only [step] at h
      split at h
      · cases h
      · exact hs.connect h
  | start i id sessionId lockScope =>
      simp only [step] at h
      split at h
      · exact hs.startConnect h
      · cases h
  | finish i outcome =>
      simp only [step] at h
      split at h
      · rename_i hconnect
        exact hs.finishConnect hconnect hC h
      · cases h
  | reconciled i fresh =>
      simp only [step] at h
      split at h
      · rename_i reconcile hconnect
        -- the connect's own reconcile is like a poll's
        have hs' : Inv (s.setConnect i none) := hs.of_session rfl rfl fun _ hid => hid
        simp only [Undisturbed, hconnect] at hC
        exact hs'.reconcile h hC
      · cases h
  | exchange userId publicToken =>
      simp only [step] at h
      split at h
      · obtain rfl := Option.some.inj h
        exact hs
      · rename_i heq
        obtain rfl := Option.some.inj h
        obtain ⟨publicTokens, hpublic⟩ := exchangePublicToken_eq heq
        simp only [] at hpublic
        rw [hpublic]
        exact hs.of_session rfl rfl fun _ hid => hid

/-- An undisturbed event leaves a completed session completed. -/
theorem keepsCompleted_of_undisturbed {l : Label} (hC : Undisturbed s l = true) :
    KeepsCompleted s l := by
  cases l with
  | posted i body =>
      intro t h hstatus
      simp only [step] at h
      split at h
      · cases h
      · rename_i read hpost
        obtain rfl := Option.some.inj h
        have hquiet : askedStatus (s.held read) body = none := by
          simpa [Undisturbed, hpost, State.settled, hstatus] using hC
        rw [← hstatus]
        exact postedEvent_status (s := s.setPost i none) hquiet
  | _ => trivial

end

/-! ## Every run -/

variable {backend : Links.Backend} {linkToken : String} {now : Nat} {site : Option String}
  {userId : Option Nat} {u : State} {run : List Label}

/-- A new session has announced nothing. -/
theorem init_inv (backend : Links.Backend) (linkToken : String) (now : Nat)
    (site : Option String) (userId : Option Nat) : Inv (init backend linkToken now site userId) where
  paired _ := rfl
  once _ := Nat.zero_le 1
  current _ h := by cases h
  known _ h := by cases h
  final _ h := by cases h

/-- By the invariant every job is announced once at most, on both ways. -/
theorem Inv.announcedOnce {s : State} (hs : Inv s) : AnnouncedOnce s where
  connected := hs.once
  linkComplete jobId := by
    rw [hs.paired]
    exact hs.once jobId

/-- **Completion is final.** In a run that disturbs no completed session every job
is announced at most once, and no event of the page moves a completed session. -/
theorem announcedOnce_of_undisturbed
    (h : Runs.exec step (init backend linkToken now site userId) run = some u)
    (hC : Runs.Along step (fun s l => Undisturbed s l = true)
      (init backend linkToken now site userId) run) :
    (∀ before after t, run = before ++ after →
      Runs.exec step (init backend linkToken now site userId) before = some t →
        AnnouncedOnce t) ∧
      Runs.Along step KeepsCompleted (init backend linkToken now site userId) run := by
  constructor
  · intro before after t heq ht
    have hinv := Runs.always_of_along (fun _ _ _ hs hC h => step_inv hs hC h)
      (init_inv backend linkToken now site userId) hC before after t heq ht
    exact hinv.announcedOnce
  · rw [Runs.along_iff_forall h] at hC ⊢
    intro before l after t heq ht
    exact keepsCompleted_of_undisturbed (hC before l after t heq ht)

/-! ### Two runs -/

/-- A connection that completes, is polled, and the page that closes after it. -/
def bankConnected : List Label :=
  [.connect 1 { site := "bank", username := "user", password := "secret" } "access" true,
    .start 1 "job" "mfa" "scope",
    .writeJob "job" (AccessJobs.runningState 1000),
    .writeJob "job" (AccessJobs.completedState 2000 none [("status", .str "connected")]),
    .poll 1, .polled 1 "public",
    .post 1, .posted 1 [("event", .str "EXIT")],
    .poll 1, .polled 1 "public-2"]

/-- The page reports an error instead of closing. -/
def lateError : List Label :=
  bankConnected.take 6 ++
    [.post 1, .posted 1 [("event", .str "ERROR"), ("error", .str "Connection failed.")],
      .poll 1, .polled 1 "public-2"]

theorem bankConnected_announcedOnce :
    ∃ u, Runs.exec step (init .redis "link" 0 none (some 1)) bankConnected = some u ∧
      u.connected "job" = 1 ∧
      (∀ before after t, bankConnected = before ++ after →
        Runs.exec step (init .redis "link" 0 none (some 1)) before = some t → AnnouncedOnce t) ∧
      Runs.Along step KeepsCompleted (init .redis "link" 0 none (some 1)) bankConnected := by
  have hcount : (Runs.exec step (init .redis "link" 0 none (some 1)) bankConnected).map
      (fun u => u.connected "job") = some 1 := by decide +kernel
  obtain ⟨u, hu, hone⟩ := Option.map_eq_some_iff.mp hcount
  exact ⟨u, hu, hone, announcedOnce_of_undisturbed hu (by decide +kernel)⟩

/-- The next poll announces the same job again. -/
theorem lateError_announcedTwice :
    ¬ ∀ (backend : Links.Backend) (linkToken : String) (now : Nat) (site : Option String)
        (userId : Option Nat) (run : List Label) (u : State),
      Runs.exec step (init backend linkToken now site userId) run = some u →
        AnnouncedOnce u ∧
          Runs.Along step KeepsCompleted (init backend linkToken now site userId) run := by
  intro hall
  have hcount : (Runs.exec step (init .redis "link" 0 none (some 1)) lateError).map
      (fun u => u.connected "job") = some 2 := by decide +kernel
  obtain ⟨u, hu, htwo⟩ := Option.map_eq_some_iff.mp hcount
  have hone := (hall .redis "link" 0 none (some 1) lateError u hu).1.connected "job"
  omega

end Plaidify.HostedLink
