import Plaidify.HostedLink.Connections

/-!
# One prompt per MFA challenge

The MFA session of a job makes the job one that waits for a code. A reconcile
and `POST /connect` then append `MFA_REQUIRED`, from whatever status the link
session has; and the MFA session stays registered after its code was accepted,
so that the next reconcile asks for it again. The law holds in the runs where a
challenge is announced only to a session that is connecting, nobody brings an
announced session back to connecting, and no poll comes between the code and the
end of the job.
-/

namespace Plaidify.HostedLink

open AccessJobs (Dict Job Status)
open Mfa (MfaSession)

/-! ## The property -/

/-- The MFA session whose code an event asks for. -/
def Event.prompt (event : Event) : Option String :=
  match event.name, event.data.lookup "session_id" with
  | .str "MFA_REQUIRED", some (.str sessionId) => some sessionId
  | _, _ => none

namespace State

/-- How many `MFA_REQUIRED` events of the MFA session were appended. -/
def prompted (s : State) (sessionId : String) : Nat :=
  s.session.events.countP (·.prompt == some sessionId)

/-- The job of the MFA session has no terminal status. -/
def active (s : State) (sessionId : String) : Bool :=
  s.jobs.rows.any fun job => job.sessionId == some sessionId && job.status.unfinished

end State

/-- What an observer notes of every MFA session. -/
structure Watch where
  /-- The prompts of the server since the session was created, while its job is active. -/
  prompts : String → Nat
  /-- `submit_code` has returned `True` for it. -/
  accepted : String → Bool

def Watch.init : Watch where
  prompts := fun _ => 0
  accepted := fun _ => false

namespace Watch

/-- A new session. -/
def reset (w : Watch) (sessionId : String) : Watch where
  prompts := fun k => if k = sessionId then 0 else w.prompts k
  accepted := fun k => if k = sessionId then false else w.accepted k

def accept (w : Watch) (sessionId : String) : Watch :=
  { w with accepted := fun k => if k = sessionId then true else w.accepted k }

/-- The prompts between `s` and `t`. -/
def count (w : Watch) (s t : State) : Watch :=
  { w with
    prompts := fun k => w.prompts k + if s.active k then t.prompted k - s.prompted k else 0 }

end Watch

/-- The observer of a step from `s` to `t`. What the page posts is no prompt of the server. -/
def observe (s t : State) (w : Watch) : Label → Watch
  | .createMfa sessionId _ => if (s.mfaSession sessionId).isSome then w else w.reset sessionId
  | .submitMfa sessionId _ => if acceptsCode s sessionId then w.accept sessionId else w
  | .polled _ _ | .reconciled _ _ | .finish _ _ => w.count s t
  | _ => w

/-- A reconcile of an active job whose code was accepted does not set the link
session to `"mfa_required"`. -/
def KeepsVerified (x : State × Watch) (l : Label) : Prop :=
  ∀ reconcile sessionId t, reconcileOf x.1 l = some reconcile →
    reconcile.job.sessionId = some sessionId → x.2.accepted sessionId = true →
    x.1.active sessionId = true → x.1.stored = true → step x.1 l = some t →
      t.session.status ≠ .mfaRequired

/-! ## The condition -/

namespace State

/-- The link session waits for the job of the MFA session, and not for its code. -/
def connectingFor (s : State) (sessionId : String) : Bool :=
  s.session.sessionId == some sessionId && s.session.status == .connecting

/-- While the job is active, only a session that is connecting is asked for the code. -/
def mayPrompt (s : State) (sessionId : String) : Bool :=
  !(s.stored && s.active sessionId) ||
    (s.connectingFor sessionId && (s.mfaSession sessionId).isSome)

/-- While the MFA session is registered, nobody turns the link session to connecting. -/
def mayTurn (s : State) (sessionId : String) : Bool :=
  !(s.stored && (s.mfaSession sessionId).isSome) || s.connectingFor sessionId

/-- While the job is active, it waits for a code that nobody has submitted yet. -/
def mayWait (s : State) (sessionId : String) : Bool :=
  !(s.stored && s.active sessionId) || (s.mfaSession sessionId).any (·.code.isNone)

/-- The job waits for a code: it has a registered MFA session, or ended for the lack of a code. -/
def waitsForCode (s : State) (job : Job) : Bool :=
  (s.liveMfa job).isSome || job.status == .mfaRequired

/-- What a reconcile may meet. -/
def mayReconcile (s : State) (reconcile : Reconcile) : Bool :=
  reconcile.job.sessionId.all fun sessionId =>
    if s.waitsForCode reconcile.job then
      ((s.held reconcile.session).status == .mfaRequired || s.mayPrompt sessionId) &&
        s.mayWait sessionId
    else !reconcile.job.status.unfinished || s.mayTurn sessionId

end State

/-- The step asks for a code once and not after it came. -/
def OnePrompter (s : State) : Label → Bool
  | .polled i fresh => (reconcileOf s (.polled i fresh)).all s.mayReconcile
  | .reconciled i fresh => (reconcileOf s (.reconciled i fresh)).all s.mayReconcile
  | .posted i body =>
      (s.posts i).all fun read =>
        askedStatus (s.held read) body != some .connecting || s.session.sessionId.all s.mayTurn
  | .finish i outcome =>
      match s.connects i, outcome with
      | some (.waiting _ (some _) job), .mfaSession => s.mayPrompt (job.sessionId.getD "")
      | some (.waiting _ (some _) _), .mfaRequired _ _ sessionId _ => s.mayPrompt sessionId
      | _, _ => true
  | _ => true

/-! ## What a request writes -/

section

variable {s t : State} {sessionId prompt : Option String} {status : LinkStatus}

/-- The session gets this MFA session and this status, up to the overlay of its
expiry, and `prompt` is asked for. -/
structure Wrote (s t : State) (sessionId : Option String) (status : LinkStatus)
    (prompt : Option String) : Prop where
  now : t.now = s.now
  mfa : t.mfa = s.mfa
  stored : t.stored = s.stored
  createdAt : t.session.createdAt = s.session.createdAt
  young : s.stored = true → s.Young → t.session.status = status
  sessionId : s.stored = true → t.session.sessionId = sessionId
  status : s.stored = true → t.session.status = status ∨ t.session.status = .expired
  prompted : ∀ k, t.prompted k = s.prompted k + if s.stored && prompt == some k then 1 else 0

/-- The MFA sessions depend on the manager and the time. -/
theorem mfaSession_congr (hnow : t.now = s.now) (hmfa : t.mfa = s.mfa) (k : String) :
    t.mfaSession k = s.mfaSession k := by
  unfold State.mfaSession
  rw [hnow, hmfa]

theorem touch_prompted (s : State) (k : String) : s.touch.prompted k = s.prompted k :=
  congrArg (List.countP _) (State.touch_events s)

theorem Wrote.touch (h : Wrote s t sessionId status prompt) :
    Wrote s t.touch sessionId status prompt := by
  have hprompted := touch_prompted t
  have hyoung : s.stored = true → s.Young → t.touch.session.status = status := by
    intro hstored hyoung
    have hyoung' : t.Young := by
      unfold State.Young at hyoung ⊢
      rwa [h.now, h.createdAt]
    rw [State.touch_of_young hyoung']
    exact h.young hstored hyoung
  rcases t.touch_eq with ⟨session, heq, hsession⟩
  rw [heq] at hprompted hyoung ⊢
  refine ⟨h.now, h.mfa, h.stored, ?_, hyoung, ?_, ?_,
    fun k => (hprompted k).trans (h.prompted k)⟩
  · rcases hsession with rfl | rfl
    · exact h.createdAt
    · exact h.createdAt
  · intro hstored
    rcases hsession with rfl | rfl
    · exact h.sessionId hstored
    · exact h.sessionId hstored
  · intro hstored
    rcases hsession with rfl | rfl
    · exact h.status hstored
    · exact .inr rfl

theorem update_wrote {updates : LinkSession → LinkSession}
    (hid : (updates s.session).sessionId = sessionId)
    (hstatus : (updates s.session).status = status)
    (hcreated : ∀ x, (updates x).createdAt = x.createdAt)
    (hevents : ∀ x, (updates x).events = x.events) :
    Wrote s (s.update updates) sessionId status none := by
  have hprompted : ∀ k, (s.update updates).prompted k = s.prompted k := fun k =>
    congrArg (List.countP _) (State.update_events hevents)
  have hcreatedAt : (s.update updates).session.createdAt = s.session.createdAt := by
    unfold State.update
    split
    · exact hcreated s.session
    · rfl
  rcases s.update_sessionOnly updates with ⟨session, webhooks, heq⟩
  refine ⟨by rw [heq], by rw [heq], by rw [heq], hcreatedAt, ?_, ?_, ?_, ?_⟩
  · intro hstored _
    rw [State.update_of_stored hstored]
    exact hstatus
  · intro hstored
    rw [State.update_of_stored hstored]
    exact hid
  · intro hstored
    rw [State.update_of_stored hstored]
    exact .inl hstatus
  · intro k
    rw [hprompted]
    simp

theorem push_wrote {name : Json} {data : Dict} {updates : LinkSession → LinkSession}
    (hid : ∀ events, (updates { s.session with events := events }).sessionId = sessionId)
    (hstatus : ∀ events, (updates { s.session with events := events }).status = status)
    (hcreated : ∀ x, (updates x).createdAt = x.createdAt)
    (hevents : ∀ x, (updates x).events = x.events)
    (hprompt : Event.prompt ⟨name, s.now, sanitizeMembers data⟩ = prompt) :
    Wrote s (s.push name data updates) sessionId status prompt := by
  have hprompted : ∀ k, (s.push name data updates).prompted k =
      s.prompted k + if s.stored && prompt == some k then 1 else 0 := by
    intro k
    unfold State.prompted
    rw [State.push_events hevents]
    cases hstored : s.stored with
    | false => simp
    | true =>
        rw [if_pos rfl, List.countP_append, List.countP_singleton, hprompt]
        simp
  have hcreatedAt : (s.push name data updates).session.createdAt = s.session.createdAt := by
    cases hstored : s.stored with
    | false => rw [State.push_of_not_stored hstored]
    | true =>
        rcases State.push_session hstored name data updates with h | h
        · rw [h]
          exact hcreated _
        · rw [h]
          exact hcreated _
  rcases s.push_sessionOnly name data updates with ⟨session, webhooks, heq⟩
  refine ⟨by rw [heq], by rw [heq], by rw [heq], hcreatedAt, ?_, ?_, ?_, hprompted⟩
  · intro hstored hyoung
    rw [State.push_session_of_young hstored hyoung hcreated]
    exact hstatus _
  · intro hstored
    rcases State.push_session hstored name data updates with h | h
    · rw [h]
      exact hid _
    · rw [h]
      exact hid _
  · intro hstored
    rcases State.push_session hstored name data updates with h | h
    · rw [h]
      exact .inl (hstatus _)
    · rw [h]
      exact .inr rfl

/-- An event of another name asks for no code. -/
theorem prompt_of_ne {name : String} {now : Nat} {data : Dict} (h : name ≠ "MFA_REQUIRED") :
    Event.prompt ⟨.str name, now, data⟩ = none := by
  unfold Event.prompt
  split
  · rename_i heq _
    exact absurd (Json.str.inj heq) h
  · rfl

/-- `MFA_REQUIRED` asks for the code of the session it names. -/
theorem prompt_mfaRequired (now : Nat) (mfaType site : Json) (sessionId : Option String) :
    Event.prompt ⟨.str "MFA_REQUIRED", now, sanitizeMembers
      [("mfa_type", mfaType), ("session_id", optStr sessionId), ("site", site)]⟩ = sessionId := by
  cases sessionId with
  | none => rfl
  | some sessionId => rfl

end

/-! ## What a reconcile writes -/

section

variable {s t : State} {reconcile : Reconcile} {fresh : String}

/-- The status that a reconcile gives the link session. -/
def reconciledStatus : Status → LinkStatus
  | .pending | .running => .connecting
  | .mfaRequired => .mfaRequired
  | .completed => .completed
  | .blocked | .cancelled | .failed => .error

theorem runtime_sessionId (s : State) (job : Job) :
    (serializeAccessJobRuntime s job).sessionId = job.sessionId := by
  unfold serializeAccessJobRuntime
  cases s.liveMfa job with
  | none => rfl
  | some session => rfl

theorem runtime_mfaRequired_iff (s : State) (job : Job) :
    (serializeAccessJobRuntime s job).status = .mfaRequired ↔ s.waitsForCode job = true := by
  unfold serializeAccessJobRuntime State.waitsForCode
  cases s.liveMfa job with
  | none => simp [serializeAccessJob]
  | some session => simp

theorem runtime_of_not_waits {job : Job} (h : s.waitsForCode job = false) :
    (serializeAccessJobRuntime s job).status = job.status := by
  unfold State.waitsForCode at h
  unfold serializeAccessJobRuntime
  cases hlive : s.liveMfa job with
  | none => rfl
  | some session => simp [hlive] at h

section

variable (s : State) (session : LinkSession) (job : Job) (payload : Payload)

theorem reconcileConnecting_wrote :
    Wrote s (reconcileConnecting s session job payload) payload.sessionId .connecting none := by
  apply update_wrote
  · rfl
  · rfl
  · exact fun _ => rfl
  · exact fun _ => rfl

theorem reconcileMfaRequired_wrote :
    Wrote s (reconcileMfaRequired s session job payload) payload.sessionId .mfaRequired
      (if session.status ≠ .mfaRequired then payload.sessionId else none) := by
  unfold reconcileMfaRequired
  by_cases hnew : session.status ≠ .mfaRequired
  · rw [if_pos hnew, if_pos hnew]
    apply push_wrote
    · exact fun _ => rfl
    · exact fun _ => rfl
    · exact fun _ => rfl
    · exact fun _ => rfl
    · exact prompt_mfaRequired s.now _ _ _
  · -- the session it goes by has been asked already
    rw [if_neg hnew, if_neg hnew]
    apply update_wrote
    · rfl
    · rfl
    · exact fun _ => rfl
    · exact fun _ => rfl

theorem reconcileCompleted_wrote (publicToken : Option String) :
    Wrote s (reconcileCompleted s session job payload publicToken) payload.sessionId .completed
      none := by
  unfold reconcileCompleted
  by_cases hnew : session.status ≠ .completed
  · rw [if_pos hnew]
    apply push_wrote
    · exact fun _ => rfl
    · exact fun _ => rfl
    · exact fun _ => rfl
    · exact fun _ => rfl
    · exact prompt_of_ne (by decide)
  · rw [if_neg hnew]
    apply update_wrote
    · rfl
    · rfl
    · exact fun _ => rfl
    · exact fun _ => rfl

theorem reconcileFailed_wrote :
    Wrote s (reconcileFailed s session job payload) payload.sessionId .error none := by
  unfold reconcileFailed
  by_cases hnew : session.status ≠ .error
  · rw [if_pos hnew]
    apply push_wrote
    · exact fun _ => rfl
    · exact fun _ => rfl
    · exact fun _ => rfl
    · exact fun _ => rfl
    · exact prompt_of_ne (by decide)
  · rw [if_neg hnew]
    apply update_wrote
    · rfl
    · rfl
    · exact fun _ => rfl
    · exact fun _ => rfl

end

/-- The session that a reconcile asks the code of. -/
def promptOf (s : State) (reconcile : Reconcile) : Option String :=
  if s.waitsForCode reconcile.job ∧ (s.held reconcile.session).status ≠ .mfaRequired then
    reconcile.job.sessionId
  else none

theorem reconcileWrite_wrote (h : reconcileWrite s reconcile fresh = some t) :
    Wrote s t reconcile.job.sessionId
      (reconciledStatus (serializeAccessJobRuntime s reconcile.job).status)
      (promptOf s reconcile) := by
  have hwaits := runtime_mfaRequired_iff s reconcile.job
  have hquiet : (serializeAccessJobRuntime s reconcile.job).status ≠ .mfaRequired →
      promptOf s reconcile = none :=
    fun hne => if_neg fun hprompt => hne (hwaits.mpr hprompt.1)
  rw [← runtime_sessionId s reconcile.job]
  unfold reconcileWrite at h
  cases hstatus : (serializeAccessJobRuntime s reconcile.job).status
  case pending | running =>
    rw [hquiet (by rw [hstatus]; decide)]
    simp only [hstatus] at h
    obtain rfl := Option.some.inj h
    exact (reconcileConnecting_wrote s _ _ _).touch
  case mfaRequired =>
    have hprompt : promptOf s reconcile =
        if (s.held reconcile.session).status ≠ .mfaRequired then
          (serializeAccessJobRuntime s reconcile.job).sessionId
        else none := by
      unfold promptOf
      rw [runtime_sessionId]
      simp only [hwaits.mp hstatus, true_and]
    rw [hprompt]
    simp only [hstatus] at h
    obtain rfl := Option.some.inj h
    exact (reconcileMfaRequired_wrote s _ _ _).touch
  case completed =>
    rw [hquiet (by rw [hstatus]; decide)]
    simp only [hstatus] at h
    rcases Option.bind_eq_some_iff.mp h with ⟨⟨publicToken, s'⟩, hpublic, heq⟩
    obtain rfl := Option.some.inj heq
    rcases completedPublicToken_eq hpublic with ⟨publicTokens, hs'⟩
    simp only [] at hs'
    subst hs'
    have hwrote := (reconcileCompleted_wrote { s with publicTokens } (s.held reconcile.session)
      reconcile.job (serializeAccessJobRuntime s reconcile.job) publicToken).touch
    exact ⟨hwrote.now, hwrote.mfa, hwrote.stored, hwrote.createdAt, hwrote.young, hwrote.sessionId,
      hwrote.status, hwrote.prompted⟩
  all_goals
    rw [hquiet (by rw [hstatus]; decide)]
    simp only [hstatus] at h
    obtain rfl := Option.some.inj h
    exact (reconcileFailed_wrote s _ _ _).touch

end

theorem connectMfaRequired_wrote (s : State) (request : ConnectRequest)
    (accessToken jobId : Option String) (mfaType sessionId : String) (message : Json)
    (metadata : Dict) :
    Wrote s (connectMfaRequired s request accessToken jobId mfaType sessionId message metadata)
      (some sessionId) .mfaRequired (some sessionId) := by
  unfold connectMfaRequired
  apply push_wrote
  · exact fun _ => rfl
  · exact fun _ => rfl
  · exact fun _ => rfl
  · exact fun _ => rfl
  · exact prompt_mfaRequired s.now (.str mfaType) (.str request.site) (some sessionId)

theorem askedStatus_eq {session : LinkSession} {body : Dict} {name : String}
    (h : eventName body = .str name) : askedStatus session body = eventStatus session name := by
  unfold askedStatus
  rw [h]

theorem askedStatus_of_not_str {session : LinkSession} {body : Dict}
    (h : ∀ name, eventName body ≠ .str name) : askedStatus session body = none := by
  unfold askedStatus
  split
  · rename_i name hname
    exact absurd hname (h name)
  · rfl

/-- A posted event changes the status to the one that it asks for. -/
theorem postedEvent_wrote (s : State) (read : LinkSession) (body : Dict) :
    ∃ prompt, Wrote s (postedEvent s read body) s.session.sessionId
      ((askedStatus (s.held read) body).getD s.session.status) prompt := by
  unfold postedEvent
  simp only []
  split
  · -- `CONNECTED` is not the page's to say
    rename_i hname
    rw [askedStatus_eq hname]
    exact ⟨none, rfl, rfl, rfl, rfl, fun _ _ => rfl, fun _ => rfl, fun _ => .inl rfl,
      fun _ => by simp⟩
  · rename_i name _ hname
    rw [askedStatus_eq hname]
    refine ⟨_, push_wrote ?_ ?_ ?_ ?_ rfl⟩
    · exact fun _ => rfl
    · exact fun _ => rfl
    · exact fun _ => rfl
    · exact fun _ => rfl
  · rename_i hno
    rw [askedStatus_of_not_str hno]
    refine ⟨_, push_wrote ?_ ?_ ?_ ?_ rfl⟩
    · exact fun _ => rfl
    · exact fun _ => rfl
    · exact fun _ => rfl
    · exact fun _ => rfl

/-! ## The invariant -/

/-- What the observer has noted agrees with the sessions. -/
structure ChallengeInv (s : State) (w : Watch) : Prop where
  once : ∀ k, w.prompts k ≤ 1
  /-- A session that is connecting has not been asked for the code. -/
  unasked : ∀ k, s.stored = true → (s.mfaSession k).isSome = true → s.connectingFor k = true →
    w.prompts k = 0
  accepted : ∀ k session, w.accepted k = true → s.mfaSession k = some session →
    session.code.isSome = true

section

variable {s t : State} {w : Watch} {sessionId prompt : Option String} {status : LinkStatus}

/-- A step that adds no MFA session and turns no link session to connecting. -/
theorem ChallengeInv.quiet (h : ChallengeInv s w) (hstored : t.stored = true → s.stored = true)
    (hmfa : ∀ k session, t.mfaSession k = some session → s.mfaSession k = some session)
    (hturn : ∀ k, t.stored = true → (t.mfaSession k).isSome = true → t.connectingFor k = true →
      s.connectingFor k = true) : ChallengeInv t w where
  once := h.once
  unasked k ht hlive hconnecting := by
    rcases Option.isSome_iff_exists.mp hlive with ⟨session, hsession⟩
    have hlive' : (s.mfaSession k).isSome = true := by
      rw [hmfa k session hsession]
      rfl
    exact h.unasked k (hstored ht) hlive' (hturn k ht hlive hconnecting)
  accepted k session hk hsession := h.accepted k session hk (hmfa k session hsession)

/-- Where the status that is written is connecting, the session was so before. -/
theorem Wrote.connectingFor_of_mayTurn (hw : Wrote s t sessionId status prompt)
    (hturn : status = .connecting → ∀ k, sessionId = some k → s.mayTurn k = true) (k : String)
    (ht : t.stored = true) (hlive : (t.mfaSession k).isSome = true)
    (hconnecting : t.connectingFor k = true) : s.connectingFor k = true := by
  have hs : s.stored = true := hw.stored ▸ ht
  rw [mfaSession_congr hw.now hw.mfa] at hlive
  simp only [State.connectingFor, Bool.and_eq_true, beq_iff_eq] at hconnecting
  have hid : sessionId = some k := (hw.sessionId hs).symm.trans hconnecting.1
  have hstatus : status = .connecting := by
    rcases hw.status hs with hstatus | hstatus
    · exact hstatus.symm.trans hconnecting.2
    · rw [hconnecting.2] at hstatus
      cases hstatus
  simpa [State.mayTurn, hs, hlive] using hturn hstatus k hid

/-- A write that no request of the server counts as a prompt. -/
theorem ChallengeInv.wrote (h : ChallengeInv s w) (hw : Wrote s t sessionId status prompt)
    (hturn : status = .connecting → ∀ k, sessionId = some k → s.mayTurn k = true) :
    ChallengeInv t w := by
  refine h.quiet (fun ht => hw.stored ▸ ht) ?_ (hw.connectingFor_of_mayTurn hturn)
  intro k session hsession
  rwa [mfaSession_congr hw.now hw.mfa] at hsession

/-- What the observer adds for a write. -/
theorem Wrote.count_prompts (hw : Wrote s t sessionId status prompt) (k : String) :
    (w.count s t).prompts k =
      w.prompts k + if s.active k ∧ s.stored = true ∧ prompt = some k then 1 else 0 := by
  show w.prompts k + (if s.active k then t.prompted k - s.prompted k else 0) = _
  rw [hw.prompted k]
  by_cases hactive : s.active k = true
  · rw [if_pos hactive, Nat.add_sub_cancel_left]
    simp [hactive]
  · simp [hactive]

/-- A write of the server. The prompt is the first one, because the session was
connecting. -/
theorem ChallengeInv.count (h : ChallengeInv s w) (hw : Wrote s t sessionId status prompt)
    (hturn : status = .connecting → ∀ k, sessionId = some k → s.mayTurn k = true)
    (hprompt : ∀ k, prompt = some k → s.mayPrompt k = true ∧ status ≠ .connecting) :
    ChallengeInv t (w.count s t) where
  once k := by
    rw [hw.count_prompts k]
    split
    · rename_i hasked
      rcases hasked with ⟨hactive, hstored, hk⟩
      have hmay : s.connectingFor k = true ∧ (s.mfaSession k).isSome = true := by
        simpa [State.mayPrompt, hactive, hstored] using (hprompt k hk).1
      have hnone := h.unasked k hstored hmay.2 hmay.1
      omega
    · exact h.once k
  unasked k ht hlive hconnecting := by
    have hs : s.stored = true := hw.stored ▸ ht
    have hbefore := hw.connectingFor_of_mayTurn hturn k ht hlive hconnecting
    rw [mfaSession_congr hw.now hw.mfa] at hlive
    rw [hw.count_prompts k, if_neg]
    · exact h.unasked k hs hlive hbefore
    · -- a prompt leaves the session at another status
      rintro ⟨-, -, hk⟩
      simp only [State.connectingFor, Bool.and_eq_true, beq_iff_eq] at hconnecting
      rcases hw.status hs with hstatus | hstatus
      · exact (hprompt k hk).2 (hstatus.symm.trans hconnecting.2)
      · rw [hconnecting.2] at hstatus
        cases hstatus
  accepted k session hk hsession := by
    rw [mfaSession_congr hw.now hw.mfa] at hsession
    exact h.accepted k session hk hsession

/-- A read. -/
theorem ChallengeInv.touch (h : ChallengeInv s w) : ChallengeInv s.touch w := by
  rcases s.touch_eq with ⟨session, heq, hsession⟩
  rw [heq]
  refine h.quiet (fun ht => ht) (fun _ _ hk => hk) ?_
  intro k _ _ hk
  rcases hsession with rfl | rfl
  · exact hk
  · simp [State.connectingFor] at hk

/-- Without an event there is nothing to count. -/
theorem Watch.count_eq (h : t.session.events = s.session.events) : w.count s t = w := by
  have hsame : ∀ k, t.prompted k = s.prompted k := fun k => congrArg (List.countP _) h
  unfold Watch.count
  simp [hsame]

end

/-! ## One lemma for each kind of step -/

section

variable {s t : State} {w : Watch}

theorem mfaSession_setMfa (s : State) (sessionId : String) (session : Option MfaSession)
    (k : String) :
    (s.setMfa sessionId session).mfaSession k =
      if k = sessionId then session.filter fun session => !session.expired s.now
      else s.mfaSession k := by
  unfold State.mfaSession State.setMfa
  by_cases hk : k = sessionId
  · simp [hk]
  · simp [hk]

/-- Time only takes MFA sessions away. -/
theorem ChallengeInv.wait (h : ChallengeInv s w) (milliseconds : Nat) :
    ChallengeInv { s with now := s.now + milliseconds } w := by
  refine h.quiet (fun ht => ht) ?_ fun _ _ _ hk => hk
  intro k session hk
  simp only [State.mfaSession, Option.filter_eq_some_iff, MfaSession.expired, Bool.not_eq_true',
    decide_eq_false_iff_not] at hk ⊢
  exact ⟨hk.1, by omega⟩

/-- A session that is created anew starts a challenge; one that is there is resumed. -/
theorem ChallengeInv.createMfa (h : ChallengeInv s w) (sessionId : String)
    (challenge : Mfa.Challenge) :
    ChallengeInv (createMfaSession s sessionId challenge)
      (if (s.mfaSession sessionId).isSome then w else w.reset sessionId) := by
  unfold createMfaSession
  cases hfound : s.mfaSession sessionId with
  | none =>
      refine ⟨fun k => ?_, fun k hs hlive hk => ?_, fun k session hk hsession => ?_⟩
      · show (if k = sessionId then 0 else w.prompts k) ≤ 1
        split
        · omega
        · exact h.once k
      · show (if k = sessionId then 0 else w.prompts k) = 0
        rw [mfaSession_setMfa] at hlive
        by_cases hne : k = sessionId
        · exact if_pos hne
        · rw [if_neg hne] at hlive ⊢
          exact h.unasked k hs hlive hk
      · have hk' : (if k = sessionId then false else w.accepted k) = true := hk
        rw [mfaSession_setMfa] at hsession
        by_cases hne : k = sessionId
        · rw [if_pos hne] at hk'
          cases hk'
        · rw [if_neg hne] at hk' hsession
          exact h.accepted k session hk' hsession
  | some found =>
      refine ⟨h.once, fun k hs hlive hk => ?_, fun k session hk hsession => ?_⟩
      · rw [mfaSession_setMfa] at hlive
        by_cases hne : k = sessionId
        · refine h.unasked k hs ?_ hk
          rw [hne, hfound]
          rfl
        · rw [if_neg hne] at hlive
          exact h.unasked k hs hlive hk
      · rw [mfaSession_setMfa] at hsession
        by_cases hne : k = sessionId
        · -- the resumed session keeps its code
          rw [if_pos hne] at hsession
          obtain rfl := Option.some.inj (Option.filter_eq_some_iff.mp hsession).1
          exact h.accepted k found hk (hne ▸ hfound)
        · rw [if_neg hne] at hsession
          exact h.accepted k session hk hsession

/-- A submitted code is stored where it is accepted. -/
theorem ChallengeInv.submitMfa (h : ChallengeInv s w) (sessionId code : String) :
    ChallengeInv (submitCode s sessionId code)
      (if acceptsCode s sessionId then w.accept sessionId else w) := by
  have hprompts : (if acceptsCode s sessionId then w.accept sessionId else w).prompts =
      w.prompts := by
    split
    · rfl
    · rfl
  refine ⟨fun k => ?_, fun k hs hlive hk => ?_, fun k session hk hsession => ?_⟩
  · rw [hprompts]
    exact h.once k
  · rw [hprompts]
    unfold submitCode at hlive
    rw [mfaSession_setMfa] at hlive
    refine h.unasked k hs ?_ hk
    by_cases hne : k = sessionId
    · rw [hne]
      cases hfound : s.mfaSession sessionId with
      | none => simp [hne, hfound] at hlive
      | some found => rfl
    · rwa [if_neg hne] at hlive
  · unfold submitCode at hsession
    rw [mfaSession_setMfa] at hsession
    by_cases hne : k = sessionId
    · rw [if_pos hne] at hsession
      rcases Option.map_eq_some_iff.mp (Option.filter_eq_some_iff.mp hsession).1 with
        ⟨found, -, rfl⟩
      rfl
    · rw [if_neg hne] at hsession
      refine h.accepted k session ?_ hsession
      by_cases haccepts : acceptsCode s sessionId = true
      · rw [if_pos haccepts] at hk
        simpa [Watch.accept, hne] using hk
      · rwa [if_neg haccepts] at hk

theorem ChallengeInv.removeMfa (h : ChallengeInv s w) (sessionId : String) :
    ChallengeInv (s.setMfa sessionId none) w := by
  refine h.quiet (fun ht => ht) ?_ fun _ _ _ hk => hk
  intro k session hk
  rw [mfaSession_setMfa] at hk
  split at hk
  · cases hk
  · exact hk

/-- A status that stays as it is turns nothing. -/
theorem mayTurn_of_connecting {k : String} (hid : s.session.sessionId = some k)
    (hstatus : s.session.status = .connecting) : s.mayTurn k = true := by
  simp [State.mayTurn, State.connectingFor, hid, hstatus]

/-- An event of the page that does not turn the session to connecting under a challenge. -/
theorem ChallengeInv.postedEvent {read : LinkSession} {body : Dict} (h : ChallengeInv s w)
    (hC : askedStatus (s.held read) body = some .connecting →
      ∀ k, s.session.sessionId = some k → s.mayTurn k = true) :
    ChallengeInv (postedEvent s read body) w := by
  rcases postedEvent_wrote s read body with ⟨prompt, hwrote⟩
  refine h.wrote hwrote ?_
  intro hstatus k hk
  cases hasked : askedStatus (s.held read) body with
  | some status =>
      rw [hasked] at hstatus
      obtain rfl : status = .connecting := hstatus
      exact hC hasked k hk
  | none =>
      rw [hasked] at hstatus
      exact mayTurn_of_connecting hk hstatus

/-- Nothing is written that the invariant speaks of. -/
theorem ChallengeInv.of_session (h : ChallengeInv s w) (hsession : t.session = s.session)
    (hstored : t.stored = s.stored) (hnow : t.now = s.now) (hmfa : t.mfa = s.mfa) :
    ChallengeInv t w := by
  refine h.quiet (fun ht => hstored ▸ ht) ?_ ?_
  · intro k session hk
    rwa [mfaSession_congr hnow hmfa] at hk
  · intro k _ _ hk
    unfold State.connectingFor at hk ⊢
    rwa [hsession] at hk

section

variable {r : Reconcile} {fresh : String}

theorem mayTurn_of_mayReconcile (hC : s.mayReconcile r = true)
    (hstatus : reconciledStatus (serializeAccessJobRuntime s r.job).status = .connecting)
    {k : String} (hk : r.job.sessionId = some k) : s.mayTurn k = true := by
  cases hwaits : s.waitsForCode r.job with
  | true =>
      rw [(runtime_mfaRequired_iff s r.job).mpr hwaits] at hstatus
      cases hstatus
  | false =>
      -- a job that goes by its row is unfinished where the session turns to connecting
      rw [runtime_of_not_waits hwaits] at hstatus
      have hrow : r.job.status.unfinished = true := by
        cases hjob : r.job.status <;> simp [hjob, reconciledStatus] at hstatus <;> rfl
      simpa [State.mayReconcile, hk, hwaits, hrow] using hC

theorem mayPrompt_of_mayReconcile (hC : s.mayReconcile r = true) {k : String}
    (hk : promptOf s r = some k) :
    s.mayPrompt k = true ∧
      reconciledStatus (serializeAccessJobRuntime s r.job).status ≠ .connecting := by
  unfold promptOf at hk
  split at hk
  · rename_i hasks
    rcases hasks with ⟨hwaits, hnew⟩
    have hmay : s.mayPrompt k = true ∧ s.mayWait k = true := by
      simpa [State.mayReconcile, hk, hwaits, hnew] using hC
    refine ⟨hmay.1, ?_⟩
    rw [(runtime_mfaRequired_iff s r.job).mpr hwaits]
    decide
  · cases hk

theorem ChallengeInv.reconcile (h : ChallengeInv s w) (hC : s.mayReconcile r = true)
    (ht : reconcileWrite s r fresh = some t) : ChallengeInv t (w.count s t) :=
  h.count (reconcileWrite_wrote ht) (fun hstatus _ hk => mayTurn_of_mayReconcile hC hstatus hk)
    fun _ hk => mayPrompt_of_mayReconcile hC hk

/-- Where a code was accepted, the job does not wait for one. -/
theorem ChallengeInv.verified (h : ChallengeInv s w) (hC : s.mayReconcile r = true)
    (ht : reconcileWrite s r fresh = some t) {k : String}
    (hk : r.job.sessionId = some k) (haccepted : w.accepted k = true)
    (hactive : s.active k = true) (hstored : s.stored = true) :
    t.session.status ≠ .mfaRequired := by
  have hwaits : s.waitsForCode r.job = false := by
    by_contra hwaits
    rw [Bool.not_eq_false] at hwaits
    have hmay : s.mayWait k = true := by
      have hboth := hC
      simp only [State.mayReconcile, hk, hwaits, if_true, Option.all_some,
        Bool.and_eq_true] at hboth
      exact hboth.2
    simp only [State.mayWait, hstored, hactive, Bool.and_self, Bool.not_true, Bool.false_or,
      Option.any_eq_true] at hmay
    rcases hmay with ⟨session, hsession, hcode⟩
    have hsome := h.accepted k session haccepted hsession
    simp [Option.isNone_iff_eq_none.mp hcode] at hsome
  have hne : (serializeAccessJobRuntime s r.job).status ≠ .mfaRequired := by
    intro hstatus
    rw [(runtime_mfaRequired_iff s r.job).mp hstatus] at hwaits
    cases hwaits
  intro hstatus
  rcases (reconcileWrite_wrote ht).status hstored with hwrote | hwrote
  · rw [hstatus] at hwrote
    cases hjob : (serializeAccessJobRuntime s r.job).status <;>
      simp [hjob, reconciledStatus] at hwrote hne
  · rw [hstatus] at hwrote
    cases hwrote

end

/-! ### `POST /connect` -/

theorem ChallengeInv.connect (h : ChallengeInv s w) {i : Nat} {request : ConnectRequest}
    {fresh : String} {userFound : Bool} (ht : connect s i request fresh userFound = some t) :
    ChallengeInv t w := by
  unfold HostedLink.connect at ht
  split at ht
  · obtain rfl := Option.some.inj ht
    exact h.of_session rfl rfl rfl rfl
  · split at ht
    · obtain rfl := Option.some.inj ht
      exact h.touch.of_session rfl rfl rfl rfl
    · split at ht
      · rcases Option.map_eq_some_iff.mp ht with ⟨r, hr, rfl⟩
        rcases writeLinkRows_eq hr with ⟨accessTokens, heq⟩
        rw [heq]
        exact h.touch.of_session rfl rfl rfl rfl
      · obtain rfl := Option.some.inj ht
        exact h.touch.of_session rfl rfl rfl rfl

/-- The session turns to a job that has no MFA session yet. -/
theorem ChallengeInv.startConnect (h : ChallengeInv s w) {i : Nat} {request : ConnectRequest}
    {hosted : Option (Option String)} {id sessionId lockScope : String}
    (ht : startConnect s i request hosted id sessionId lockScope = some t) :
    ChallengeInv t w := by
  unfold HostedLink.startConnect at ht
  simp only [] at ht
  split at ht
  · cases ht
  · rename_i hfresh
    obtain rfl := Option.some.inj ht
    have hnone : s.mfa sessionId = none := by
      simp only [Bool.or_eq_true, not_or, Bool.not_eq_true, Option.isSome_eq_false_iff,
        Option.isNone_iff_eq_none] at hfresh
      exact hfresh.2
    have hadded : ChallengeInv (addJob s request (connectJob s request id sessionId lockScope)) w :=
      h.of_session rfl rfl rfl rfl
    cases hosted with
    | none => exact hadded.of_session rfl rfl rfl rfl
    | some accessToken =>
        have hattached : ChallengeInv ((addJob s request
            (connectJob s request id sessionId lockScope)).update (connectingUpdates request
              accessToken (connectJob s request id sessionId lockScope))) w := by
          refine hadded.wrote (update_wrote rfl rfl (fun _ => rfl) fun _ => rfl) ?_
          rintro - k hk
          obtain rfl : sessionId = k := Option.some.inj hk
          have hlive : (addJob s request (connectJob s request id sessionId
              lockScope)).mfaSession sessionId = none := by
            show (s.mfa sessionId).filter _ = none
            rw [hnone]
            rfl
          simp [State.mayTurn, hlive]
        exact hattached.of_session rfl rfl rfl rfl

theorem ChallengeInv.connectMfaRequired (h : ChallengeInv s w) (i : Nat)
    {request : ConnectRequest} {accessToken jobId : Option String} {mfaType sessionId : String}
    {message : Json} {metadata : Dict} (hC : s.mayPrompt sessionId = true) :
    ChallengeInv
      ((connectMfaRequired s request accessToken jobId mfaType sessionId message
        metadata).setConnect i none)
      (w.count s ((connectMfaRequired s request accessToken jobId mfaType sessionId message
        metadata).setConnect i none)) := by
  have hwrote := connectMfaRequired_wrote s request accessToken jobId mfaType sessionId message
    metadata
  have hcount := h.count hwrote nofun (by
    rintro k ⟨⟩
    exact ⟨hC, nofun⟩)
  exact hcount.of_session rfl rfl rfl rfl

/-- The end of the wait, with or without a prompt. -/
theorem ChallengeInv.finishConnect (h : ChallengeInv s w) {i : Nat} {request : ConnectRequest}
    {hosted : Option (Option String)} {job : Job} {outcome : Outcome}
    (hconnect : s.connects i = some (.waiting request hosted job))
    (hC : OnePrompter s (.finish i outcome) = true)
    (ht : finishConnect s i request hosted job outcome = some t) :
    ChallengeInv t (w.count s t) := by
  have hquiet : ∀ {t : State}, t.session.events = s.session.events → ChallengeInv t w →
      ChallengeInv t (w.count s t) := by
    intro t hevents ht
    rwa [Watch.count_eq hevents]
  cases outcome with
  | completed =>
      cases hosted with
      | none =>
          obtain rfl := Option.some.inj ht
          exact hquiet rfl (h.of_session rfl rfl rfl rfl)
      | some accessToken =>
          obtain rfl := Option.some.inj ht
          exact hquiet s.touch_events (h.touch.of_session rfl rfl rfl rfl)
  | pending | raised =>
      obtain rfl := Option.some.inj ht
      exact hquiet rfl (h.of_session rfl rfl rfl rfl)
  | mfaSession =>
      rcases Option.bind_eq_some_iff.mp ht with ⟨session, -, heq⟩
      cases hosted with
      | none =>
          obtain rfl := Option.some.inj heq
          exact hquiet rfl (h.of_session rfl rfl rfl rfl)
      | some accessToken =>
          simp only [OnePrompter, hconnect] at hC
          obtain rfl := Option.some.inj heq
          exact h.connectMfaRequired i hC
  | mfaRequired site mfaType sessionId tracked =>
      cases hosted with
      | none =>
          obtain rfl := Option.some.inj ht
          exact hquiet rfl (h.of_session rfl rfl rfl rfl)
      | some accessToken =>
          simp only [OnePrompter, hconnect] at hC
          obtain rfl := Option.some.inj ht
          exact h.connectMfaRequired i hC

end

/-! ## The step lemma -/

section

variable {s t : State} {w : Watch}

theorem ChallengeInv.step (hs : ChallengeInv s w) {l : Label} (hC : OnePrompter s l = true)
    (h : step s l = some t) : ChallengeInv t (observe s t w l) := by
  cases l with
  | wait milliseconds =>
      obtain rfl := Option.some.inj h
      exact hs.wait milliseconds
  | evict =>
      obtain rfl := Option.some.inj h
      -- nothing is promised of a session that is gone
      exact hs.quiet nofun (fun _ _ hk => hk) nofun
  | writeJob id state =>
      rcases Option.map_eq_some_iff.mp h with ⟨job, -, rfl⟩
      exact hs.of_session rfl rfl rfl rfl
  | createMfa sessionId challenge =>
      obtain rfl := Option.some.inj h
      exact hs.createMfa sessionId challenge
  | submitMfa sessionId code =>
      obtain rfl := Option.some.inj h
      exact hs.submitMfa sessionId code
  | removeMfa sessionId =>
      obtain rfl := Option.some.inj h
      exact hs.removeMfa sessionId
  | poll i =>
      simp only [HostedLink.step] at h
      split at h
      · cases h
      · obtain rfl := Option.some.inj h
        exact hs.touch.of_session rfl rfl rfl rfl
  | polled i fresh =>
      simp only [HostedLink.step] at h
      split at h
      · cases h
      · rename_i reconcile hpoll
        -- what the poll read may still be written
        simp only [OnePrompter, reconcileOf, hpoll, Option.all_some] at hC
        have hs' : ChallengeInv (s.setPoll i none) w := hs.of_session rfl rfl rfl rfl
        exact hs'.reconcile hC h
  | post i =>
      simp only [HostedLink.step] at h
      split at h
      · cases h
      · obtain rfl := Option.some.inj h
        -- an event that is refused changes nothing
        unfold postEvent
        split
        · exact hs
        · split
          · exact hs.touch
          · exact hs.touch.of_session rfl rfl rfl rfl
  | posted i body =>
      simp only [HostedLink.step] at h
      split at h
      · cases h
      · rename_i read hpost
        obtain rfl := Option.some.inj h
        -- the event turns the session to `connecting` only where no code is waited for
        have hs' : ChallengeInv (s.setPost i none) w := hs.of_session rfl rfl rfl rfl
        refine hs'.postedEvent ?_
        intro hasked k hk
        have hasked' : askedStatus (s.held read) body = some .connecting := hasked
        have hk' : s.session.sessionId = some k := hk
        show s.mayTurn k = true
        simpa [OnePrompter, hpost, hasked', hk'] using hC
  | connect i request fresh userFound =>
      simp only [HostedLink.step] at h
      split at h
      · cases h
      · exact hs.connect h
  | start i id sessionId lockScope =>
      simp only [HostedLink.step] at h
      split at h
      · exact hs.startConnect h
      · cases h
  | finish i outcome =>
      simp only [HostedLink.step] at h
      split at h
      · rename_i hconnect
        exact hs.finishConnect hconnect hC h
      · cases h
  | reconciled i fresh =>
      simp only [HostedLink.step] at h
      split at h
      · rename_i reconcile hconnect
        -- the connect's own reconcile is like a poll's
        simp only [OnePrompter, reconcileOf, hconnect, Option.all_some] at hC
        have hs' : ChallengeInv (s.setConnect i none) w := hs.of_session rfl rfl rfl rfl
        exact hs'.reconcile hC h
      · cases h
  | exchange userId publicToken =>
      simp only [HostedLink.step] at h
      split at h
      · obtain rfl := Option.some.inj h
        exact hs
      · rename_i heq
        obtain rfl := Option.some.inj h
        rcases exchangePublicToken_eq heq with ⟨publicTokens, hpublic⟩
        -- an exchange changes the public tokens only
        simp only [] at hpublic
        rw [hpublic]
        exact hs.of_session rfl rfl rfl rfl

theorem ChallengeInv.keepsVerified (hs : ChallengeInv s w) {l : Label}
    (hC : OnePrompter s l = true) : KeepsVerified (s, w) l := by
  intro r k t hr hk haccepted hactive hstored ht
  cases l with
  | polled i fresh =>
      have hpoll : s.polls i = some r := hr
      simp only [OnePrompter, reconcileOf, hpoll, Option.all_some] at hC
      simp only [HostedLink.step, hpoll] at ht
      have hs' : ChallengeInv (s.setPoll i none) w := hs.of_session rfl rfl rfl rfl
      exact hs'.verified hC ht hk haccepted hactive hstored
  | reconciled i fresh =>
      simp only [OnePrompter, hr, Option.all_some] at hC
      simp only [HostedLink.step] at ht
      split at ht
      · rename_i reconcile hconnect
        obtain rfl : reconcile = r := by simpa [reconcileOf, hconnect] using hr
        have hs' : ChallengeInv (s.setConnect i none) w := hs.of_session rfl rfl rfl rfl
        exact hs'.verified hC ht hk haccepted hactive hstored
      · cases ht
  | _ => cases hr

end

/-! ## Every run -/

/-- The system under observation. -/
def observedStep : State × Watch → Label → Option (State × Watch) :=
  Runs.watched step observe

/-- The watch only looks: under observation the system does what it does without. -/
theorem observed_exec (x : State × Watch) (run : List Label) :
    (Runs.exec observedStep x run).map Prod.fst = Runs.exec step x.1 run :=
  Runs.exec_watched x run

theorem init_challengeInv (backend : Links.Backend) (linkToken : String) (now : Nat)
    (site : Option String) (userId : Option Nat) :
    ChallengeInv (init backend linkToken now site userId) .init where
  once _ := Nat.zero_le 1
  unasked _ _ _ _ := rfl
  accepted _ _ h := by cases h

/-- **One prompt per challenge.** In a run where the server asks only a session
that is connecting, nobody turns it back to connecting under a challenge, and no
reconcile comes between the code and the end of the job, a challenge is announced
at most once and a session whose code was accepted is not asked again. -/
theorem prompted_once {backend : Links.Backend} {linkToken : String} {now : Nat}
    {site : Option String} {userId : Option Nat} {run : List Label} {u : State × Watch}
    (h : Runs.exec observedStep (init backend linkToken now site userId, .init) run = some u)
    (hC : Runs.Along observedStep (fun x l => OnePrompter x.1 l = true)
      (init backend linkToken now site userId, .init) run) :
    (∀ before after x, run = before ++ after →
      Runs.exec observedStep (init backend linkToken now site userId, .init) before = some x →
        ∀ sessionId, x.2.prompts sessionId ≤ 1) ∧
      Runs.Along observedStep KeepsVerified (init backend linkToken now site userId, .init)
        run := by
  have hinv := Runs.always_of_along (I := fun x : State × Watch => ChallengeInv x.1 x.2)
    (fun x l y hx hCl hy => by
      rcases Runs.watched_eq_some.mp hy with ⟨hstep, hw⟩
      rw [hw]
      exact hx.step hCl hstep)
    (init_challengeInv backend linkToken now site userId) hC
  constructor
  · intro before after x heq hx
    exact (hinv before after x heq hx).once
  · rw [Runs.along_iff_forall h] at hC ⊢
    intro before l after x heq hx
    exact (hinv before (l :: after) x heq hx).keepsVerified (hC before l after x heq hx)

/-! ### Two runs -/

/-- `/connect` finds the MFA session of its job, the page shows the prompt, and
the code is accepted. -/
def codeAccepted : List Label :=
  [.connect 1 { site := "bank", username := "user", password := "secret" } "access" true,
    .start 1 "job" "mfa" "scope",
    .writeJob "job" (AccessJobs.runningState 1000),
    .createMfa "mfa"
      { site := "bank", mfaType := "otp_input", metadata := [], ttl := 300,
        ttl_pos := Mfa.defaultMfaTtl_pos },
    .finish 1 .mfaSession,
    .post 1, .posted 1 [("event", .str "MFA_REQUIRED")],
    .poll 1, .polled 1 "public",
    .post 1, .posted 1 [("event", .str "MFA_SUBMITTED")],
    .submitMfa "mfa" "123456"]

/-- The job ends before the next poll. -/
def codeAcceptedThenDone : List Label :=
  codeAccepted ++
    [.writeJob "job" (AccessJobs.completedState 2000 none [("status", .str "connected")]),
      .removeMfa "mfa", .poll 1, .polled 1 "public"]

/-- The job still logs in when the next poll comes. -/
def codeAcceptedThenPolled : List Label :=
  codeAccepted ++ [.poll 1, .polled 1 "public"]

theorem codeAccepted_promptedOnce :
    ∃ u, Runs.exec observedStep (init .redis "link" 0 none (some 1), .init)
        codeAcceptedThenDone = some u ∧ u.2.prompts "mfa" = 1 ∧
      (∀ before after x, codeAcceptedThenDone = before ++ after →
        Runs.exec observedStep (init .redis "link" 0 none (some 1), .init) before = some x →
          ∀ sessionId, x.2.prompts sessionId ≤ 1) ∧
      Runs.Along observedStep KeepsVerified (init .redis "link" 0 none (some 1), .init)
        codeAcceptedThenDone := by
  have hcount : (Runs.exec observedStep (init .redis "link" 0 none (some 1), .init)
      codeAcceptedThenDone).map (fun u => u.2.prompts "mfa") = some 1 := by decide +kernel
  rcases Option.map_eq_some_iff.mp hcount with ⟨u, hu, hone⟩
  exact ⟨u, hu, hone, prompted_once hu (by decide +kernel)⟩

/-- The MFA session is still registered, and the user is asked for the code again. -/
theorem codeAccepted_promptedTwice :
    ¬ ∀ (backend : Links.Backend) (linkToken : String) (now : Nat) (site : Option String)
        (userId : Option Nat) (run : List Label) (u : State × Watch),
      Runs.exec observedStep (init backend linkToken now site userId, .init) run = some u →
        (∀ sessionId, u.2.prompts sessionId ≤ 1) ∧
          Runs.Along observedStep KeepsVerified (init backend linkToken now site userId, .init)
            run := by
  intro hall
  have hcount : (Runs.exec observedStep (init .redis "link" 0 none (some 1), .init)
      codeAcceptedThenPolled).map (fun u => u.2.prompts "mfa") = some 2 := by decide +kernel
  rcases Option.map_eq_some_iff.mp hcount with ⟨u, hu, htwo⟩
  have hone := (hall .redis "link" 0 none (some 1) codeAcceptedThenPolled u hu).1 "mfa"
  omega

end Plaidify.HostedLink
