import Plaidify.Mfa.Manager

/-!
# No submitted code is lost

Once `submit_code` has returned `True` for a session that lives, a payload with a
code has to stay in the store until the session is removed or runs out, and
`wait_for_code` has to return a code that was submitted. The invariant says
where codes come from and until when the stored payload is good. A step can then
lose a code in four ways: a `create_session` stores a copy without it, a
`submit_code` stores an empty one, an expired copy or none at all, the `DELETE`
of an expired payload hits a session that was stored since its `GET`, and a
`wait_for_code` gives up after a look that came too early or too late.
-/

namespace Plaidify.Mfa

/-! ## The property and the condition -/

/-- While a session lives for which a code was accepted, a payload with a code is
stored and can be read; and a `wait_for_code` that ends after a code was accepted
returns a code that was. -/
structure Kept (s : State) : Prop where
  stored : s.promised = true → s.alive = true →
    ∃ payload, s.live = some payload ∧ payload.hasCode = true
  returned : ∀ r ∈ s.reports, r.promised = true → ∃ code ∈ s.accepted, r.code = some code

/-- No session lives for which a code was accepted. -/
def Unpromised (s : State) : Prop :=
  s.promised = true → s.alive = false

instance (s : State) : Decidable (Unpromised s) :=
  inferInstanceAs (Decidable (_ → _))

/-- Storing the session loses no code: where one was accepted, the session has
one and has not expired. -/
def Saves (s : State) (session : MfaSession) : Prop :=
  s.promised = true → s.alive = true →
    session.expired s.now = false ∧ session.hasCode = true

instance (s : State) (session : MfaSession) : Decidable (Saves s session) :=
  inferInstanceAs (Decidable (_ → _))

/-- The rest of a call after its `GET` loses no code. -/
def Call.Safe (s : State) (m : Manager) : Call → Prop
  | .creating challenge found => Saves s (createdSession s.now challenge found)
  | .submitting code payload =>
      if payload.expired s.now then Unpromised s else code ≠ ""
  | .polling found =>
      s.promised = true →
        found.any MfaSession.hasCode = true ∨ m.waiter.any (fun w => decide (s.now < w.deadline)) = true
  | .deleting _ => Unpromised s

instance (s : State) (m : Manager) (call : Call) : Decidable (call.Safe s m) := by
  cases call <;> simp only [Call.Safe] <;> infer_instance

/-- The steps that lose no code. -/
def Safe (s : State) : Label → Prop
  | .create id _ => ∀ session ∈ (s.managers id).current s.now, Saves s session
  | .submit id _ =>
      -- the manager holds the session, and Redis does not
      s.stored.isNone = true → ((s.managers id).current s.now).isSome = true → s.alive = false
  | .finish id => ∀ call ∈ (s.managers id).call, call.Safe s (s.managers id)
  | _ => True

instance (s : State) (l : Label) : Decidable (Safe s l) := by
  cases l <;> simp only [Safe] <;> infer_instance

/-! ## Reading the store -/

variable {s t : State} {id : Nat} {m : Manager}

@[simp] theorem stored_set (s : State) (id : Nat) (m : Manager) :
    (s.set id m).stored = s.stored := rfl

@[simp] theorem live_set (s : State) (id : Nat) (m : Manager) : (s.set id m).live = s.live := rfl

@[simp] theorem alive_set (s : State) (id : Nat) (m : Manager) : (s.set id m).alive = s.alive :=
  rfl

/-- A payload is live while its key is there and it is young enough. -/
theorem live_eq_some_iff {payload : MfaSession} :
    s.live = some payload ↔ s.stored = some payload ∧ payload.expired s.now = false := by
  simp [State.live, Option.filter_eq_some_iff]

/-- Redis has a payload up to the deadline of its key. -/
theorem stored_eq_some_iff {payload : MfaSession} :
    s.stored = some payload ↔
      ∃ entry, s.redis = some entry ∧ s.now ≤ entry.expiresAt ∧ entry.payload = payload := by
  simp [State.stored, Option.map_eq_some_iff, Option.filter_eq_some_iff, and_assoc]

/-- A session is alive until its time is over. -/
theorem alive_iff : s.alive = true ↔ ∃ time, s.livesUntil = some time ∧ s.now ≤ time := by
  simp [State.alive, Option.any_eq_true]

/-- What is stored can be read at once. -/
theorem live_store (s : State) (payload : MfaSession) (ttl : Nat) :
    (s.store payload ttl).live = if payload.expired s.now then none else some payload := by
  have hstored : (s.store payload ttl).stored = some payload :=
    stored_eq_some_iff.mpr ⟨_, rfl, Nat.le_add_right .., rfl⟩
  rw [State.live, hstored]
  cases h : payload.expired s.now with
  | true => simp [Option.filter, State.store, h]
  | false => simp [Option.filter, State.store, h]

/-- Storing a payload that has not expired begins a session or goes on with it. -/
theorem alive_store (s : State) (payload : MfaSession) (ttl : Nat) :
    (s.store payload ttl).alive = if payload.expired s.now then s.alive else true := by
  cases h : payload.expired s.now with
  | true => simp [State.alive, State.store, h]
  | false =>
      have hexp : s.now ≤ payload.createdAt + 1000 * payload.ttl := by
        simpa [MfaSession.expired] using h
      have hmin : s.now ≤ min (s.now + 1000 * ttl) (payload.createdAt + 1000 * payload.ttl) := by
        omega
      simp [State.alive, State.store, h, hmin]

/-- A session that is alive later is alive now. -/
theorem alive_later {ms : Nat} (h : State.alive { s with now := s.now + ms } = true) :
    s.alive = true := by
  obtain ⟨time, htime, hnow⟩ := alive_iff.mp h
  have hle : s.now ≤ time := by
    have : s.now + ms ≤ time := hnow
    omega
  exact alive_iff.mpr ⟨time, htime, hle⟩

/-! ## Where codes come from -/

/-- A code of the session was accepted. -/
def Known (accepted : List String) (session : MfaSession) : Prop :=
  ∀ code, session.code = some code → code ∈ accepted

/-- What a call has read and still uses. -/
def Call.found : Call → Option MfaSession
  | .creating _ found | .polling found => found
  | .submitting _ _ | .deleting _ => none

/-- Every object of the manager has accepted codes only. -/
structure Manager.Known (accepted : List String) (m : Manager) : Prop where
  entry : ∀ session, m.entry = some session → Mfa.Known accepted session
  orphan : ∀ w session, m.waiter = some w → w.orphan = some session → Mfa.Known accepted session
  found : ∀ call session, m.call = some call → call.found = some session →
    Mfa.Known accepted session

/-- Every code that is stored, held or on its way was accepted, and the payload
that is stored has expired or says until when the session lives. -/
structure Inv (s : State) : Prop where
  redis : ∀ entry, s.redis = some entry → Known s.accepted entry.payload
  managers : ∀ id, (s.managers id).Known s.accepted
  lives : ∀ entry, s.redis = some entry →
    entry.payload.expired s.now = true ∨
      s.livesUntil =
        some (min entry.expiresAt (entry.payload.createdAt + 1000 * entry.payload.ttl))

/-- More codes may have been accepted. -/
theorem Known.mono {accepted accepted' : List String} {session : MfaSession}
    (h : Known accepted session) (hsub : accepted ⊆ accepted') : Known accepted' session :=
  fun code hcode => hsub (h code hcode)

/-- A session with an accepted code. -/
theorem known_of_code {accepted : List String} {session : MfaSession} {code : String}
    (hcode : code ∈ accepted) : Known accepted { session with code := some code } := by
  intro c hc
  obtain rfl := Option.some.inj hc
  exact hcode

/-- A code that a session has was accepted. -/
theorem hasCode_known {accepted : List String} {session : MfaSession}
    (h : Known accepted session) (hcode : session.hasCode = true) :
    ∃ code ∈ accepted, session.code = some code := by
  unfold MfaSession.hasCode at hcode
  cases heq : session.code with
  | none => simp [heq] at hcode
  | some code => exact ⟨code, h code heq, rfl⟩

/-- At the start nothing is stored. -/
theorem init_inv (now : Nat) : Inv (init now) := by
  refine ⟨by simp [init], fun id => ⟨?_, ?_, ?_⟩, by simp [init]⟩ <;> simp [init]

/-- More codes may have been accepted, for a manager. -/
theorem Manager.Known.mono {accepted accepted' : List String} (h : m.Known accepted)
    (hsub : accepted ⊆ accepted') : m.Known accepted' :=
  ⟨fun session hs => (h.entry session hs).mono hsub,
    fun w session hw hs => (h.orphan w session hw hs).mono hsub,
    fun call session hc hs => (h.found call session hc hs).mono hsub⟩

/-- A manager that has dropped its object. -/
theorem Manager.Known.pop {accepted : List String} (h : m.Known accepted) : m.pop.Known accepted := by
  refine ⟨by simp [Manager.pop], ?_, h.found⟩
  intro w session hw hsession
  obtain ⟨w', hw', rfl⟩ := Option.map_eq_some_iff.mp hw
  cases horphan : w'.orphan with
  | some object =>
      simp [horphan] at hsession
      exact h.orphan w' session hw' (horphan.trans (congrArg some hsession))
  | none =>
      simp [horphan] at hsession
      exact h.entry session hsession

/-- A call that has read nothing, or nothing with an unknown code. -/
theorem Manager.Known.call {accepted : List String} (h : m.Known accepted) {call : Option Call}
    (hcall : ∀ c session, call = some c → c.found = some session → Mfa.Known accepted session) :
    Manager.Known accepted { m with call } :=
  ⟨h.entry, h.orphan, hcall⟩

/-- A manager whose wait is over. -/
theorem Manager.Known.waiter {accepted : List String} (h : m.Known accepted) :
    Manager.Known accepted { m with waiter := none } :=
  ⟨h.entry, by simp, h.found⟩

/-- Another object in `_sessions`. -/
theorem Manager.Known.put {accepted : List String} (h : m.Known accepted)
    {entry : Option MfaSession} (hentry : ∀ session, entry = some session → Mfa.Known accepted session) :
    Manager.Known accepted { m with entry } :=
  ⟨hentry, h.orphan, h.found⟩

/-- The session's object gets a code that is accepted. -/
theorem Manager.Known.submit {accepted : List String} (h : m.Known accepted) {code : String}
    (hcode : code ∈ accepted) :
    Manager.Known accepted { m with entry := m.entry.map fun e => { e with code := some code } } := by
  refine h.put ?_
  intro session hsession
  obtain ⟨e, -, rfl⟩ := Option.map_eq_some_iff.mp hsession
  exact known_of_code hcode

/-- One manager goes on. -/
theorem Inv.set (h : Inv s) (hm : m.Known s.accepted) : Inv (s.set id m) := by
  refine ⟨h.redis, fun k => ?_, h.lives⟩
  by_cases hk : k = id
  · simpa [State.set, hk] using hm
  · simpa [State.set, hk] using h.managers k

/-- The stored payload has no code but an accepted one. -/
theorem Inv.stored (h : Inv s) {payload : MfaSession} (hp : s.stored = some payload) :
    Known s.accepted payload := by
  obtain ⟨entry, hentry, -, rfl⟩ := stored_eq_some_iff.mp hp
  exact h.redis entry hentry

/-- Neither has the live one. -/
theorem Inv.live (h : Inv s) {payload : MfaSession} (hp : s.live = some payload) :
    Known s.accepted payload :=
  h.stored (live_eq_some_iff.mp hp).1

/-- A `DELETE`, alone or in `remove_session`. -/
theorem Inv.delete (h : Inv s) (livesUntil : Option Nat) (promised : Bool) :
    Inv { s with redis := none, livesUntil, promised } :=
  ⟨by simp, h.managers, by simp⟩

/-- What was promised is a history. -/
theorem Inv.promise (h : Inv s) (promised : Bool) : Inv { s with promised } :=
  ⟨h.redis, h.managers, h.lives⟩

/-- A code that was reported is a history. -/
theorem Inv.report (h : Inv s) (code : Option String) : Inv (s.report code) :=
  ⟨h.redis, h.managers, h.lives⟩

/-- A payload is stored whose code was accepted. -/
theorem Inv.store (h : Inv s) {payload : MfaSession} (hp : Known s.accepted payload) (ttl : Nat) :
    Inv (s.store payload ttl) := by
  refine ⟨?_, h.managers, ?_⟩
  · rintro entry hentry
    obtain rfl := Option.some.inj hentry
    exact hp
  · rintro entry hentry
    obtain rfl := Option.some.inj hentry
    cases hexp : payload.expired s.now with
    | true => exact .inl hexp
    | false => exact .inr (by simp [State.store, hexp])

/-- While the session is alive, its payload can be read. -/
theorem Inv.live_wait (h : Inv s) {ms : Nat} {payload : MfaSession}
    (halive : State.alive { s with now := s.now + ms } = true) (hp : s.live = some payload) :
    State.live { s with now := s.now + ms } = some payload := by
  obtain ⟨hstored, hexp⟩ := live_eq_some_iff.mp hp
  obtain ⟨entry, hentry, -, rfl⟩ := stored_eq_some_iff.mp hstored
  obtain ⟨time, htime, hnow⟩ := alive_iff.mp halive
  have hlives := (h.lives entry hentry).resolve_left (by simp [hexp])
  have hmin : s.now + ms ≤
      min entry.expiresAt (entry.payload.createdAt + 1000 * entry.payload.ttl) := by
    rw [← Option.some.inj (htime.symm.trans hlives)]
    exact hnow
  refine live_eq_some_iff.mpr ⟨stored_eq_some_iff.mpr ⟨entry, hentry, ?_, rfl⟩, ?_⟩
  · have : s.now + ms ≤ entry.expiresAt := by omega
    exact this
  · simp only [MfaSession.expired, decide_eq_false_iff_not]
    omega

/-- More codes are accepted. -/
theorem Inv.accept (h : Inv s) (code : String) :
    Inv { s with accepted := code :: s.accepted } :=
  ⟨fun entry hentry => (h.redis entry hentry).mono (List.subset_cons_self _ _),
    fun k => (h.managers k).mono (List.subset_cons_self _ _), h.lives⟩

/-- As time goes by, payloads expire and nothing else happens. -/
theorem Inv.wait (h : Inv s) (ms : Nat) : Inv { s with now := s.now + ms } := by
  refine ⟨h.redis, h.managers, fun entry hentry => ?_⟩
  rcases h.lives entry hentry with hexp | hlives
  · refine .inl ?_
    simp only [MfaSession.expired, decide_eq_true_eq] at hexp ⊢
    omega
  · exact .inr hlives

/-! ## Every step -/

theorem whenIdle_eq {u : State} (h : whenIdle m u = some t) : u = t := by
  unfold whenIdle at h
  split at h
  · cases h
  · exact Option.some.inj h

/-- A manager's object counts while it is young enough. -/
theorem current_eq_some {now : Nat} {session : MfaSession} (h : m.current now = some session) :
    m.entry = some session ∧ session.expired now = false := by
  simpa [Manager.current, Option.filter_eq_some_iff] using h

/-- `wait_for_code` waits on an object with accepted codes. -/
theorem Manager.Known.waited {accepted : List String} (h : m.Known accepted) {w : Waiter}
    (hw : m.waiter = some w) {object : MfaSession} (hobject : (w.orphan <|> m.entry) = some object) :
    Mfa.Known accepted object := by
  cases horphan : w.orphan with
  | some o =>
      simp only [horphan] at hobject
      exact h.orphan w object hw (horphan.trans hobject)
  | none =>
      simp only [horphan] at hobject
      exact h.entry object hobject

/-- A new session has no code. -/
theorem createSession_inv (hs : Inv s) (hm : m.Known s.accepted) (challenge : Challenge) :
    Inv (createSession s id m challenge) := by
  unfold createSession
  cases hcurrent : m.current s.now with
  | some session =>
      have hknown : Known s.accepted (session.resume challenge) :=
        hm.entry session (current_eq_some hcurrent).1
      have hset : Inv (s.set id { m with entry := some (session.resume challenge) }) :=
        hs.set (hm.put (by rintro _ ⟨⟩; exact hknown))
      exact (hset.store hknown _).promise _
  | none =>
      refine hs.set (hm.pop.call ?_)
      intro call session hcall hfound
      split at hcall
      · obtain rfl := Option.some.inj hcall
        cases hfound
      · obtain rfl := Option.some.inj hcall
        exact hs.stored hfound

/-- A removal leaves nothing. -/
theorem removeSession_inv (hs : Inv s) (hm : m.Known s.accepted) : Inv (removeSession s id m) :=
  (hs.set hm.pop).delete none false

/-- The code that is submitted is accepted. -/
theorem submitCode_inv (hs : Inv s) (hm : m.Known s.accepted) (code : String) :
    Inv (submitCode s id m code) := by
  unfold submitCode
  split
  · exact hs
  · split
    · exact hs.set (hm.pop.call (by rintro _ _ ⟨⟩ ⟨⟩))
    · split
      · exact hs.set (hm.call (by rintro _ _ ⟨⟩ ⟨⟩))
      · have hmono := hm.mono (List.subset_cons_self code s.accepted)
        exact ((hs.accept code).set (hmono.submit (List.mem_cons_self ..))).promise _

/-- A read takes the object or asks Redis. -/
theorem getSession_inv (hs : Inv s) (hm : m.Known s.accepted) : Inv (getSession s id m) := by
  unfold getSession
  split
  · exact hs
  · split
    · exact hs.set (hm.pop.call (by rintro _ _ ⟨⟩ ⟨⟩))
    · exact hs.set hm.pop

/-- A wait begins with the manager's object. -/
theorem startWait_inv (hs : Inv s) (hm : m.Known s.accepted) {timeout : Option Nat}
    (h : startWait s id m timeout = some t) : Inv t := by
  unfold startWait at h
  split at h
  · split at h
    · obtain rfl := Option.some.inj h
      exact hs.report _
    · obtain rfl := Option.some.inj h
      refine hs.set ⟨hm.entry, ?_, hm.found⟩
      rintro _ session ⟨⟩ hsession
      cases hsession
  · cases h

/-- A wait that is woken reads the code of its object, or asks Redis. -/
theorem wake_inv (hs : Inv s) (hm : m.Known s.accepted) (object : MfaSession) :
    Inv (wake s id m object) := by
  unfold wake
  split
  · exact (hs.set hm.waiter).report _
  · refine hs.set (hm.call ?_)
    intro call session hcall hfound
    split at hcall
    · obtain rfl := Option.some.inj hcall
      cases hfound
    · obtain rfl := Option.some.inj hcall
      exact hs.stored hfound

/-- The code that `wait_for_code` takes from the payload it read. -/
theorem polled_eq_some {found : Option MfaSession} {code : String}
    (h : (found.filter MfaSession.hasCode).bind MfaSession.code = some code) :
    ∃ payload, found = some payload ∧ payload.hasCode = true ∧ payload.code = some code := by
  obtain ⟨payload, hpayload, hcode⟩ := Option.bind_eq_some_iff.mp h
  obtain ⟨hfound, hhas⟩ := Option.filter_eq_some_iff.mp hpayload
  exact ⟨payload, hfound, hhas, hcode⟩

/-- A poll takes the payload that it found. -/
theorem poll_inv (hs : Inv s) (hm : m.Known s.accepted) (w : Waiter) {found : Option MfaSession}
    (hfound : ∀ payload, found = some payload → Known s.accepted payload) :
    Inv (poll s id m w found) := by
  have hidle : Manager.Known s.accepted { m with call := none } := hm.call (by rintro _ _ ⟨⟩)
  unfold poll
  split
  · rename_i code hcode
    obtain ⟨payload, hpayload, -, hpcode⟩ := polled_eq_some hcode
    refine (hs.set (hidle.waiter.put ?_)).report _
    intro session hsession
    split at hsession
    · exact hm.entry session hsession
    · obtain ⟨e, -, rfl⟩ := Option.map_eq_some_iff.mp hsession
      exact known_of_code (hfound payload hpayload code hpcode)
  · split
    · exact (hs.set hidle.waiter).report _
    · exact hs.set hidle

/-- The second command of a call. -/
theorem finishCall_inv (hs : Inv s) (hm : m.Known s.accepted) {call : Call}
    (hcall : m.call = some call) (h : finishCall s id m call = some t) : Inv t := by
  cases call with
  | creating challenge found =>
      obtain rfl := Option.some.inj h
      have hknown : Known s.accepted (createdSession s.now challenge found) := by
        cases found with
        | none =>
            intro code hcode
            simp [createdSession, Challenge.session] at hcode
        | some session => exact hm.found _ session hcall rfl
      have hset : Inv (s.set id
          { m with entry := some (createdSession s.now challenge found), call := none }) :=
        hs.set ((hm.call (by rintro _ _ ⟨⟩)).put (by rintro _ ⟨⟩; exact hknown))
      exact (hset.store hknown _).promise _
  | submitting code payload =>
      obtain rfl := Option.some.inj h
      have hmem : code ∈ code :: s.accepted := List.mem_cons_self ..
      have hmono := (hm.mono (List.subset_cons_self code s.accepted)).submit hmem
      have hcalled : Manager.Known (code :: s.accepted)
          { m with entry := m.entry.map fun e => { e with code := some code }, call := none } := by
        refine hmono.call ?_
        rintro _ _ ⟨⟩
      have hknown : Known (code :: s.accepted) { payload with code := some code } :=
        known_of_code hmem
      exact (((hs.accept code).set hcalled).store hknown _).promise _
  | polling found =>
      obtain ⟨w, -, rfl⟩ := Option.map_eq_some_iff.mp h
      exact poll_inv hs hm w fun payload hpayload => hm.found _ payload hcall hpayload
  | deleting rest =>
      obtain rfl := Option.some.inj h
      refine (hs.set (hm.call ?_)).delete _ _
      intro call session hcall' hfound
      cases rest <;> cases hcall' <;> cases hfound

/-- Every step keeps the codes those that were accepted. -/
theorem step_inv {l : Label} (hs : Inv s) (h : step s l = some t) : Inv t := by
  cases l with
  | create id challenge =>
      obtain rfl := whenIdle_eq h
      exact createSession_inv hs (hs.managers id) challenge
  | submit id code =>
      obtain rfl := whenIdle_eq h
      exact submitCode_inv hs (hs.managers id) code
  | finish id =>
      obtain ⟨call, hcall, h⟩ := Option.bind_eq_some_iff.mp h
      exact finishCall_inv hs (hs.managers id) hcall h
  | get id =>
      obtain rfl := whenIdle_eq h
      exact getSession_inv hs (hs.managers id)
  | remove id =>
      obtain rfl := whenIdle_eq h
      exact removeSession_inv hs (hs.managers id)
  | startWait id timeout =>
      obtain ⟨u, hu, h⟩ := Option.bind_eq_some_iff.mp h
      obtain rfl := whenIdle_eq h
      exact startWait_inv hs (hs.managers id) hu
  | wake id =>
      simp only [step] at h
      split at h
      · cases h
      · split at h
        · cases h
        · obtain rfl := whenIdle_eq h
          exact wake_inv hs (hs.managers id) _
  | cleanup id =>
      simp only [step] at h
      split at h
      · obtain rfl := Option.some.inj h
        exact hs
      · obtain rfl := whenIdle_eq h
        exact hs.set (hs.managers id).pop
  | crash id =>
      obtain rfl := Option.some.inj h
      exact hs.set ⟨by simp, by simp, by simp⟩
  | wait ms =>
      obtain rfl := Option.some.inj h
      exact hs.wait ms

/-! ## Which steps lose a code -/

/-- A step that touches neither the payload nor the history. -/
theorem Kept.frame (hk : Kept s) (hpromised : t.promised = true → s.promised = true)
    (halive : t.alive = true → s.alive = true)
    (hlive : ∀ payload, t.alive = true → s.live = some payload → t.live = some payload)
    (hreports : t.reports = s.reports) (haccepted : s.accepted ⊆ t.accepted) : Kept t := by
  constructor
  · intro hp ha
    obtain ⟨payload, hpayload, hcode⟩ := hk.stored (hpromised hp) (halive ha)
    exact ⟨payload, hlive payload ha hpayload, hcode⟩
  · intro r hr hpr
    obtain ⟨code, hcode, heq⟩ := hk.returned r (hreports ▸ hr) hpr
    exact ⟨code, haccepted hcode, heq⟩

/-- A manager that goes on leaves what is stored. -/
theorem Kept.set (hk : Kept s) : Kept (s.set id m) :=
  hk.frame (fun h => h) (fun h => h) (fun _ _ h => h) rfl (List.Subset.refl _)

/-- Where no `wait_for_code` ends, only the store matters. -/
theorem kept_iff_stored (hk : Kept s) (hreports : t.reports = s.reports)
    (haccepted : s.accepted ⊆ t.accepted) :
    Kept t ↔ (t.promised = true → t.alive = true →
      ∃ payload, t.live = some payload ∧ payload.hasCode = true) := by
  refine ⟨fun h => h.stored, fun h => ⟨h, fun r hr hpr => ?_⟩⟩
  obtain ⟨code, hcode, heq⟩ := hk.returned r (hreports ▸ hr) hpr
  exact ⟨code, haccepted hcode, heq⟩

/-- A stored payload is one with a code, or one that ends no session. -/
theorem stored_store_iff (s : State) (payload : MfaSession) (ttl : Nat) :
    ((s.store payload ttl).alive = true →
        ∃ p, (s.store payload ttl).live = some p ∧ p.hasCode = true) ↔
      if payload.expired s.now then s.alive = false else payload.hasCode = true := by
  rw [alive_store, live_store]
  cases payload.expired s.now <;> simp

/-- `_persist_session` loses a code exactly when one was accepted for a session
that lives, and the copy that is stored has none or has expired. -/
theorem kept_save_iff (hk : Kept s) (session : MfaSession) :
    Kept (s.save session) ↔ Saves s session := by
  have hstore := stored_store_iff s session session.ttl
  have hpromised : (s.save session).promised = true ↔ s.promised = true ∧ s.alive = true :=
    Bool.and_eq_true_iff
  refine Iff.trans (kept_iff_stored hk rfl (List.Subset.refl _)) ?_
  rw [hpromised]
  constructor
  · intro h hp ha
    have hcode := hstore.mp (h ⟨hp, ha⟩)
    cases hexp : session.expired s.now with
    | true => simp [hexp, ha] at hcode
    | false => simpa [hexp] using hcode
  · intro h hp
    obtain ⟨hexp, hcode⟩ := h hp.1 hp.2
    exact hstore.mpr (by simp [hexp, hcode])

/-- A `DELETE` loses a code exactly when one was accepted for a session that lives. -/
theorem kept_delete_iff (hk : Kept s) :
    Kept { s.set id m with redis := none } ↔ Unpromised s := by
  refine Iff.trans (kept_iff_stored hk rfl (List.Subset.refl _)) ?_
  have hlive : State.live { s.set id m with redis := none } = none := rfl
  constructor
  · intro h hp
    by_contra ha
    obtain ⟨payload, hpayload, -⟩ := h hp (Bool.of_not_eq_false ha)
    rw [hlive] at hpayload
    cases hpayload
  · intro h hp ha
    exact absurd ((h hp).symm.trans ha) (by simp)

/-- A `wait_for_code` that returns an accepted code, or that was promised none. -/
theorem kept_report_iff (hk : Kept s) (code : Option String) :
    Kept (s.report code) ↔ (s.promised = true → ∃ c ∈ s.accepted, code = some c) := by
  constructor
  · intro h hp
    exact h.returned ⟨code, s.promised⟩ (List.mem_cons_self ..) hp
  · intro h
    refine ⟨hk.stored, ?_⟩
    intro r hr hpr
    rcases List.mem_cons.mp hr with rfl | hr
    · exact h hpr
    · exact hk.returned r hr hpr

/-- A removal ends what was promised. -/
theorem removeSession_kept (hk : Kept s) : Kept (removeSession s id m) :=
  hk.frame (by simp [removeSession]) (by simp [removeSession, State.alive])
    (by simp [removeSession, State.alive]) rfl (List.Subset.refl _)

/-- A new session overwrites the code of the one before, unless that is the same or
nothing was promised. -/
theorem createSession_kept_iff (hk : Kept s) (challenge : Challenge) :
    Kept (createSession s id m challenge) ↔ ∀ session ∈ m.current s.now, Saves s session := by
  unfold createSession
  cases m.current s.now with
  | some session =>
      have hsame : (∀ other ∈ some session, Saves s other) ↔ Saves s session := by simp
      exact (kept_save_iff hk.set _).trans hsame.symm
  | none => exact iff_of_true hk.set (by simp)

/-- An accepted code that goes to the manager's object only is not in the store. -/
theorem kept_accept_iff (hk : Kept s) (hstored : s.stored = none) (code : String) :
    Kept { s with accepted := code :: s.accepted, promised := s.promised || s.alive } ↔
      s.alive = false := by
  have hlive : s.live = none := by simp [State.live, hstored]
  refine Iff.trans (kept_iff_stored hk rfl (List.subset_cons_self _ _)) ?_
  constructor
  · intro h
    by_contra ha
    have ha : s.alive = true := Bool.of_not_eq_false ha
    obtain ⟨payload, hpayload, -⟩ := h (by simp [ha]) ha
    exact absurd (hlive.symm.trans hpayload) (by simp)
  · intro h _ ha
    exact absurd (h.symm.trans ha) (by simp)

/-- A code is lost where the session lives and only the manager's own object gets it. -/
theorem submitCode_kept_iff (hk : Kept s) (code : String) :
    Kept (submitCode s id m code) ↔
      (s.stored.isNone = true → (m.current s.now).isSome = true → s.alive = false) := by
  unfold submitCode
  cases hentry : m.entry with
  | none =>
      have hcurrent : m.current s.now = none := by simp [Manager.current, hentry]
      refine iff_of_true ?_ (by simp [hcurrent])
      cases s.stored with
      | none => exact hk
      | some payload =>
          dsimp only
          split <;> exact hk.set
  | some session =>
      cases hstored : s.stored with
      | some payload =>
          refine iff_of_true ?_ (by simp)
          dsimp only
          split <;> exact hk.set
      | none =>
          cases hexp : session.expired s.now with
          | true =>
              have hcurrent : m.current s.now = none := by simp [Manager.current, hentry, hexp]
              refine iff_of_true ?_ (by simp [hcurrent])
              simp only [Option.any_none, Option.any_some, hexp, Bool.or_true, if_true]
              exact hk.set
          | false =>
              have hcurrent : m.current s.now = some session := by
                simp [Manager.current, hentry, hexp]
              simp only [Option.any_none, Option.any_some, hexp, Bool.or_false, if_false, hcurrent,
                Option.isSome_some, Option.isNone_none, true_imp_iff, Bool.false_eq_true]
              exact kept_accept_iff hk.set hstored code

/-- A `wait_for_code` is let down exactly when a code was accepted, the payload
it read has none and its time is over. -/
theorem poll_kept_iff (hk : Kept s) (w : Waiter) {found : Option MfaSession}
    (hfound : ∀ payload, found = some payload → Known s.accepted payload) :
    Kept (poll s id m w found) ↔
      (s.promised = true → found.any MfaSession.hasCode = true ∨ s.now < w.deadline) := by
  unfold poll
  cases hpolled : (found.filter MfaSession.hasCode).bind MfaSession.code with
  | some code =>
      obtain ⟨payload, hpayload, hhas, hcode⟩ := polled_eq_some hpolled
      refine iff_of_true ((kept_report_iff hk.set _).mpr fun _ => ⟨code, ?_, rfl⟩)
        fun _ => .inl (by simp [hpayload, hhas])
      exact hfound payload hpayload code hcode
  | none =>
      have hnone : found.any MfaSession.hasCode = false := by
        cases found with
        | none => rfl
        | some payload =>
            cases hhas : payload.hasCode with
            | false => simp [hhas]
            | true =>
                obtain ⟨code, -, hcode⟩ := hasCode_known (hfound payload rfl) hhas
                simp [Option.filter, hhas, hcode] at hpolled
      by_cases hlate : w.deadline ≤ s.now
      · simp only [if_pos hlate, hnone]
        rw [kept_report_iff hk.set]
        constructor
        · intro h hp
          obtain ⟨code, -, heq⟩ := h hp
          cases heq
        · intro h hp
          have hearly := (h hp).resolve_left (by simp)
          omega
      · simp only [if_neg hlate]
        exact iff_of_true hk.set fun _ => .inr (by omega)

/-- The second command of a call loses a code exactly where the call is not safe. -/
theorem finishCall_kept_iff (hk : Kept s) (hm : m.Known s.accepted) {call : Call}
    (hcall : m.call = some call) (h : finishCall s id m call = some t) :
    Kept t ↔ call.Safe s m := by
  cases call with
  | creating challenge found =>
      obtain rfl := Option.some.inj h
      exact kept_save_iff hk.set _
  | submitting code payload =>
      obtain rfl := Option.some.inj h
      have hstore := stored_store_iff s { payload with code := some code }
        (remainingTtl s.now { payload with code := some code })
      have hexp : MfaSession.expired s.now { payload with code := some code } =
          payload.expired s.now := rfl
      have hcode : MfaSession.hasCode { payload with code := some code } = true ↔ code ≠ "" := by
        simp [MfaSession.hasCode]
      rw [hexp, hcode] at hstore
      refine Iff.trans (kept_iff_stored hk rfl (List.subset_cons_self _ _)) ?_
      -- the code is promised unless the payload has expired since it was read
      have hpromised : (s.promised || !payload.expired s.now) = true ↔
          (payload.expired s.now = true → s.promised = true) := by
        cases s.promised <;> cases payload.expired s.now <;> simp
      refine (imp_congr hpromised hstore).trans ?_
      simp only [Call.Safe, Unpromised]
      cases payload.expired s.now <;> simp
  | polling found =>
      obtain ⟨w, hw, rfl⟩ := Option.map_eq_some_iff.mp h
      have hfound : ∀ payload, found = some payload → Known s.accepted payload :=
        fun payload hpayload => hm.found _ payload hcall hpayload
      rw [poll_kept_iff hk w hfound]
      simp [Call.Safe, hw]
  | deleting rest =>
      obtain rfl := Option.some.inj h
      exact kept_delete_iff hk

/-- A step keeps the codes exactly when it is safe. -/
theorem kept_step_iff {l : Label} (hs : Inv s) (hk : Kept s) (h : step s l = some t) :
    Kept t ↔ Safe s l := by
  cases l with
  | create id challenge =>
      obtain rfl := whenIdle_eq h
      exact createSession_kept_iff hk challenge
  | submit id code =>
      obtain rfl := whenIdle_eq h
      exact submitCode_kept_iff hk code
  | finish id =>
      obtain ⟨call, hcall, h⟩ := Option.bind_eq_some_iff.mp h
      rw [finishCall_kept_iff hk (hs.managers id) hcall h]
      simp [Safe, hcall]
  | get id =>
      obtain rfl := whenIdle_eq h
      refine iff_of_true ?_ trivial
      unfold getSession
      -- a read changes the manager at most, and writes no key
      split
      · exact hk
      · split <;> exact hk.set
  | remove id =>
      obtain rfl := whenIdle_eq h
      exact iff_of_true (removeSession_kept hk) trivial
  | startWait id timeout =>
      obtain ⟨u, hu, h⟩ := Option.bind_eq_some_iff.mp h
      obtain rfl := whenIdle_eq h
      refine iff_of_true ?_ trivial
      unfold startWait at hu
      split at hu
      · -- a code that is there is returned at once, and it was accepted before
        rename_i session hentry _
        split at hu
        · rename_i hcode
          obtain rfl := Option.some.inj hu
          exact (kept_report_iff hk _).mpr fun _ =>
            hasCode_known ((hs.managers id).entry session hentry) hcode
        · -- otherwise the manager waits
          obtain rfl := Option.some.inj hu
          exact hk.set
      · cases hu
  | wake id =>
      simp only [step] at h
      split at h
      · cases h
      · rename_i w hwaiter
        split at h
        · cases h
        · rename_i object hobject
          obtain rfl := whenIdle_eq h
          -- the object of the waiter is one of the accepted ones
          have hknown : Known s.accepted object := (hs.managers id).waited hwaiter hobject
          refine iff_of_true ?_ trivial
          unfold wake
          split
          · rename_i hcode
            exact (kept_report_iff hk.set _).mpr fun _ => hasCode_known hknown hcode
          · exact hk.set
  | cleanup id =>
      simp only [step] at h
      refine iff_of_true ?_ trivial
      split at h
      · obtain rfl := Option.some.inj h
        exact hk
      · obtain rfl := whenIdle_eq h
        exact hk.set
  | crash id =>
      obtain rfl := Option.some.inj h
      -- a crash forgets what the manager held, never a key
      exact iff_of_true hk.set trivial
  | wait ms =>
      obtain rfl := Option.some.inj h
      refine iff_of_true (hk.frame (fun h => h) alive_later ?_ rfl (List.Subset.refl _)) trivial
      -- time alone makes no payload live
      intro payload ha hpayload
      exact hs.live_wait ha hpayload

/-- At the start nothing was promised. -/
theorem init_kept (now : Nat) : Kept (init now) :=
  ⟨by simp [init], by simp [init]⟩

/-- A bank asks for a one-time code. -/
def otp : Challenge where
  site := "bank"
  mfaType := "otp"
  metadata := []
  ttl := 300
  ttl_pos := by decide

/-- The engine waits at manager 1 and the code is submitted at manager 2. -/
def codeSubmitted : List Label :=
  [.create 1 otp, .finish 1, .startWait 1 none, .submit 2 "123456", .finish 2]

/-- The challenge comes up again at manager 3, which restores it from Redis, and
the engine gets its code. Later manager 3 resumes the session, so that its key
outlives its payload, and manager 2 deletes what is left of it before manager 1
asks anew. -/
def codeRestored : List Label :=
  codeSubmitted ++
    [.create 3 otp, .finish 3, .wake 1, .finish 1, .wait 100000, .create 3 otp, .wait 200001,
      .get 2, .finish 2, .create 1 otp, .finish 1, .startWait 1 none, .submit 2 "654321", .finish 2,
      .wake 1, .finish 1]

/-- Manager 2 has read the payload after it expired, and its `DELETE` hits the
session that manager 3 has made since, with the code that manager 4 accepted. -/
def deletedLate : List Label :=
  [.create 1 otp, .finish 1, .wait 100000, .create 1 otp, .wait 200001, .get 2, .create 3 otp,
    .finish 3, .finish 3, .submit 4 "123456", .finish 4, .finish 2]

example : ¬ Runs.Along step Safe (init 0) deletedLate := by decide +kernel

end Plaidify.Mfa
