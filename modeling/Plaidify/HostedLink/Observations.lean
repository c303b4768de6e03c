import Plaidify.HostedLink.Protocol

/-!
# What a browser observes of a hosted link

Everything that a client without authentication gets to see of one link session:
the answers of `POST /connect`, `POST /mfa/submit`, `GET /mfa/status`, of the
session's status and of posted events, and the event stream. The other answers
(`exchange_public_token`) go to the developer's backend.
-/

namespace Plaidify.HostedLink

open AccessJobs (Dict Exc Job Status)
open Mfa (MfaSession)

/-! ## Answers -/

/-- `ConnectResponse`. -/
structure ConnectBody where
  status : String
  jobId : Option String
  data : Option Dict := none
  sessionId : Option String := none
  mfaType : Option String := none
  metadata : Option Dict := none

/-- The answer of `get_link_session_status`. -/
structure StatusBody where
  jobId : Option String
  metadata : Option Dict
  mfaType : Json
  sessionId : Option String
  status : LinkStatus
  site : Json
  events : List Json
  errorMessage : Option Json
  message : Option Json
  publicToken : Option String

/-- The answer of `mfa_status`. -/
structure MfaStatusBody where
  site : String
  mfaType : String
  metadata : Dict

/-- One observation. -/
inductive Seen where
  /-- `none` is 404. -/
  | status (body : Option StatusBody)
  | connected (body : ConnectBody)
  /-- `POST /connect` fails with this message, or with none where the result is no
  `ConnectResponse`. -/
  | connectFailed (message : Option String)
  | mfaSubmitted (success : Bool)
  | mfaStatus (body : Option MfaStatusBody)
  /-- The status code for a posted event. -/
  | posted (code : Nat)
  /-- The events that the stream begins with. -/
  | replayed (events : Option (List Event))
  | event (event : Event)

/-- `get_link_session_status`, once its reconcile is over. -/
def statusBody (session : LinkSession) : StatusBody where
  jobId := session.currentJobId
  metadata := session.metadata
  mfaType := session.mfaType
  sessionId := session.sessionId
  status := session.status
  site := session.site
  events := session.events.map (·.name)
  errorMessage := if session.errorMessage.truthy then some session.errorMessage else none
  message := if session.message.truthy then some session.message else none
  publicToken :=
    if session.status = .completed then session.publicToken.filter (· ≠ "") else none

/-- `response_data` of a completed job as a `ConnectResponse`, if it is one. -/
def connectedBody (job : Job) : Option ConnectBody :=
  let result := jobResult job
  match result.lookup "status", optionalDict (result.lookup "data"),
    optionalString (result.lookup "session_id"), optionalString (result.lookup "mfa_type"),
    optionalDict (result.lookup "metadata") with
  | some (.str status), some data, some sessionId, some mfaType, some metadata =>
      some { status, jobId := some job.id, data, sessionId, mfaType, metadata }
  | _, _, _, _, _ => none

/-- The answer of `connect` as its wait ends. A hosted session is reconciled before
it is sent. -/
def connectSeen (s : State) (job : Job) : Outcome → List Seen
  | .completed =>
      match s.jobs.get? job.id with
      | none => []
      | some row =>
          if row.status = .completed then
            match connectedBody row with
            | some body => [.connected body]
            | none => [.connectFailed none]
          else []
  | .mfaSession =>
      match s.mfaSession (job.sessionId.getD "") with
      | none => []
      | some session => [.connected {
          status := "mfa_required"
          jobId := some job.id
          sessionId := job.sessionId
          mfaType := some session.mfaType
          metadata := some session.metadata }]
  | .pending => [.connected {
      status := "pending"
      jobId := some job.id
      sessionId := job.sessionId
      metadata := some [("message", .str ("Connection is still running in the background. " ++
        "Poll /access_jobs/\x7bjob_id\x7d for status updates."))] }]
  | .mfaRequired site mfaType sessionId tracked => [.connected {
      status := "mfa_required"
      jobId := if tracked then some job.id else none
      sessionId := some sessionId
      mfaType := some mfaType
      metadata := some [("message", .str (Exc.mfaRequired site mfaType sessionId).message)] }]
  | .raised => [.connectFailed ((s.jobs.get? job.id).bind (·.errorMessage))]

/-! ## Published events -/

/-- What `_push_link_session_event` publishes. -/
def pushed (s : State) (name : Json) (data : Dict) : Event :=
  { name, timestamp := s.now, data := sanitizeMembers data }

/-- The event of a reconcile, if the status of the session changes. -/
def reconcileEvents (s : State) (reconcile : Reconcile) (fresh : String) : List Event :=
  let session := s.held reconcile.session
  let job := reconcile.job
  let payload := serializeAccessJobRuntime s job
  let site := reconciledSite session payload
  match payload.status with
  | .pending | .running => []
  | .mfaRequired =>
      if session.status ≠ .mfaRequired then
        [pushed s (.str "MFA_REQUIRED") [("mfa_type", payload.mfaType),
          ("session_id", optStr payload.sessionId), ("site", site)]]
      else []
  | .completed =>
      match completedPublicToken s session fresh with
      | none => []
      | some (publicToken, _) =>
          if session.status ≠ .completed then
            [pushed s (.str "CONNECTED") [("job_id", .str job.id),
              ("public_token", optStr publicToken), ("site", site)]]
          else []
  | .blocked | .cancelled | .failed =>
      if session.status ≠ .error then
        [pushed s (.str "ERROR") [("error", .str (match payload.errorMessage.filter (· ≠ "") with
            | some message => message
            | none => "The connection could not be completed.")),
          ("job_id", .str job.id), ("site", site)]]
      else []

/-- The event of a `connect` whose wait ends. -/
def connectEvents (s : State) (request : ConnectRequest) (job : Job) : Outcome → List Event
  | .mfaSession =>
      match s.mfaSession (job.sessionId.getD "") with
      | none => []
      | some session => [pushed s (.str "MFA_REQUIRED") [("mfa_type", .str session.mfaType),
          ("session_id", .str (job.sessionId.getD "")), ("site", .str request.site)]]
  | .mfaRequired _ mfaType sessionId _ => [pushed s (.str "MFA_REQUIRED")
      [("mfa_type", .str mfaType), ("session_id", .str sessionId), ("site", .str request.site)]]
  | .completed | .pending | .raised => []

/-- The event of a posted one. -/
def postedEvents (s : State) (body : Dict) : List Event :=
  match eventName body with
  | .str "CONNECTED" => []
  | name => [pushed s name (sanitizeMembers (body.filter fun m => m.1 != "event"))]

/-- The events that a step publishes, whether or not the session is still stored. -/
def published (s : State) : Label → List Event
  | .polled i fresh =>
      match s.polls i with
      | none => []
      | some reconcile => reconcileEvents (s.setPoll i none) reconcile fresh
  | .reconciled i fresh =>
      match s.connects i with
      | some (.reconciling reconcile) => reconcileEvents (s.setConnect i none) reconcile fresh
      | _ => []
  | .posted i body =>
      match s.posts i with
      | none => []
      | some _ => postedEvents s body
  | .finish i outcome =>
      match s.connects i with
      | some (.waiting request (some _) job) => connectEvents s request job outcome
      | _ => []
  | _ => []

/-! ## The client's view of a run -/

inductive ClientLabel where
  | server (l : Label)
  /-- `GET /mfa/status/{session_id}`. -/
  | mfaStatus (sessionId : String)
  /-- `GET /link/events/{link_token}`. -/
  | subscribe

def clientStep (s : State) : ClientLabel → Option State
  | .server l => step s l
  | .mfaStatus _ => some s
  | .subscribe => some s.touch

/-- What the client observes in a step from `s` to `t`. -/
def sees (s t : State) : ClientLabel → List Seen
  | .server (.poll i) =>
      -- without a job there is nothing to wait for
      match t.polls i with
      | none => [.status (t.getLinkSession.map statusBody)]
      | some _ => []
  | .server (.polled i fresh) =>
      (published s (.polled i fresh)).map .event ++ [.status (t.getLinkSession.map statusBody)]
  | .server (.post i) =>
      match t.posts i, s.getLinkSession with
      | some _, _ => []
      | none, none => [.posted 404]
      | none, some _ => [.posted 410]
  | .server (.posted i body) => (published s (.posted i body)).map .event ++ [.posted 200]
  | .server (.finish i outcome) =>
      (published s (.finish i outcome)).map .event ++
        match s.connects i with
        | some (.waiting _ _ job) => connectSeen s job outcome
        | _ => []
  | .server (.submitMfa sessionId _) => [.mfaSubmitted (acceptsCode s sessionId)]
  | .server l => (published s l).map .event
  | .mfaStatus sessionId => [.mfaStatus ((s.mfaSession sessionId).map fun session =>
      { site := session.site, mfaType := session.mfaType, metadata := session.metadata })]
  | .subscribe => [.replayed (s.getLinkSession.map (·.events))]

/-- The system with the client, who takes note of everything. -/
def seenStep : State × List Seen → ClientLabel → Option (State × List Seen) :=
  Runs.watched clientStep fun s t seen l => seen ++ sees s t l

/-! ## The published events are those of the session -/

theorem pushed_events {s : State} (hstored : s.stored = true) {name : Json} {data : Dict}
    {updates : LinkSession → LinkSession} (hevents : ∀ x, (updates x).events = x.events) :
    (s.push name data updates).session.events = s.session.events ++ [pushed s name data] := by
  rw [State.push_events hevents, if_pos hstored]
  rfl

theorem reconcileWrite_events {s t : State} {reconcile : Reconcile} {fresh : String}
    (hstored : s.stored = true) (h : reconcileWrite s reconcile fresh = some t) :
    t.session.events = s.session.events ++ reconcileEvents s reconcile fresh := by
  unfold reconcileWrite at h
  unfold reconcileEvents
  cases hstatus : (serializeAccessJobRuntime s reconcile.job).status with
  | pending | running =>
      simp only [hstatus] at h ⊢
      rw [← Option.some.inj h, State.touch_events, List.append_nil]
      exact State.update_events fun _ => rfl
  | mfaRequired =>
      simp only [hstatus] at h ⊢
      rw [← Option.some.inj h, State.touch_events]
      unfold reconcileMfaRequired
      dsimp only
      split
      · exact pushed_events hstored fun _ => rfl
      · rw [List.append_nil]
        exact State.update_events fun _ => rfl
  | completed =>
      simp only [hstatus] at h ⊢
      rcases Option.bind_eq_some_iff.mp h with ⟨⟨publicToken, s'⟩, hpublic, heq⟩
      rcases completedPublicToken_eq hpublic with ⟨publicTokens, hs'⟩
      have hs' : s' = { s with publicTokens } := hs'
      subst hs'
      rw [← Option.some.inj heq, State.touch_events, hpublic]
      unfold reconcileCompleted
      dsimp only
      split
      · exact pushed_events (s := { s with publicTokens }) hstored fun _ => rfl
      · rw [List.append_nil]
        exact State.update_events (s := { s with publicTokens }) fun _ => rfl
  | blocked | cancelled | failed =>
      simp only [hstatus] at h ⊢
      rw [← Option.some.inj h, State.touch_events]
      unfold reconcileFailed
      dsimp only
      split
      · exact pushed_events hstored fun _ => rfl
      · rw [List.append_nil]
        exact State.update_events fun _ => rfl

theorem connectMfaRequired_events {s : State} (hstored : s.stored = true)
    (request : ConnectRequest) (accessToken jobId : Option String) (mfaType sessionId : String)
    (message : Json) (metadata : Dict) :
    (connectMfaRequired s request accessToken jobId mfaType sessionId message
      metadata).session.events = s.session.events ++ [pushed s (.str "MFA_REQUIRED")
        [("mfa_type", .str mfaType), ("session_id", .str sessionId),
          ("site", .str request.site)]] :=
  pushed_events hstored fun _ => rfl

theorem finishConnect_events {s t : State} {i : Nat} {request : ConnectRequest}
    {hosted : Option (Option String)} {job : Job} {outcome : Outcome} (hstored : s.stored = true)
    (h : finishConnect s i request hosted job outcome = some t) :
    t.session.events = s.session.events ++
      hosted.elim [] fun _ => connectEvents s request job outcome := by
  cases outcome with
  | completed =>
      cases hosted with
      | none =>
          rw [← Option.some.inj h]
          exact (List.append_nil _).symm
      | some accessToken =>
          rw [← Option.some.inj h]
          exact (State.touch_events s).trans (List.append_nil _).symm
  | mfaSession =>
      rcases Option.bind_eq_some_iff.mp h with ⟨session, hsession, heq⟩
      rw [← Option.some.inj heq]
      cases hosted with
      | none => exact (List.append_nil _).symm
      | some accessToken =>
          simp only [connectEvents, hsession]
          exact connectMfaRequired_events hstored ..
  | mfaRequired site mfaType sessionId tracked =>
      rw [← Option.some.inj h]
      cases hosted with
      | none => exact (List.append_nil _).symm
      | some accessToken => exact connectMfaRequired_events hstored ..
  | pending | raised =>
      rw [← Option.some.inj h]
      cases hosted with
      | none => exact (List.append_nil _).symm
      | some accessToken => exact (List.append_nil _).symm

theorem postedEvent_events {s : State} (hstored : s.stored = true) (read : LinkSession)
    (body : Dict) :
    (postedEvent s read body).session.events = s.session.events ++ postedEvents s body := by
  unfold postedEvent postedEvents
  dsimp only
  split
  · rename_i hname
    rw [hname]
    exact (List.append_nil _).symm
  · rename_i name hne hname
    rw [hname]
    split
    · rename_i heq
      exact absurd (Json.str.inj heq) hne
    · exact pushed_events hstored fun _ => rfl
  · rename_i hne hnot
    split
    · rename_i heq
      exact absurd heq hne
    · exact pushed_events hstored fun _ => rfl

/-- Writes to the link's rows leave the events. -/
theorem connect_events {s t : State} {i : Nat} {request : ConnectRequest} {fresh : String}
    {userFound : Bool} (h : connect s i request fresh userFound = some t) :
    t.session.events = s.session.events := by
  unfold connect at h
  split at h
  · rw [← Option.some.inj h]
    rfl
  · split at h
    · rw [← Option.some.inj h]
      exact State.touch_events s
    · split at h
      · rcases Option.map_eq_some_iff.mp h with ⟨r, hr, rfl⟩
        rcases writeLinkRows_eq hr with ⟨accessTokens, heq⟩
        show r.2.session.events = s.session.events
        rw [heq]
        exact State.touch_events s
      · rw [← Option.some.inj h]
        exact State.touch_events s

/-- While the session is stored, the published events are the ones that it gets. -/
theorem step_events {s t : State} {l : Label} (hstored : s.stored = true)
    (h : step s l = some t) : t.session.events = s.session.events ++ published s l := by
  -- a step that leaves the events alone publishes none
  have hsame : ∀ {u : State}, u.session.events = s.session.events → some u = some t →
      t.session.events = s.session.events ++ [] := by
    intro u hu heq
    rw [← Option.some.inj heq, hu, List.append_nil]
  cases l with
  | wait | evict | createMfa | submitMfa | removeMfa =>
      simp only [step] at h
      rw [← Option.some.inj h]
      exact (List.append_nil _).symm
  | writeJob id state =>
      rcases Option.map_eq_some_iff.mp h with ⟨job, -, rfl⟩
      -- the job table is no part of the session
      exact (List.append_nil _).symm
  | poll i =>
      simp only [step] at h
      split at h
      · cases h
      · rw [← Option.some.inj h]
        exact (State.touch_events s).trans (List.append_nil _).symm
  | polled i fresh =>
      simp only [step] at h
      rcases hpoll : s.polls i with _ | reconcile
      · rw [hpoll] at h
        cases h
      · rw [hpoll] at h
        have hpublished : published s (.polled i fresh)
            = reconcileEvents (s.setPoll i none) reconcile fresh := by
          -- a poll first touches the session
          simp only [published, hpoll]
        rw [hpublished]
        -- what is written is what is published
        exact reconcileWrite_events (s := s.setPoll i none) hstored h
  | post i =>
      simp only [step] at h
      split at h
      · cases h
      · refine hsame ?_ h
        unfold postEvent
        split
        · rfl
        · split
          · exact State.touch_events s
          · exact State.touch_events s
  | posted i body =>
      simp only [step] at h
      rcases hpost : s.posts i with _ | read
      · rw [hpost] at h
        cases h
      · rw [hpost] at h
        have hpublished : published s (.posted i body) = postedEvents s body := by
          simp only [published, hpost]
        -- the host's event is published as it is stored
        rw [hpublished, ← Option.some.inj h]
        exact postedEvent_events (s := s.setPost i none) hstored read body
  | connect i request fresh userFound =>
      simp only [step] at h
      split at h
      · cases h
      · -- a connect begins with no event
        exact hsame (connect_events h) rfl
  | start i id sessionId lockScope =>
      simp only [step] at h
      split at h
      · rename_i request hosted userId hconnect
        unfold startConnect at h
        dsimp only at h
        split at h
        · cases h
        · -- attaching the job writes no event
          refine hsame ?_ h
          show (attachJob _ _ _ _).session.events = s.session.events
          unfold attachJob
          split
          · rfl
          · exact State.update_events (s := addJob s request _) fun _ => rfl
      · cases h
  | finish i outcome =>
      simp only [step] at h
      split at h
      · rename_i request hosted job hconnect
        -- the connect announces what it finished with
        rw [finishConnect_events hstored h]
        cases hosted with
        | none => simp only [published, hconnect, Option.elim_none]
        | some accessToken => simp only [published, hconnect, Option.elim_some]
      · cases h
  | reconciled i fresh =>
      simp only [step] at h
      split at h
      · rename_i reconcile hconnect
        have hpublished : published s (.reconciled i fresh)
            = reconcileEvents (s.setConnect i none) reconcile fresh := by
          simp only [published, hconnect]
        rw [hpublished]
        exact reconcileWrite_events (s := s.setConnect i none) hstored h
      · cases h
  | exchange userId publicToken =>
      simp only [step] at h
      split at h
      · exact hsame rfl h
      · rename_i token u hexchange
        rcases exchangePublicToken_eq hexchange with ⟨publicTokens, heq⟩
        have heq : u = { s with publicTokens } := heq
        -- an exchange changes the public tokens only
        refine hsame ?_ h
        rw [heq]

end Plaidify.HostedLink
