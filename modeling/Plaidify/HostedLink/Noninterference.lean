import Plaidify.HostedLink.Observations

/-!
# Extracted data and the browser

The requests of a hosted link copy the result of a job and look at its keys. They
do not look at the extracted values: applying a function to every value commutes
with every step (`step_mapData`), whatever the function. So two runs that differ
in the values only pass through states that differ in them only, and so do the
client's observations. What remains is where an observation has a value in it.
-/

namespace Plaidify.HostedLink

open AccessJobs (Dict Job JobState applyJobState serializeMetadata)
open Links (Backend)
open Mfa (MfaSession)

/-! ## A function on the extracted values -/

section

variable (φ : Json → Json)

/-- On the values of the member `data`, where that is an object. -/
def mapFields : Json → Json
  | .obj data => .obj (data.map fun m => (m.1, φ m.2))
  | data => data

/-- On the result of a job, whose member `data` has the extracted values. -/
def mapResult (result : Dict) : Dict :=
  result.map fun m => if m.1 = "data" then (m.1, mapFields φ m.2) else m

/-- On the row of a job. -/
def mapJob (job : Job) : Job :=
  { job with result := job.result.map (mapResult φ) }

@[simp] theorem mapJob_id (job : Job) : (mapJob φ job).id = job.id := rfl

/-- On what the executor writes to the row. -/
def JobState.mapData (state : JobState) : JobState :=
  { state with result := state.result.map (mapResult φ) }

/-- On the copy of the result that a session has. -/
def LinkSession.mapData (session : LinkSession) : LinkSession :=
  { session with result := session.result.map (mapResult φ) }

/-- On what a request holds during its reconcile. -/
def Reconcile.mapData (reconcile : Reconcile) : Reconcile where
  session := reconcile.session.mapData φ
  job := mapJob φ reconcile.job

/-- On what a connection holds between its stages. -/
def Connect.mapData : Connect → Connect
  | .ensured request hosted userId => .ensured request hosted userId
  | .waiting request hosted job => .waiting request hosted (mapJob φ job)
  | .reconciling reconcile => .reconciling (reconcile.mapData φ)

/-- On every place of the server's state that has a result. -/
def State.mapData (s : State) : State :=
  { s with
    session := s.session.mapData φ
    jobs := s.jobs.map (mapJob φ) (mapJob_id φ)
    polls := fun i => (s.polls i).map (Reconcile.mapData φ)
    posts := fun i => (s.posts i).map (LinkSession.mapData φ)
    connects := fun i => (s.connects i).map (Connect.mapData φ) }

/-- Only the executor brings values. -/
def Label.mapData : Label → Label
  | .writeJob id state => .writeJob id (JobState.mapData φ state)
  | l => l

/-- What a client does has none in it. -/
def ClientLabel.mapData : ClientLabel → ClientLabel
  | .server l => .server (l.mapData φ)
  | l => l

/-- Of what a client observes only the answer of `/connect` has values. -/
def Seen.mapData : Seen → Seen
  | .connected body =>
      .connected { body with data := body.data.map fun data => data.map fun m => (m.1, φ m.2) }
  | seen => seen

end

/-! ## Fields -/

section

variable {φ : Json → Json} (s : State) (i : Nat)

/-- A request holds its reconcile with the values changed. -/
theorem polls_mapData : (s.mapData φ).polls i = (s.polls i).map (Reconcile.mapData φ) := rfl

theorem posts_mapData : (s.mapData φ).posts i = (s.posts i).map (LinkSession.mapData φ) := rfl

theorem connects_mapData : (s.mapData φ).connects i = (s.connects i).map (Connect.mapData φ) := rfl

/-- The row of a job has the result with the values changed. -/
theorem getJob_mapData (id : String) :
    (s.mapData φ).jobs.get? id = (s.jobs.get? id).map (mapJob φ) := by
  show (s.jobs.map (mapJob φ) (mapJob_id φ)).get? id = _
  rw [Table.get?_map]

end

/-! ## Results -/

section

variable {φ : Json → Json}

/-- The members of a result other than `data` are the same. -/
theorem lookup_mapResult (result : Dict) (key : String) :
    (mapResult φ result).lookup key =
      if key = "data" then (result.lookup key).map (mapFields φ) else result.lookup key := by
  induction result with
  | nil => simp [mapResult]
  | cons m result ih =>
      have hcons : mapResult φ (m :: result) =
          (if m.1 = "data" then (m.1, mapFields φ m.2) else m) :: mapResult φ result := rfl
      rw [hcons]
      by_cases hdata : m.1 = "data"
      · rw [if_pos hdata, List.lookup_cons, List.lookup_cons]
        by_cases hkey : key = m.1
        · simp [hkey, hdata]
        · have hne : (key == m.1) = false := by simpa using hkey
          simp only [hne]
          exact ih
      · rw [if_neg hdata, List.lookup_cons, List.lookup_cons]
        by_cases hkey : key = m.1
        · simp [hkey, hdata]
        · have hne : (key == m.1) = false := by simpa using hkey
          simp only [hne]
          exact ih

/-- Whether `data` validates as an object does not depend on its values. -/
theorem optionalDict_mapFields (value : Option Json) :
    optionalDict (value.map (mapFields φ)) =
      (optionalDict value).map fun data => data.map fun data => data.map fun m => (m.1, φ m.2) := by
  cases value with
  | none => rfl
  | some value => cases value <;> rfl

/-- An empty result is stored as none, whatever values it would have had. -/
theorem serializeMetadata_mapResult (result : Dict) :
    serializeMetadata (mapResult φ result) = (serializeMetadata result).map (mapResult φ) := by
  cases result with
  | nil => rfl
  | cons m result => rfl

/-- The executor's result is written with its values changed. -/
theorem applyJobState_mapData (job : Job) (state : JobState) :
    applyJobState (mapJob φ job) (JobState.mapData φ state) =
      mapJob φ (applyJobState job state) := by
  cases hresult : state.result with
  | none => simp [applyJobState, mapJob, JobState.mapData, hresult]
  | some result =>
      simp [applyJobState, mapJob, JobState.mapData, hresult, serializeMetadata_mapResult]

/-- A completed job without a result has a default one, which has no data. -/
theorem jobResult_mapData (job : Job) : jobResult (mapJob φ job) = mapResult φ (jobResult job) := by
  unfold jobResult mapJob
  dsimp only
  cases job.result with
  | none => rfl
  | some result => rfl

/-- The answer for a completed job has the values of its result, and validates or not
whatever they are. -/
theorem connectedBody_mapData (job : Job) :
    connectedBody (mapJob φ job) = (connectedBody job).map fun body =>
      { body with data := body.data.map fun data => data.map fun m => (m.1, φ m.2) } := by
  unfold connectedBody
  dsimp only
  rw [jobResult_mapData]
  simp only [lookup_mapResult, reduceIte, String.reduceEq]
  rw [optionalDict_mapFields]
  cases (jobResult job).lookup "status" with
  | none => rfl
  | some status =>
      -- each optional member validates or not, and what it is does not matter
      cases status <;> try rfl
      cases optionalDict ((jobResult job).lookup "data") with
      | none => rfl
      | some data =>
          cases optionalString ((jobResult job).lookup "session_id") with
          | none => rfl
          | some sessionId =>
              cases optionalString ((jobResult job).lookup "mfa_type") with
              | none => rfl
              | some mfaType =>
                  cases optionalDict ((jobResult job).lookup "metadata") with
                  | none => rfl
                  | some metadata => rfl

end

/-! ## The session store -/

section

variable {φ : Json → Json}

/-- Whether a session has expired depends on its age. -/
theorem seen_mapData (session : LinkSession) (now : Nat) :
    (session.mapData φ).seen now = (session.seen now).mapData φ := by
  unfold LinkSession.seen LinkSession.mapData
  dsimp only
  split
  · rfl
  · rfl

/-- A read finds the session with the values of its copy changed. -/
theorem getLinkSession_mapData (s : State) :
    (s.mapData φ).getLinkSession = s.getLinkSession.map (LinkSession.mapData φ) := by
  unfold State.getLinkSession State.mapData
  dsimp only
  rw [seen_mapData]
  split
  · rfl
  · rfl

/-- What a read leaves of the session. -/
theorem touch_mapData (s : State) : (s.mapData φ).touch = s.touch.mapData φ := by
  unfold State.touch State.mapData
  dsimp only
  rw [seen_mapData]
  split
  · rfl
  · rfl

/-- The session that a request goes on with, its own or in memory the stored one. -/
theorem held_mapData (s : State) (read : LinkSession) :
    (s.mapData φ).held (read.mapData φ) = (s.held read).mapData φ := by
  unfold State.held State.mapData
  dsimp only
  split
  · rfl
  · rfl

/-- Updates that commute with the function are written so. -/
theorem update_mapData (s : State) {updates updates' : LinkSession → LinkSession}
    (h : ∀ x, updates' (x.mapData φ) = (updates x).mapData φ) :
    (s.mapData φ).update updates' = (s.update updates).mapData φ := by
  unfold State.update State.mapData
  dsimp only
  rw [h]
  split
  · rfl
  · rfl

/-- A webhook is sent what its event has, in which there is no result. -/
theorem fireWebhooks_mapData (s : State) (event : String) (data : Dict) :
    (s.mapData φ).fireWebhooks event data = (s.fireWebhooks event data).mapData φ := by
  have hpublic : ((s.mapData φ).getLinkSession.bind (·.publicToken)) =
      s.getLinkSession.bind (·.publicToken) := by
    rw [getLinkSession_mapData]
    cases s.getLinkSession with
    | none => rfl
    | some session => rfl
  unfold State.fireWebhooks
  dsimp only
  rw [hpublic, touch_mapData]
  rfl

/-- An event is appended and its webhooks fire, whatever the values. -/
theorem push_mapData (s : State) (name : Json) (data : Dict)
    {updates updates' : LinkSession → LinkSession}
    (h : ∀ x, updates' (x.mapData φ) = (updates x).mapData φ) :
    (s.mapData φ).push name data updates' = (s.push name data updates).mapData φ := by
  have hupdate : (s.mapData φ).update (fun session => updates' { session with
        events := session.events ++ [⟨name, s.now, sanitizeMembers data⟩] }) =
      (s.update fun session => updates { session with
        events := session.events ++ [⟨name, s.now, sanitizeMembers data⟩] }).mapData φ :=
    update_mapData s fun x => h { x with
      events := x.events ++ [⟨name, s.now, sanitizeMembers data⟩] }
  unfold State.push
  dsimp only
  have hnow : (s.mapData φ).now = s.now := rfl
  rw [hnow, hupdate]
  cases webhookEvent name with
  | none => rfl
  | some webhook => exact fireWebhooks_mapData _ webhook data

/-- A function on what stands at one number of a table of requests. -/
theorem map_ite_option {α β : Type} (f : α → β) (i k : Nat) (a : Option α) (g : Nat → Option α) :
    (if k = i then a else g k).map f = if k = i then a.map f else (g k).map f := by
  split
  · rfl
  · rfl

theorem setPoll_mapData (s : State) (i : Nat) (poll : Option Reconcile) :
    (s.mapData φ).setPoll i (poll.map (Reconcile.mapData φ)) = (s.setPoll i poll).mapData φ := by
  unfold State.setPoll State.mapData
  simp only [map_ite_option]

theorem setPost_mapData (s : State) (i : Nat) (post : Option LinkSession) :
    (s.mapData φ).setPost i (post.map (LinkSession.mapData φ)) = (s.setPost i post).mapData φ := by
  unfold State.setPost State.mapData
  simp only [map_ite_option]

theorem setConnect_mapData (s : State) (i : Nat) (connect : Option Connect) :
    (s.mapData φ).setConnect i (connect.map (Connect.mapData φ)) =
      (s.setConnect i connect).mapData φ := by
  unfold State.setConnect State.mapData
  simp only [map_ite_option]

/-! ## Reconciles -/

/-- A reconcile reads the session and its job. -/
theorem reconcileRead_mapData (s : State) (jobId : Option String) (query : String → Option Job) :
    reconcileRead (s.mapData φ) jobId (fun id => (query id).map (mapJob φ)) =
      (reconcileRead s jobId query).map (Reconcile.mapData φ) := by
  unfold reconcileRead
  rw [getLinkSession_mapData]
  cases s.getLinkSession with
  | none => rfl
  | some session =>
      simp only [Option.map_some, Option.bind_eq_bind, Option.bind_some]
      have hstatus : (session.mapData φ).status = session.status := rfl
      have hjobId : (session.mapData φ).currentJobId = session.currentJobId := rfl
      rw [hstatus, hjobId]
      split
      · rfl
      · cases (jobId <|> session.currentJobId) with
        | none => rfl
        | some id =>
            simp only [Option.bind_some]
            cases query id with
            | none => rfl
            | some job => rfl

/-- The keys of a serialized job, with the values changed. -/
def Payload.mapData (φ : Json → Json) (payload : Payload) : Payload :=
  { payload with result := payload.result.map (mapResult φ) }

/-- The status of a serialized job is not made of its result. -/
theorem serializeAccessJobRuntime_mapData (s : State) (job : Job) :
    serializeAccessJobRuntime (s.mapData φ) (mapJob φ job) =
      (serializeAccessJobRuntime s job).mapData φ := by
  have hmfa : (s.mapData φ).liveMfa (mapJob φ job) = s.liveMfa job := rfl
  unfold serializeAccessJobRuntime
  rw [hmfa]
  cases s.liveMfa job with
  | none => rfl
  | some session => rfl

/-- A public token is minted without a look at the values. -/
theorem ensurePublicToken_mapData (s : State) (accessToken : String) (userId : Nat)
    (fresh : String) :
    ensurePublicToken (s.mapData φ) accessToken userId fresh =
      (ensurePublicToken s accessToken userId fresh).map fun r => (r.1, r.2.mapData φ) := by
  have hexisting : (s.mapData φ).existingPublicToken accessToken userId =
      s.existingPublicToken accessToken userId := rfl
  unfold ensurePublicToken
  rw [hexisting]
  cases s.existingPublicToken accessToken userId with
  | some existing => rfl
  | none =>
      dsimp only
      rw [Option.map_map]
      rfl

/-- So is that of a completed session. -/
theorem completedPublicToken_mapData (s : State) (session : LinkSession) (fresh : String) :
    completedPublicToken (s.mapData φ) (session.mapData φ) fresh =
      (completedPublicToken s session fresh).map fun r => (r.1, r.2.mapData φ) := by
  unfold completedPublicToken LinkSession.mapData
  dsimp only
  split
  · rfl
  · rw [ensurePublicToken_mapData, Option.map_map, Option.map_map]
    rfl
  · rfl

/-- A reconcile copies the result into the session; what else it writes depends on the
status. -/
theorem reconcileWrite_mapData (s : State) (reconcile : Reconcile) (fresh : String) :
    reconcileWrite (s.mapData φ) (reconcile.mapData φ) fresh =
      (reconcileWrite s reconcile fresh).map (State.mapData φ) := by
  have hheld : (s.mapData φ).held (reconcile.mapData φ).session =
      (s.held reconcile.session).mapData φ := held_mapData s reconcile.session
  have hpayload : serializeAccessJobRuntime (s.mapData φ) (reconcile.mapData φ).job =
      (serializeAccessJobRuntime s reconcile.job).mapData φ :=
    serializeAccessJobRuntime_mapData s reconcile.job
  -- what is left is made of the session and of the payload
  unfold reconcileWrite
  rw [hheld, hpayload]
  generalize s.held reconcile.session = session
  generalize serializeAccessJobRuntime s reconcile.job = payload
  have hstatus : (payload.mapData φ).status = payload.status := rfl
  dsimp only
  rw [hstatus]
  cases payload.status with
  -- the job goes on: the session is updated
  | pending | running =>
      refine congrArg some (Eq.trans (congrArg State.touch ?_) (touch_mapData _))
      exact update_mapData s fun x => rfl
  | mfaRequired =>
      refine congrArg some (Eq.trans (congrArg State.touch ?_) (touch_mapData _))
      unfold reconcileMfaRequired
      dsimp only
      -- the prompt is pushed if the session did not show it before
      have hnew : (session.mapData φ).status = session.status := rfl
      rw [hnew]
      split
      · exact push_mapData s _ _ fun x => rfl
      · exact update_mapData s fun x => rfl
  | completed =>
      -- the session's copy of the result is where the values go
      dsimp only
      rw [completedPublicToken_mapData]
      cases completedPublicToken s session fresh with
      | none => rfl
      | some r =>
          refine congrArg some (Eq.trans (congrArg State.touch ?_) (touch_mapData _))
          unfold reconcileCompleted
          dsimp only
          -- the announcement is pushed if the session was not completed before
          have hnew : (session.mapData φ).status = session.status := rfl
          rw [hnew]
          split
          · exact push_mapData r.2 _ _ fun x => rfl
          · exact update_mapData r.2 fun x => rfl
  | blocked | cancelled | failed =>
      refine congrArg some (Eq.trans (congrArg State.touch ?_) (touch_mapData _))
      unfold reconcileFailed
      dsimp only
      -- the failure is pushed if the session was not failed before
      have hnew : (session.mapData φ).status = session.status := rfl
      rw [hnew]
      split
      · exact push_mapData s _ _ fun x => rfl
      · exact update_mapData s fun x => rfl

/-! ## Connections -/

/-- The rows of a link have the request's credentials. -/
theorem writeLinkRows_mapData (s : State) (userId : Nat) (request : ConnectRequest)
    (fresh : String) :
    writeLinkRows (s.mapData φ) userId request fresh =
      (writeLinkRows s userId request fresh).map fun r => (r.1, r.2.mapData φ) := by
  have hexisting : ∀ (u : State), (u.mapData φ).existingAccessToken userId =
      u.existingAccessToken userId := fun _ => rfl
  have hwritten : ({ s.mapData φ with
      link := some request.site, lastRequest := some request } : State) =
        State.mapData φ { s with link := some request.site, lastRequest := some request } := rfl
  unfold writeLinkRows
  simp only [hwritten, hexisting]
  cases State.existingAccessToken
      { s with link := some request.site, lastRequest := some request } userId with
  | some row => rfl
  | none =>
      dsimp only
      rw [Option.map_map]
      rfl

/-- A connection begins with the session and the rows of its link. -/
theorem connect_mapData (s : State) (i : Nat) (request : ConnectRequest) (fresh : String)
    (userFound : Bool) :
    connect (s.mapData φ) i request fresh userFound =
      (connect s i request fresh userFound).map (State.mapData φ) := by
  -- nothing that a connection holds at its first stage has a result
  have hset : ∀ (u : State) (hosted : Option (Option String)) (userId : Option Nat),
      (u.mapData φ).setConnect i (some (.ensured request hosted userId)) =
        (u.setConnect i (some (.ensured request hosted userId))).mapData φ :=
    fun u hosted userId => setConnect_mapData u i (some (.ensured request hosted userId))
  unfold connect
  rw [getLinkSession_mapData, touch_mapData]
  cases s.getLinkSession with
  | none => exact congrArg some (hset s none none)
  | some session =>
      have huser : (session.mapData φ).userId = session.userId := rfl
      simp only [Option.map_some, huser]
      cases session.userId with
      | none => exact congrArg some (hset s.touch (some none) none)
      | some userId =>
          dsimp only
          split
          · rw [writeLinkRows_mapData, Option.map_map, Option.map_map]
            refine congrArg (Option.map · _) (funext fun r => ?_)
            exact hset r.2 (some (some r.1)) (some userId)
          · exact congrArg some (hset s.touch none none)

/-- A job is created without a result. -/
theorem startConnect_mapData (s : State) (i : Nat) (request : ConnectRequest)
    (hosted : Option (Option String)) (id sessionId lockScope : String) :
    startConnect (s.mapData φ) i request hosted id sessionId lockScope =
      (startConnect s i request hosted id sessionId lockScope).map (State.mapData φ) := by
  have hjob : connectJob (s.mapData φ) request id sessionId lockScope =
      mapJob φ (connectJob s request id sessionId lockScope) := rfl
  -- the id and the session of the new job are looked for among the rows
  have hget : ((s.mapData φ).jobs.get? id).isSome = (s.jobs.get? id).isSome := by
    show ((s.jobs.map (mapJob φ) (mapJob_id φ)).get? id).isSome = _
    rw [Table.get?_map, Option.isSome_map]
  have hany : ((s.mapData φ).jobs.rows.any fun row => row.sessionId == some sessionId) =
      s.jobs.rows.any fun row => row.sessionId == some sessionId := by
    show ((s.jobs.map (mapJob φ) (mapJob_id φ)).rows.any _) = _
    rw [Table.map_rows, List.any_map]
    rfl
  have hadd : ∀ job, addJob (s.mapData φ) request (mapJob φ job) =
      (addJob s request job).mapData φ := by
    intro job
    unfold addJob State.mapData
    dsimp only
    rw [Table.set_map]
    rfl
  unfold startConnect
  dsimp only
  rw [hget, hany, hjob, hadd]
  have hmfa : (s.mapData φ).mfa = s.mfa := rfl
  rw [hmfa]
  split
  · rfl
  · have hattach : attachJob ((addJob s request
        (connectJob s request id sessionId lockScope)).mapData φ) request hosted
          (mapJob φ (connectJob s request id sessionId lockScope)) =
        (attachJob (addJob s request (connectJob s request id sessionId lockScope)) request
          hosted (connectJob s request id sessionId lockScope)).mapData φ := by
      cases hosted with
      | none => rfl
      | some accessToken => exact update_mapData _ fun x => rfl
    rw [hattach]
    exact congrArg some (setConnect_mapData _ i (some (.waiting request hosted
      (connectJob s request id sessionId lockScope))))

/-- A challenge is written to the session with what the executor said of it, which has
no data. -/
theorem connectMfaRequired_mapData (s : State) (request : ConnectRequest)
    (accessToken jobId : Option String) (mfaType sessionId : String) (message : Json)
    (metadata : Dict) :
    connectMfaRequired (s.mapData φ) request accessToken jobId mfaType sessionId message metadata =
      (connectMfaRequired s request accessToken jobId mfaType sessionId message
        metadata).mapData φ :=
  push_mapData s _ _ fun _ => rfl

/-- The wait of a connection is over, and its reconcile reads the job that was held. -/
theorem finishConnect_mapData (s : State) (i : Nat) (request : ConnectRequest)
    (hosted : Option (Option String)) (job : Job) (outcome : Outcome) :
    finishConnect (s.mapData φ) i request hosted (mapJob φ job) outcome =
      (finishConnect s i request hosted job outcome).map (State.mapData φ) := by
  -- in every case the connection is over
  have hend : ∀ (u : State), some ((u.mapData φ).setConnect i none) =
      (some (u.setConnect i none)).map (State.mapData φ) :=
    fun u => congrArg some (setConnect_mapData u i none)
  cases outcome with
  | completed =>
      cases hosted with
      | none => exact hend s
      | some accessToken =>
          -- the reconcile reads the job that was held
          have hread : reconcileRead (s.mapData φ) (some job.id) (fun _ => some (mapJob φ job)) =
              (reconcileRead s (some job.id) fun _ => some job).map (Reconcile.mapData φ) :=
            reconcileRead_mapData s (some job.id) fun _ => some job
          have hid : (mapJob φ job).id = job.id := rfl
          unfold finishConnect
          dsimp only
          rw [hid, hread, touch_mapData, Option.map_map]
          have hset := setConnect_mapData (φ := φ) s.touch i
            ((reconcileRead s (some job.id) fun _ => some job).map .reconciling)
          rw [Option.map_map] at hset
          exact congrArg some hset
  | mfaSession =>
      -- the MFA session of the job is found by the same name
      have hsession : (s.mapData φ).mfaSession ((mapJob φ job).sessionId.getD "") =
          s.mfaSession (job.sessionId.getD "") := rfl
      unfold finishConnect
      dsimp only
      rw [hsession]
      cases s.mfaSession (job.sessionId.getD "") with
      | none => rfl
      | some session =>
          simp only [Option.bind_eq_bind, Option.bind_some]
          cases hosted with
          | none => exact hend s
          | some accessToken =>
              dsimp only
              have hid : (mapJob φ job).id = job.id := rfl
              have hjobSession : (mapJob φ job).sessionId = job.sessionId := rfl
              rw [hid, hjobSession, connectMfaRequired_mapData]
              exact hend _
  | mfaRequired site mfaType sessionId tracked =>
      cases hosted with
      | none => exact hend s
      | some accessToken =>
          unfold finishConnect
          dsimp only
          -- the event names the job, and carries no values
          have hid : (mapJob φ job).id = job.id := rfl
          rw [hid, connectMfaRequired_mapData]
          exact hend _
  | pending | raised => exact hend s

/-! ## Requests of the page -/

/-- A write to the row of a job. -/
theorem writeJob_mapData (s : State) (id : String) (state : JobState) :
    step (s.mapData φ) (.writeJob id (JobState.mapData φ state)) =
      (step s (.writeJob id state)).map (State.mapData φ) := by
  simp only [step]
  rw [getJob_mapData, Option.map_map, Option.map_map]
  refine congrArg (Option.map · _) (funext fun job => ?_)
  simp only [Function.comp_apply]
  rw [applyJobState_mapData]
  unfold State.mapData
  dsimp only
  rw [Table.put_map]

/-- A poll looks the job up by its id. -/
theorem poll_mapData (s : State) (i : Nat) :
    step (s.mapData φ) (.poll i) = (step s (.poll i)).map (State.mapData φ) := by
  have hquery : (s.mapData φ).jobs.get? = fun id => (s.jobs.get? id).map (mapJob φ) :=
    funext fun id => getJob_mapData s id
  simp only [step]
  rw [polls_mapData, hquery]
  cases s.polls i with
  | some reconcile => rfl
  | none =>
      rw [touch_mapData, reconcileRead_mapData]
      exact congrArg some (setPoll_mapData s.touch i _)

/-- And its reconcile writes what it has read. -/
theorem polled_mapData (s : State) (i : Nat) (fresh : String) :
    step (s.mapData φ) (.polled i fresh) = (step s (.polled i fresh)).map (State.mapData φ) := by
  simp only [step]
  rw [polls_mapData]
  cases s.polls i with
  | none => rfl
  | some reconcile =>
      have hset : (s.mapData φ).setPoll i none = (s.setPoll i none).mapData φ :=
        setPoll_mapData s i none
      simp only [Option.map_some, hset]
      exact reconcileWrite_mapData (s.setPoll i none) reconcile fresh

/-- An event is posted against the status of the session, which has no value in it. -/
theorem postEvent_mapData (s : State) (i : Nat) :
    postEvent (s.mapData φ) i = (postEvent s i).mapData φ := by
  unfold postEvent
  rw [getLinkSession_mapData, touch_mapData]
  cases s.getLinkSession with
  | none => rfl
  | some session =>
      have hstatus : (session.mapData φ).status = session.status := rfl
      simp only [Option.map_some, hstatus]
      split
      · rfl
      · exact setPost_mapData s.touch i (some session)

/-- The status that an event asks for depends on the event. -/
theorem postedEvent_mapData (s : State) (read : LinkSession) (body : Dict) :
    postedEvent (s.mapData φ) (read.mapData φ) body = (postedEvent s read body).mapData φ := by
  unfold postedEvent
  rw [held_mapData]
  dsimp only
  split
  · rfl
  · exact push_mapData _ _ _ fun x => rfl
  · exact push_mapData _ _ _ fun x => rfl

/-- The wait of a connection is over, and its reconcile writes. -/
theorem reconciled_mapData (s : State) (i : Nat) (fresh : String) :
    step (s.mapData φ) (.reconciled i fresh) =
      (step s (.reconciled i fresh)).map (State.mapData φ) := by
  simp only [step]
  rw [connects_mapData]
  cases s.connects i with
  | none => rfl
  | some connect =>
      cases connect with
      | reconciling reconcile =>
          have hset : (s.mapData φ).setConnect i none = (s.setConnect i none).mapData φ :=
            setConnect_mapData s i none
          simp only [Option.map_some, Connect.mapData, hset]
          exact reconcileWrite_mapData (s.setConnect i none) reconcile fresh
      | ensured | waiting => rfl

/-- Public tokens are exchanged without a look at a session or a job. -/
theorem exchangePublicToken_mapData (s : State) (userId : Nat) (publicToken : String) :
    exchangePublicToken (s.mapData φ) userId publicToken =
      (exchangePublicToken s userId publicToken).map fun r => (r.1, r.2.mapData φ) := by
  have hget : (s.mapData φ).publicTokens = s.publicTokens := rfl
  have hnow : (s.mapData φ).now = s.now := rfl
  unfold exchangePublicToken
  rw [hget, hnow]
  cases s.publicTokens.get? publicToken with
  | none => rfl
  | some row =>
      dsimp only
      -- 403, and 410 for a token that was used or has expired
      split
      · rfl
      · split
        · rfl
        · split
          · rfl
          · rfl

/-! ## Every step -/

/-- **The server does not look at the values.** Applying a function to all of them
commutes with every step. -/
theorem step_mapData (s : State) (l : Label) :
    step (s.mapData φ) (l.mapData φ) = (step s l).map (State.mapData φ) := by
  cases l with
  | wait | evict | createMfa | submitMfa | removeMfa => rfl
  | writeJob id state => exact writeJob_mapData s id state
  | poll i => exact poll_mapData s i
  | polled i fresh => exact polled_mapData s i fresh
  | post i =>
      simp only [step, Label.mapData]
      rw [posts_mapData]
      cases s.posts i with
      -- one that is on its way already is refused in both
      | some read => rfl
      | none => exact congrArg some (postEvent_mapData s i)
  | posted i body =>
      simp only [step, Label.mapData]
      rw [posts_mapData]
      cases s.posts i with
      | none => rfl
      | some read =>
          have hset : (s.mapData φ).setPost i none = (s.setPost i none).mapData φ :=
            -- the event comes from the page, and carries no values
            setPost_mapData s i none
          simp only [Option.map_some, hset]
          exact congrArg some (postedEvent_mapData (s.setPost i none) read body)
  | connect i request fresh userFound =>
      simp only [step, Label.mapData]
      rw [connects_mapData]
      cases s.connects i with
      | some connect => rfl
      | none => exact connect_mapData s i request fresh userFound
  | start i id sessionId lockScope =>
      simp only [step, Label.mapData]
      rw [connects_mapData]
      cases s.connects i with
      | none => rfl
      | some connect =>
          cases connect with
          -- only a connection that has its rows starts
          | ensured request hosted userId =>
              exact startConnect_mapData s i request hosted id sessionId lockScope
          | waiting | reconciling => rfl
  | finish i outcome =>
      simp only [step, Label.mapData]
      rw [connects_mapData]
      cases s.connects i with
      | none => rfl
      | some connect =>
          cases connect with
          -- only a connection that waits is finished
          | waiting request hosted job =>
              exact finishConnect_mapData s i request hosted job outcome
          | ensured | reconciling => rfl
  | reconciled i fresh => exact reconciled_mapData s i fresh
  | exchange userId publicToken =>
      simp only [step, Label.mapData]
      -- the exchange reads the tables of tokens
      rw [exchangePublicToken_mapData]
      cases exchangePublicToken s userId publicToken with
      | error e => rfl
      | ok r => rfl

/-- Neither do the steps of a client. -/
theorem clientStep_mapData (s : State) (l : ClientLabel) :
    clientStep (s.mapData φ) (l.mapData φ) = (clientStep s l).map (State.mapData φ) := by
  cases l with
  | server l => exact step_mapData s l
  | mfaStatus sessionId => rfl
  | subscribe => exact congrArg some (touch_mapData s)

/-! ## Observations -/

/-- The event of a reconcile has nothing of the result. -/
theorem reconcileEvents_mapData (s : State) (reconcile : Reconcile) (fresh : String) :
    reconcileEvents (s.mapData φ) (reconcile.mapData φ) fresh =
      reconcileEvents s reconcile fresh := by
  have hheld : (s.mapData φ).held (reconcile.mapData φ).session =
      (s.held reconcile.session).mapData φ := held_mapData s reconcile.session
  have hpayload : serializeAccessJobRuntime (s.mapData φ) (reconcile.mapData φ).job =
      (serializeAccessJobRuntime s reconcile.job).mapData φ :=
    serializeAccessJobRuntime_mapData s reconcile.job
  unfold reconcileEvents
  dsimp only
  rw [hheld, hpayload]
  generalize s.held reconcile.session = session
  generalize serializeAccessJobRuntime s reconcile.job = payload
  have hstatus : (payload.mapData φ).status = payload.status := rfl
  rw [hstatus]
  cases payload.status with
  | completed =>
      dsimp only
      rw [completedPublicToken_mapData]
      cases completedPublicToken s session fresh with
      | none => rfl
      | some r => rfl
  | pending | running | mfaRequired | blocked | cancelled | failed => rfl

/-- A step publishes the same events. -/
theorem published_mapData (s : State) (l : Label) :
    published (s.mapData φ) (l.mapData φ) = published s l := by
  cases l with
  | polled i fresh =>
      have hset : (s.mapData φ).setPoll i none = (s.setPoll i none).mapData φ :=
        setPoll_mapData s i none
      simp only [published, Label.mapData, polls_mapData, hset]
      cases s.polls i with
      | none => rfl
      | some reconcile => exact reconcileEvents_mapData (s.setPoll i none) reconcile fresh
  | reconciled i fresh =>
      have hset : (s.mapData φ).setConnect i none = (s.setConnect i none).mapData φ :=
        setConnect_mapData s i none
      simp only [published, Label.mapData, connects_mapData, hset]
      cases s.connects i with
      | none => rfl
      | some connect =>
          cases connect with
          | reconciling reconcile =>
              exact reconcileEvents_mapData (s.setConnect i none) reconcile fresh
          | ensured | waiting => rfl
  | posted i body =>
      simp only [published, Label.mapData, posts_mapData]
      cases s.posts i with
      | none => rfl
      | some read => rfl
  | finish i outcome =>
      simp only [published, Label.mapData, connects_mapData]
      cases s.connects i with
      | none => rfl
      | some connect =>
          cases connect with
          | waiting request hosted job =>
              cases hosted with
              | none => rfl
              | some accessToken => cases outcome <;> rfl
          | ensured | reconciling => rfl
  | wait | evict | writeJob | createMfa | submitMfa | removeMfa | poll | post | connect | start
  | exchange => rfl

/-- The answer to a status request has no result in it. -/
theorem statusSeen_mapData (s : State) :
    (s.mapData φ).getLinkSession.map statusBody = s.getLinkSession.map statusBody := by
  rw [getLinkSession_mapData, Option.map_map]
  rfl

/-- The answer of `/connect` has the values of the job's row. -/
theorem connectSeen_mapData (s : State) (job : Job) (outcome : Outcome) :
    connectSeen (s.mapData φ) (mapJob φ job) outcome =
      (connectSeen s job outcome).map (Seen.mapData φ) := by
  cases outcome with
  | completed =>
      have hget : (s.mapData φ).jobs.get? (mapJob φ job).id = (s.jobs.get? job.id).map (mapJob φ) :=
        getJob_mapData s job.id
      unfold connectSeen
      dsimp only
      rw [hget]
      cases s.jobs.get? job.id with
      | none => rfl
      | some row =>
          have hstatus : (mapJob φ row).status = row.status := rfl
          simp only [Option.map_some, hstatus, connectedBody_mapData]
          split
          · cases connectedBody row with
            | none => rfl
            | some body => rfl
          · rfl
  | mfaSession =>
      have hsession : (s.mapData φ).mfaSession ((mapJob φ job).sessionId.getD "") =
          s.mfaSession (job.sessionId.getD "") := rfl
      unfold connectSeen
      dsimp only
      rw [hsession]
      cases s.mfaSession (job.sessionId.getD "") with
      | none => rfl
      | some session => rfl
  | pending | mfaRequired => rfl
  | raised =>
      have hget : (s.mapData φ).jobs.get? (mapJob φ job).id = (s.jobs.get? job.id).map (mapJob φ) :=
        getJob_mapData s job.id
      unfold connectSeen
      dsimp only
      rw [hget]
      cases s.jobs.get? job.id with
      | none => rfl
      | some row => rfl

/-- Events have no extracted values. -/
theorem map_event (events : List Event) :
    (events.map Seen.event).map (Seen.mapData φ) = events.map Seen.event := by
  rw [List.map_map]
  rfl

/-- What the client observes follows the values, and nothing else of it does. -/
theorem sees_mapData (s t : State) (l : ClientLabel) :
    sees (s.mapData φ) (t.mapData φ) (l.mapData φ) = (sees s t l).map (Seen.mapData φ) := by
  -- the events are published with the same texts
  have hpublished : ∀ l, published (s.mapData φ) (l.mapData φ) = published s l :=
    published_mapData s
  cases l with
  | mfaStatus sessionId => rfl
  | subscribe =>
      -- a new subscriber is told the events, and these carry no values
      have hevents : (s.mapData φ).getLinkSession.map (·.events) =
          s.getLinkSession.map (·.events) := by
        rw [getLinkSession_mapData, Option.map_map]
        rfl
      simp only [sees, ClientLabel.mapData, hevents]
      rfl
  | server l =>
      cases l with
      | poll i =>
          -- a poll tells the status
          simp only [sees, ClientLabel.mapData, Label.mapData, polls_mapData, statusSeen_mapData]
          cases t.polls i with
          | none => rfl
          | some reconcile => rfl
      | polled i fresh =>
          have hevents := hpublished (.polled i fresh)
          simp only [Label.mapData] at hevents
          simp only [sees, ClientLabel.mapData, Label.mapData, hevents, statusSeen_mapData,
            List.map_append, map_event]
          rfl
      | post i =>
          -- the answer to a post is decided by the session's status and events
          simp only [sees, ClientLabel.mapData, Label.mapData, posts_mapData,
            getLinkSession_mapData]
          cases t.posts i with
          | some read => rfl
          | none =>
              cases s.getLinkSession with
              | none => rfl
              | some session => rfl
      | posted i body =>
          have hevents := hpublished (.posted i body)
          simp only [Label.mapData] at hevents
          simp only [sees, ClientLabel.mapData, Label.mapData, hevents, List.map_append, map_event]
          rfl
      | finish i outcome =>
          -- the one observation that the values are in
          have hevents := hpublished (.finish i outcome)
          simp only [Label.mapData] at hevents
          simp only [sees, ClientLabel.mapData, Label.mapData, hevents, connects_mapData,
            List.map_append, map_event]
          cases s.connects i with
          | none => rfl
          | some connect =>
              cases connect with
              | waiting request hosted job =>
                  -- the answer to a connect carries the result, with its values
                  exact congrArg (_ ++ ·) (connectSeen_mapData s job outcome)
              | ensured | reconciling => rfl
      | submitMfa sessionId code => rfl
      | reconciled i fresh =>
          have hevents := hpublished (.reconciled i fresh)
          simp only [Label.mapData] at hevents
          simp only [sees, ClientLabel.mapData, Label.mapData, hevents, map_event]
      | wait | evict | writeJob | createMfa | removeMfa | connect | start | exchange => rfl

/-- A step together with what it shows. -/
theorem seenStep_mapData (x : State × List Seen) (l : ClientLabel) :
    seenStep (x.1.mapData φ, x.2.map (Seen.mapData φ)) (l.mapData φ) =
      (seenStep x l).map fun y => (y.1.mapData φ, y.2.map (Seen.mapData φ)) := by
  unfold seenStep Runs.watched
  dsimp only
  rw [clientStep_mapData, Option.map_map, Option.map_map]
  cases clientStep x.1 l with
  | none => rfl
  | some t =>
      simp only [Option.map_some, Function.comp_apply, sees_mapData, List.map_append]

end

/-! ## Two runs -/

/-- All values are alike. -/
def blank : Json → Json := fun _ => .null

/-- A change that every value shows. -/
def tag (value : Json) : Json := .arr [value]

/-- No value contains itself. -/
theorem tag_ne (value : Json) : tag value ≠ value := by
  intro h
  have hsize := congrArg sizeOf h
  unfold tag at hsize
  simp at hsize
  omega

/-- The runs differ at most in the values that the executor extracted. -/
def SameButData (tr tr' : List ClientLabel) : Prop :=
  tr'.map (ClientLabel.mapData blank) = tr.map (ClientLabel.mapData blank)

/-- What the client observes of a hosted session in a run. -/
def observations (backend : Backend) (linkToken : String) (now : Nat) (site : Option String)
    (userId : Nat) (tr : List ClientLabel) : Option (List Seen) :=
  (Runs.exec seenStep (init backend linkToken now site (some userId), []) tr).map Prod.snd

/-- The result has no `data`, or an empty one. -/
def withoutData (job : Job) : Bool :=
  ((optionalDict ((jobResult job).lookup "data")).join.getD []).isEmpty

/-- A `POST /connect` that is still there when its job has completed answers a
result without extracted data, or one that is no `ConnectResponse`. -/
def answersNoData (s : State) : ClientLabel → Bool
  | .server (.finish i .completed) =>
      match s.connects i with
      | some (.waiting _ _ job) => (s.jobs.get? job.id).all fun row =>
          row.status != .completed || (connectedBody row).isNone || withoutData row
      | _ => true
  | _ => true

/-- The observation has no extracted value. -/
def Seen.NoData : Seen → Prop
  | .connected body => body.data.getD [] = []
  | _ => True

/-- A function on the values leaves their number. -/
theorem noData_mapData {φ : Json → Json} (seen : Seen) :
    (seen.mapData φ).NoData ↔ seen.NoData := by
  cases seen with
  | connected body =>
      cases hdata : body.data with
      | none => simp [Seen.mapData, Seen.NoData, hdata]
      | some data => simp [Seen.mapData, Seen.NoData, hdata]
  | _ => exact Iff.rfl

/-- Where there is no value, the function has nothing to change. -/
theorem mapData_of_noData {φ : Json → Json} {seen : Seen} (h : seen.NoData) :
    seen.mapData φ = seen := by
  cases seen with
  | connected body =>
      cases hdata : body.data with
      | none =>
          cases body
          simp_all [Seen.mapData]
      | some data =>
          cases body
          simp_all [Seen.mapData, Seen.NoData]
  | _ => rfl

/-- An observation that `tag` leaves alone has no value. -/
theorem noData_of_tag {seen : Seen} (h : seen.mapData tag = seen) : seen.NoData := by
  cases seen with
  | connected body =>
      have hbody := Seen.connected.inj h
      have hdata : (body.data.map fun data => data.map fun m => (m.1, tag m.2)) = body.data :=
        congrArg ConnectBody.data hbody
      change body.data.getD [] = []
      cases hfields : body.data with
      | none => rfl
      | some data =>
          rw [hfields] at hdata
          cases data with
          | nil => rfl
          | cons m data =>
              -- the first field shows the change
              have hm := (List.cons.inj (Option.some.inj hdata)).1
              exact absurd (congrArg Prod.snd hm) (tag_ne m.2)
  | _ => trivial

/-- The data of an answer is that of the job's result. -/
theorem connectedBody_data {job : Job} {body : ConnectBody} (h : connectedBody job = some body) :
    body.data = (optionalDict ((jobResult job).lookup "data")).join := by
  unfold connectedBody at h
  dsimp only at h
  split at h
  · rename_i _ data _ _ _ _ hdata _ _ _
    rw [hdata, ← Option.some.inj h]
    rfl
  · cases h

/-- Events carry no value. -/
theorem noData_events (events : List Event) : ∀ seen ∈ events.map Seen.event, seen.NoData := by
  intro seen hseen
  rcases List.mem_map.mp hseen with ⟨event, -, rfl⟩
  trivial

/-- Of observations one after the other. -/
theorem noData_append {seen seen' : List Seen} :
    (∀ x ∈ seen ++ seen', x.NoData) ↔ (∀ x ∈ seen, x.NoData) ∧ ∀ x ∈ seen', x.NoData :=
  List.forall_mem_append

/-- The answer of `/connect` has a value exactly where the result of a completed job has
data and validates. -/
theorem connectSeen_noData (s : State) (job : Job) (outcome : Outcome) :
    (∀ seen ∈ connectSeen s job outcome, seen.NoData) ↔
      (outcome = .completed → (s.jobs.get? job.id).all fun row =>
        row.status != .completed || (connectedBody row).isNone || withoutData row) := by
  cases outcome with
  | completed =>
      unfold connectSeen
      cases s.jobs.get? job.id with
      | none => simp
      | some row =>
          by_cases hstatus : row.status = .completed
          · cases hbody : connectedBody row with
            | none => simp [hstatus, hbody, Seen.NoData]
            | some body =>
                have hdata := connectedBody_data hbody
                simp [hstatus, hbody, Seen.NoData, withoutData, hdata, List.isEmpty_iff]
          · simp [hstatus]
  | mfaSession =>
      unfold connectSeen
      cases s.mfaSession (job.sessionId.getD "") with
      | none => simp
      | some session => simp [Seen.NoData]
  | pending | mfaRequired | raised => simp [connectSeen, Seen.NoData]

/-- A step shows a value exactly where `/connect` answers one. -/
theorem sees_noData (s t : State) (l : ClientLabel) :
    (∀ seen ∈ sees s t l, seen.NoData) ↔ answersNoData s l = true := by
  cases l with
  | mfaStatus | subscribe => simp [sees, answersNoData, Seen.NoData]
  | server l =>
      cases l with
      | poll i =>
          refine iff_of_true ?_ rfl
          simp only [sees]
          cases t.polls i with
          | none => simp [Seen.NoData]
          | some reconcile => simp
      | polled i fresh =>
          refine iff_of_true (noData_append.mpr ⟨noData_events _, ?_⟩) rfl
          simp [Seen.NoData]
      | post i =>
          refine iff_of_true ?_ rfl
          simp only [sees]
          cases t.posts i with
          | some read => simp
          | none =>
              cases s.getLinkSession with
              | none => simp [Seen.NoData]
              | some session => simp [Seen.NoData]
      | posted i body =>
          refine iff_of_true (noData_append.mpr ⟨noData_events _, ?_⟩) rfl
          simp [Seen.NoData]
      | finish i outcome =>
          -- only the answer of `connect` can have a value
          unfold sees
          rw [noData_append, and_iff_right (noData_events _)]
          cases hconnect : s.connects i with
          | none => cases outcome <;> simp [answersNoData, hconnect]
          | some connect =>
              cases connect with
              | waiting request hosted job =>
                  dsimp only
                  rw [connectSeen_noData]
                  cases outcome <;> simp [answersNoData, hconnect]
              | ensured | reconciling => cases outcome <;> simp [answersNoData, hconnect]
      | submitMfa sessionId code => simp [sees, answersNoData, Seen.NoData]
      | wait | evict | writeJob | createMfa | removeMfa | connect | start | reconciled
      | exchange => exact iff_of_true (noData_events _) rfl

/-- A whole run. -/
theorem run_noData {x y : State × List Seen} {tr : List ClientLabel}
    (h : Runs.exec seenStep x tr = some y) :
    (∀ seen ∈ y.2, seen.NoData) ↔
      (∀ seen ∈ x.2, seen.NoData) ∧
        Runs.Along clientStep (fun s l => answersNoData s l = true) x.1 tr := by
  induction tr generalizing x with
  | nil =>
      obtain rfl : x = y := by simpa using h
      simp
  | cons l tr ih =>
      rcases Runs.exec_cons.mp h with ⟨z, hz, htr⟩
      rcases Runs.watched_eq_some.mp hz with ⟨hstep, hseen⟩
      rw [ih htr, Runs.along_cons hstep, hseen, noData_append, sees_noData, and_assoc]

/-! ## The completion contract -/

/-- Blanking hides what was changed before. -/
theorem label_mapData_blank (l : ClientLabel) :
    (l.mapData tag).mapData blank = l.mapData blank := by
  have hresult : ∀ result : Dict, mapResult blank (mapResult tag result) =
      mapResult blank result := by
    intro result
    unfold mapResult
    rw [List.map_map]
    refine List.map_congr_left fun m _ => ?_
    by_cases hdata : m.1 = "data"
    · cases hvalue : m.2 <;> simp [hdata, hvalue, mapFields, blank]
    · simp [hdata]
  cases l with
  | server l =>
      cases l with
      | writeJob id state =>
          cases hstate : state.result with
          | none => simp [ClientLabel.mapData, Label.mapData, JobState.mapData, hstate]
          | some result =>
              simp [ClientLabel.mapData, Label.mapData, JobState.mapData, hstate, hresult]
      | _ => rfl
  | mfaStatus | subscribe => rfl

/-- Changing every value makes a run that differs in the values only. -/
theorem sameButData_tag (tr : List ClientLabel) :
    SameButData tr (tr.map (ClientLabel.mapData tag)) := by
  unfold SameButData
  rw [List.map_map]
  exact List.map_congr_left fun l _ => label_mapData_blank l

/-- A new session has no result. -/
theorem init_mapData (φ : Json → Json) (backend : Backend) (linkToken : String) (now : Nat)
    (site : Option String) (userId : Option Nat) :
    (init backend linkToken now site userId).mapData φ =
      init backend linkToken now site userId := rfl

/-- The observations of a run follow its values. -/
theorem observations_mapData (φ : Json → Json) (backend : Backend) (linkToken : String) (now : Nat)
    (site : Option String) (userId : Nat) (tr : List ClientLabel) :
    observations backend linkToken now site userId (tr.map (ClientLabel.mapData φ)) =
      (observations backend linkToken now site userId tr).map (·.map (Seen.mapData φ)) := by
  unfold observations
  have hrun := Runs.exec_map (f := fun x : State × List Seen =>
    (x.1.mapData φ, x.2.map (Seen.mapData φ))) seenStep_mapData
    (init backend linkToken now site (some userId), []) tr
  rw [init_mapData, List.map_nil] at hrun
  rw [hrun, Option.map_map, Option.map_map]
  rfl

/-- A list that a function leaves as it is. -/
theorem map_eq_self {α : Type} {f : α → α} {l : List α} : l.map f = l ↔ ∀ x ∈ l, f x = x := by
  have hmap := List.map_inj_left (l := l) (f := f) (g := id)
  rwa [List.map_id] at hmap

/-- The client observes the same in every run that differs in the extracted values
only, exactly where no completed connection is answered with any. -/
theorem observations_same_iff {backend : Backend} {linkToken : String} {now : Nat}
    {site : Option String} {userId : Nat} {tr : List ClientLabel} {t : State}
    (h : Runs.exec clientStep (init backend linkToken now site (some userId)) tr = some t) :
    (∀ tr', SameButData tr tr' →
      observations backend linkToken now site userId tr' =
        observations backend linkToken now site userId tr) ↔
      Runs.Along clientStep (fun s l => answersNoData s l = true)
        (init backend linkToken now site (some userId)) tr := by
  have hwatched : (Runs.exec seenStep (init backend linkToken now site (some userId), []) tr).map
      Prod.fst = Runs.exec clientStep (init backend linkToken now site (some userId)) tr :=
    Runs.exec_watched (init backend linkToken now site (some userId), []) tr
  rw [h] at hwatched
  rcases Option.map_eq_some_iff.mp hwatched with ⟨x, hx, rfl⟩
  have hobs : observations backend linkToken now site userId tr = some x.2 := by
    unfold observations
    rw [hx, Option.map_some]
  have hnoData := run_noData hx
  rw [and_iff_right (by simp)] at hnoData
  rw [← hnoData, hobs]
  constructor
  · -- the run with all values changed
    intro hall seen hseen
    have htag := hall _ (sameButData_tag tr)
    rw [observations_mapData, hobs, Option.map_some, Option.some.injEq] at htag
    apply noData_of_tag
    exact map_eq_self.mp htag seen hseen
  · intro hnone tr' htr'
    -- both runs become the same one as their values are blanked
    have hblank : (observations backend linkToken now site userId tr').map
        (·.map (Seen.mapData blank)) = some (x.2.map (Seen.mapData blank)) := by
      rw [← observations_mapData, htr', observations_mapData, hobs, Option.map_some]
    rcases Option.map_eq_some_iff.mp hblank with ⟨seen', hseen', hmap⟩
    rw [hseen', Option.some.injEq]
    have hfixed : x.2.map (Seen.mapData blank) = x.2 :=
      map_eq_self.mpr fun seen hseen => mapData_of_noData (hnone seen hseen)
    rw [hfixed] at hmap
    rw [← hmap]
    refine (map_eq_self.mpr fun seen hseen => mapData_of_noData ?_).symm
    have hmem : seen.mapData blank ∈ x.2 := hmap ▸ List.mem_map_of_mem hseen
    exact (noData_mapData seen).mp (hnone _ hmem)

/-! ### Two runs -/

/-- The connection of a hosted session, up to the completed job. -/
def connectedWith (balance : Int) : List ClientLabel :=
  [.server (.connect 1 { site := "bank", username := "user", password := "secret" } "access" true),
    .server (.start 1 "job" "mfa" "scope"),
    .server (.writeJob "job" (AccessJobs.runningState 1000)),
    .server (.writeJob "job" (AccessJobs.completedState 2000 none
      [("status", .str "connected"), ("data", .obj [("balance", .int balance)])]))]

/-- `POST /connect` has waited for the job. -/
def answeredAtOnce (balance : Int) : List ClientLabel :=
  connectedWith balance ++ [.server (.finish 1 .completed)]

/-- `POST /connect` answered before the job was done, and the page polls. -/
def answeredPending (balance : Int) : List ClientLabel :=
  (connectedWith balance).take 3 ++ [.server (.finish 1 .pending)] ++
    (connectedWith balance).drop 3 ++
    [.subscribe, .server (.poll 1), .server (.polled 1 "public"), .subscribe]

/-- The balances among the observed data. -/
def balances (seen : List Seen) : List Int :=
  seen.filterMap fun
    | .connected body =>
        match (body.data.getD []).lookup "balance" with
        | some (.int balance) => some balance
        | _ => none
    | _ => none

/-- A client that polls observes nothing of the balance. -/
theorem answeredPending_same :
    observations .redis "link" 0 none 1 (answeredPending 43) =
      observations .redis "link" 0 none 1 (answeredPending 42) := by
  have hstatus : (Runs.exec clientStep (init .redis "link" 0 none (some 1))
      (answeredPending 42)).map (fun t => t.session.status) = some .completed := by
    decide +kernel
  rcases Option.map_eq_some_iff.mp hstatus with ⟨t, ht, -⟩
  exact (observations_same_iff ht).mpr (by decide +kernel) (answeredPending 43) rfl

/-- The answer of `POST /connect` has the balance. -/
theorem answeredAtOnce_not_same :
    ¬ ∀ (backend : Backend) (linkToken : String) (now : Nat) (site : Option String)
        (userId : Nat) (tr tr' : List ClientLabel), SameButData tr tr' →
      observations backend linkToken now site userId tr' =
        observations backend linkToken now site userId tr := by
  intro hall
  have hsame := hall .redis "link" 0 none 1 (answeredAtOnce 42) (answeredAtOnce 43) rfl
  have h42 : (observations .redis "link" 0 none 1 (answeredAtOnce 42)).map balances =
      some [42] := by decide +kernel
  have h43 : (observations .redis "link" 0 none 1 (answeredAtOnce 43)).map balances =
      some [43] := by decide +kernel
  rw [hsame, h42] at h43
  exact absurd h43 (by decide)

end Plaidify.HostedLink
