import Plaidify.HostedLink.Challenges
import Plaidify.HostedLink.Page

/-!
# The page against the server

The page of a hosted link, the requests it makes (`GET` of the status,
`POST /connect`, `POST /mfa/submit` and the events), the access job and the MFA
manager, in any order. The page knows the states of a connection by the strings
of its answers. It has no branch for the answer to a submitted code, and takes it
for a failure; where no code is submitted, a job that completes in time leads to
success.
-/

namespace Plaidify.HostedLink

open AccessJobs (Dict Exc Job Status)

/-! ## What the server answers -/

/-- The values of `status` as strings. -/
def LinkStatus.text : LinkStatus → String
  | .awaitingInstitution => "awaiting_institution"
  | .awaitingCredentials => "awaiting_credentials"
  | .connecting => "connecting"
  | .verifyingMfa => "verifying_mfa"
  | .mfaRequired => "mfa_required"
  | .completed => "completed"
  | .error => "error"
  | .exited => "exited"
  | .expired => "expired"

/-- The answer of `get_link_session_status`. -/
def statusResponse (session : LinkSession) : Response where
  status := session.status.text
  jobId := session.currentJobId
  sessionId := session.sessionId
  site := match session.site with | .str site => some site | _ => none
  publicToken :=
    if session.status = .completed then session.publicToken.filter (· ≠ "") else none
  mfaType := session.mfaType
  message := if session.message.truthy then session.message else .null
  errorMessage := if session.errorMessage.truthy then session.errorMessage else .null
  metadata := session.metadata

/-- `get_link_session_status` once its reconcile is over. -/
def statusAnswer (s : State) : Answer :=
  match s.getLinkSession with
  | none => .error (.str "Link session not found.")
  | some session => .ok (statusResponse session)

/-- An `Optional[str]` of the response model; `none` if it does not validate. -/
def optionalString : Option Json → Option (Option String)
  | none | some .null => some none
  | some (.str s) => some (some s)
  | _ => none

/-- An `Optional[Dict[str, Any]]` of the response model. -/
def optionalDict : Option Json → Option (Option Dict)
  | none | some .null => some none
  | some (.obj data) => some (some data)
  | _ => none

/-- The result of a completed job, as `_wait_for_terminal_job_result` has it. -/
def jobResult (job : Job) : Dict :=
  job.result.getD [("status", .str "completed")]

/-- The answer of `connect` for a completed job, if the result validates. -/
def connectedResponse (job : Job) : Option Response :=
  let result := jobResult job
  match result.lookup "status", optionalDict (result.lookup "data"),
    optionalString (result.lookup "session_id"), optionalString (result.lookup "mfa_type"),
    optionalDict (result.lookup "metadata") with
  | some (.str status), some _, some sessionId, some mfaType, some metadata =>
      some { status, jobId := some job.id, sessionId, mfaType := optStr mfaType, metadata }
  | _, _, _, _, _ => none

/-- The answer of `connect` as its wait ends. The job has ended that way. `detail`
is the message of an answer that is an error. -/
def connectAnswer (s : State) (job : Job) (detail : Json) : Outcome → Option Answer
  | .completed => do
      let row ← s.jobs.get? job.id
      if row.status = .completed then
        match connectedResponse row with
        | some response => return .ok response
        | none => return .error detail
      else none
  | .mfaSession => do
      let session ← s.mfaSession (job.sessionId.getD "")
      return .ok {
        status := "mfa_required"
        jobId := some job.id
        sessionId := job.sessionId
        mfaType := .str session.mfaType
        metadata := some session.metadata }
  | .pending =>
      some (.ok {
        status := "pending"
        jobId := some job.id
        sessionId := job.sessionId
        metadata := some [("message", .str ("Connection is still running in the background. " ++
          "Poll /access_jobs/\x7bjob_id\x7d for status updates."))] })
  | .mfaRequired site mfaType sessionId tracked =>
      some (.ok {
        status := "mfa_required"
        jobId := if tracked then some job.id else none
        sessionId := some sessionId
        mfaType := .str mfaType
        metadata := some [("message", .str (Exc.mfaRequired site mfaType sessionId).message)] })
  | .raised => some (.error detail)

/-- `submit_mfa_code`. -/
def submitMfaCode (success : Bool) : Response :=
  if success then
    { status := "mfa_submitted", message := .str "Code submitted. The connection will resume." }
  else { status := "error", error := .str "MFA session not found or expired." }

/-! ## The system -/

/-- A page, its server, and what is between them. -/
structure System where
  server : State
  page : Page
  /-- The answers that the page has not taken yet. -/
  answers : Nat → Option Answer
  /-- The number under which the server has the event that is in flight. -/
  posting : Option Nat

/-- What happens without the page. -/
def Label.fromOutside : Label → Bool
  | .wait _ | .evict | .writeJob .. | .createMfa .. | .submitMfa .. | .removeMfa _
  | .exchange .. => true
  | _ => false

inductive Act where
  | env (l : Label)
  /-- The user, in the step that shows the control. -/
  | select (institution : Institution)
  | submitCredentials (i : Nat) (username password : String)
  | submitMfa (i : Nat) (code : String)
  | remediate (action : RemediationAction)
  | telemetry (name : TelemetryEventName) (elapsed : Nat)
  | leave (unmounts : Bool)
  /-- A request arrives at the server. -/
  | receive (i : Nat) (fresh : String) (userFound : Bool)
  /-- The server goes on with it. -/
  | start (i : Nat) (id sessionId lockScope : String)
  | finish (i : Nat) (outcome : Outcome) (detail : Json)
  | reconciled (i : Nat) (fresh : String)
  | polled (i : Nat) (fresh : String)
  /-- A request fails. -/
  | reject (i : Nat) (message : Json)
  /-- The page goes on with an answer, or after a pause. -/
  | handle (i : Nat)
  | wake (i : Nat)
  /-- The event in flight arrives, and its post is over. -/
  | deliver (i : Nat)
  | delivered (heard : Bool)
  | retry
  | giveUp

namespace System

def setAnswer (x : System) (i : Nat) (answer : Option Answer) : System :=
  { x with answers := fun k => if k = i then answer else x.answers k }

/-- The number is not in use. -/
def idle (x : System) (i : Nat) : Bool :=
  (x.page.calls i).isNone && (x.answers i).isNone && (x.server.polls i).isNone &&
    (x.server.connects i).isNone

/-- An answer to a status request that the page still waits for. -/
def answerStatus (x : System) (i : Nat) (answer : Answer) : System :=
  if (x.page.calls i).any Call.asksStatus then x.setAnswer i (some answer) else x

/-- An answer to `POST /connect`. -/
def answerConnect (x : System) (i : Nat) (answer : Answer) : System :=
  match x.page.calls i with
  | some (.connect _) => x.setAnswer i (some answer)
  | _ => x

/-- A request arrives. -/
def receive (x : System) (i : Nat) (fresh : String) (userFound : Bool) : Call → Option System
  | .mount | .poll .. | .resolve _ =>
      (step x.server (.poll i)).map fun server =>
        if (server.polls i).isSome then { x with server }
        else { x with server }.setAnswer i (some (statusAnswer x.server))
  | .connect request =>
      (step x.server (.connect i request fresh userFound)).map fun server => { x with server }
  | .submitMfa sessionId code =>
      (step x.server (.submitMfa sessionId code)).map fun server =>
        { x with server }.setAnswer i
          (some (.ok (submitMfaCode (acceptsCode x.server sessionId))))
  | .sleep .. => none

def step (x : System) : Act → Option System
  | .env l =>
      if l.fromOutside then (HostedLink.step x.server l).map fun server => { x with server }
      else none
  | .select institution =>
      if x.page.flow.step = .select then
        some { x with page := x.page.selectInstitution institution }
      else none
  | .submitCredentials i username password =>
      if x.page.flow.step = .credentials ∧ x.idle i then
        some { x with page := x.page.runConnect i username password }
      else none
  | .submitMfa i code =>
      match x.page.sessionIdRef with
      | none => none
      | some sessionId =>
          if x.page.flow.step = .mfa ∧ x.idle i then
            some { x with page := x.page.submitMfa i sessionId code }
          else none
  | .remediate action =>
      if x.page.flow.step = .error then some { x with page := x.page.remediate action } else none
  | .telemetry name elapsed => some { x with page := x.page.telemetry name elapsed }
  | .leave unmounts => some { x with page := x.page.leave unmounts }
  | .receive i fresh userFound =>
      match x.page.calls i, x.answers i with
      | some call, none => x.receive i fresh userFound call
      | _, _ => none
  | .start i id sessionId lockScope =>
      (HostedLink.step x.server (.start i id sessionId lockScope)).map fun server =>
        { x with server }
  | .finish i outcome detail =>
      match x.server.connects i with
      | some (.waiting _ _ job) => do
          let answer ← connectAnswer x.server job detail outcome
          let server ← HostedLink.step x.server (.finish i outcome)
          return { x with server }.answerConnect i answer
      | _ => none
  | .reconciled i fresh =>
      (HostedLink.step x.server (.reconciled i fresh)).map fun server => { x with server }
  | .polled i fresh =>
      (HostedLink.step x.server (.polled i fresh)).map fun server =>
        { x with server }.answerStatus i (statusAnswer server)
  | .reject i message =>
      match x.page.calls i, x.answers i with
      | some (.sleep ..), _ => none
      | some _, none => some (x.setAnswer i (some (.error message)))
      | _, _ => none
  | .handle i =>
      -- the answer of `connect` is there once its reconcile is over
      match x.page.calls i, x.answers i, x.server.connects i with
      | some call, some answer, none =>
          some ({ x with page := x.page.handle i call answer }.setAnswer i none)
      | _, _, _ => none
  | .wake i =>
      match x.page.calls i with
      | some (.sleep jobId attempt) => some { x with page := x.page.wake i jobId attempt }
      | _ => none
  | .deliver i =>
      match x.page.inFlight, x.posting with
      | some _, none =>
          (HostedLink.step x.server (.post i)).map fun server =>
            if (server.posts i).isSome then { x with server, posting := some i }
            else { x with server, page := x.page.deliveryFailed }
      | _, _ => none
  | .delivered heard =>
      match x.page.inFlight, x.posting with
      | some e, some i =>
          (HostedLink.step x.server (.posted i e.body)).map fun server =>
            { x with
              server
              page := if heard then x.page.delivered else x.page.deliveryFailed
              posting := none }
      | _, _ => none
  | .retry => some { x with page := x.page.drain }
  | .giveUp => some { x with page := x.page.giveUp }

/-- A fresh session, and the page that opens on it. -/
def init (backend : Links.Backend) (linkToken : String) (now : Nat) (site : Option String)
    (userId : Option Nat) : System where
  server := HostedLink.init backend linkToken now site userId
  page := .init
  answers := fun _ => none
  posting := none

end System

/-! ## The property -/

/-- The page has not dispatched `FAIL` and posts no `ERROR` event, so that the
error step is out of its reach. -/
structure NeverFails (p : Page) : Prop where
  dispatched : ∀ event ∈ p.dispatched, event.isFail = false
  emitted : ∀ e ∈ p.emitted, e.isError = false
  step : p.flow.step ≠ .error

/-- Requests succeed, codes go to live MFA sessions, and jobs complete, the job
that the page polls for before the last attempt has read its row. -/
def Assumed (x : System) : Act → Bool
  | .env (.writeJob _ state) => state.status == .running || state.status == .completed
  | .env (.submitMfa sessionId _) => acceptsCode x.server sessionId
  | .receive i _ _ =>
      match x.page.calls i with
      | some (.submitMfa sessionId _) => acceptsCode x.server sessionId
      | _ => true
  | .finish _ (.mfaRequired ..) _ | .finish _ .raised _ => false
  | .polled i _ =>
      match x.page.calls i, x.server.polls i with
      | some (.poll jobId attempt), some reconcile =>
          attempt + 1 < Page.pollMax || jobId != some reconcile.job.id ||
            reconcile.job.status == .completed
      | _, _ => true
  | .reject .. => false
  | .handle i => (x.answers i).all fun answer => answer.isOk
  | .delivered heard => heard
  | _ => true

/-- The statuses that `handleConnectResponse` knows. -/
def knownStatus (status : String) : Bool :=
  status == "connected" || status == "mfa_required" || status == "pending"

/-- No code is submitted by the page. Besides, the page connects to a site; it is
not opened on a session that has expired or completed; a result that `connect`
answers has a status that the page knows; and the last attempt of a poll finds a
session that is young and about the job that the page polls for. -/
def Understood (x : System) : Act → Bool
  | .submitCredentials .. => (x.page.siteRef.filter (· ≠ "")).isSome
  | .submitMfa .. => false
  | .receive i _ _ =>
      match x.page.calls i with
      | some .mount =>
          x.server.getLinkSession.all fun session =>
            session.status != .expired && session.status != .completed
      | some (.poll jobId attempt) =>
          attempt + 1 < Page.pollMax ||
            (reconcileRead x.server none x.server.jobs.get?).any fun reconcile =>
              jobId == some reconcile.job.id
      | _ => true
  | .finish i .completed _ =>
      match x.server.connects i with
      | some (.waiting _ _ job) =>
          (x.server.jobs.get? job.id).all fun row =>
            match (jobResult row).lookup "status" with
            | some (.str status) => knownStatus status
            | _ => true
      | _ => true
  | .polled i _ =>
      match x.page.calls i, x.server.polls i with
      | some .mount, some reconcile =>
          decide x.server.Young && reconcile.job.status != .completed
      | some (.poll jobId attempt), some reconcile =>
          attempt + 1 < Page.pollMax ||
            (decide x.server.Young && jobId == some reconcile.job.id)
      | _, _ => true
  | _ => true

/-! ## The server -/

/-- A job that completes has had no other status. -/
def onTrack : Status → Bool
  | .pending | .running | .completed => true
  | _ => false

/-- The row that the request holds is on its track. -/
def Connect.onTrack : Connect → Bool
  | .ensured .. => true
  | .waiting _ _ job => HostedLink.onTrack job.status
  | .reconciling reconcile => HostedLink.onTrack reconcile.job.status

/-- Jobs complete, and the session shows no error. -/
structure OnTrack (s : State) : Prop where
  jobs : ∀ job ∈ s.jobs.rows, onTrack job.status = true
  polls : ∀ i reconcile, s.polls i = some reconcile → onTrack reconcile.job.status = true
  connects : ∀ i connect, s.connects i = some connect → connect.onTrack = true
  status : s.stored = true → s.session.status ≠ .error

section

variable {s t : State}

theorem OnTrack.frame (h : OnTrack s) (hjobs : t.jobs = s.jobs) (hpolls : t.polls = s.polls)
    (hconnects : t.connects = s.connects)
    (hstatus : t.stored = true → t.session.status ≠ .error) : OnTrack t where
  jobs := hjobs ▸ h.jobs
  polls := hpolls ▸ h.polls
  connects := hconnects ▸ h.connects
  status := hstatus

theorem OnTrack.setPoll (h : OnTrack s) (i : Nat) {poll : Option Reconcile}
    (hpoll : ∀ reconcile, poll = some reconcile → onTrack reconcile.job.status = true) :
    OnTrack (s.setPoll i poll) where
  jobs := h.jobs
  polls k reconcile hk := by
    change (if k = i then poll else s.polls k) = some reconcile at hk
    split at hk
    · exact hpoll reconcile hk
    · exact h.polls k reconcile hk
  connects := h.connects
  status := h.status

theorem OnTrack.setConnect (h : OnTrack s) (i : Nat) {connect : Option Connect}
    (hconnect : connect.all Connect.onTrack = true) : OnTrack (s.setConnect i connect) where
  jobs := h.jobs
  polls := h.polls
  connects k held hk := by
    change (if k = i then connect else s.connects k) = some held at hk
    split at hk
    · rwa [hk] at hconnect
    · exact h.connects k held hk
  status := h.status

theorem OnTrack.touch (h : OnTrack s) : OnTrack s.touch := by
  rcases s.touch_eq with ⟨session, heq, hsession⟩
  rw [heq]
  refine h.frame rfl rfl rfl ?_
  intro hstored
  rcases hsession with rfl | rfl
  · exact h.status hstored
  · exact nofun

/-- A write of another status than an error. -/
theorem OnTrack.wrote (h : OnTrack s) {sessionId prompt : Option String} {status : LinkStatus}
    (hw : Wrote s t sessionId status prompt) (hstatus : s.stored = true → status ≠ .error)
    (hjobs : t.jobs = s.jobs) (hpolls : t.polls = s.polls) (hconnects : t.connects = s.connects) :
    OnTrack t := by
  refine h.frame hjobs hpolls hconnects ?_
  intro hstored
  rw [hw.stored] at hstored
  rcases hw.status hstored with hwrote | hwrote
  · rw [hwrote]
    exact hstatus hstored
  · rw [hwrote]
    exact nofun

theorem onTrack_of_reconcileRead {jobId : Option String}
    {query : String → Option Job} {reconcile : Reconcile}
    (hquery : ∀ id job, query id = some job → onTrack job.status = true)
    (hread : reconcileRead s jobId query = some reconcile) :
    onTrack reconcile.job.status = true := by
  rcases reconcileRead_eq_some hread with ⟨-, -, id, -, hjob⟩
  exact hquery id reconcile.job hjob

/-- A job on its track does not make the session an error. -/
theorem reconciledStatus_ne_error {job : Job} (h : onTrack job.status = true) :
    reconciledStatus (serializeAccessJobRuntime s job).status ≠ .error := by
  cases hwaits : s.waitsForCode job with
  | true =>
      rw [(runtime_mfaRequired_iff s job).mpr hwaits]
      exact nofun
  | false =>
      rw [runtime_of_not_waits hwaits]
      cases hjob : job.status <;> simp [hjob, onTrack, reconciledStatus] at h ⊢

theorem OnTrack.reconcile (h : OnTrack s) {reconcile : Reconcile} {fresh : String}
    (hjob : onTrack reconcile.job.status = true)
    (ht : reconcileWrite s reconcile fresh = some t) : OnTrack t := by
  have hwrote := reconcileWrite_wrote ht
  rcases reconcileWrite_eq ht with ⟨session, webhooks, publicTokens, rfl⟩
  exact h.wrote hwrote (fun _ => reconciledStatus_ne_error hjob) rfl rfl rfl

/-- Only `ERROR` asks for an error. -/
theorem askedStatus_ne_error {session : LinkSession} {body : Dict}
    (h : eventName body ≠ .str "ERROR") : askedStatus session body ≠ some .error := by
  intro hasked
  unfold askedStatus at hasked
  split at hasked
  · rename_i name hname
    have hne : name ≠ "ERROR" := by
      rintro rfl
      exact h hname
    unfold eventStatus at hasked
    split at hasked
    all_goals first
      | exact absurd rfl hne
      | (split at hasked <;> cases hasked)
      | cases hasked
  · cases hasked

/-- The labels under which jobs complete and the page posts no error. -/
def Smooth : Label → Prop
  | .writeJob _ state => state.status = .running ∨ state.status = .completed
  | .posted _ body => eventName body ≠ .str "ERROR"
  | _ => True

theorem OnTrack.writeLinkRows (h : OnTrack s) {userId : Nat} {request : ConnectRequest}
    {fresh : String} {r : String × State} (hr : writeLinkRows s userId request fresh = some r) :
    OnTrack r.2 := by
  rcases writeLinkRows_eq hr with ⟨accessTokens, heq⟩
  rw [heq]
  exact h.frame rfl rfl rfl h.status

theorem OnTrack.connect (h : OnTrack s) {i : Nat} {request : ConnectRequest} {fresh : String}
    {userFound : Bool} (ht : connect s i request fresh userFound = some t) : OnTrack t := by
  unfold HostedLink.connect at ht
  split at ht
  · obtain rfl := Option.some.inj ht
    exact h.setConnect i rfl
  · split at ht
    · obtain rfl := Option.some.inj ht
      exact h.touch.setConnect i rfl
    · split at ht
      · rcases Option.map_eq_some_iff.mp ht with ⟨r, hr, rfl⟩
        exact (h.touch.writeLinkRows hr).setConnect i rfl
      · obtain rfl := Option.some.inj ht
        exact h.touch.setConnect i rfl

theorem OnTrack.addJob (h : OnTrack s) {request : ConnectRequest} {job : Job}
    (hjob : onTrack job.status = true) : OnTrack (addJob s request job) where
  jobs row hrow := by
    rcases Table.mem_set hrow with rfl | hold
    · exact hjob
    · exact h.jobs row hold
  polls := h.polls
  connects := h.connects
  status := h.status

theorem OnTrack.attachJob (h : OnTrack s) (request : ConnectRequest)
    (hosted : Option (Option String)) (job : Job) : OnTrack (attachJob s request hosted job) := by
  cases hosted with
  | none => exact h
  | some accessToken =>
      have hwrote : Wrote s (s.update (connectingUpdates request accessToken job)) _ _ _ :=
        update_wrote rfl rfl (fun _ => rfl) fun _ => rfl
      show OnTrack (s.update (connectingUpdates request accessToken job))
      rcases s.update_sessionOnly (connectingUpdates request accessToken job) with ⟨_, _, heq⟩
      rw [heq] at hwrote ⊢
      exact h.wrote hwrote (fun _ => nofun) rfl rfl rfl

theorem OnTrack.startConnect (h : OnTrack s) {i : Nat} {request : ConnectRequest}
    {hosted : Option (Option String)} {id sessionId lockScope : String}
    (ht : startConnect s i request hosted id sessionId lockScope = some t) : OnTrack t := by
  unfold HostedLink.startConnect at ht
  simp only [] at ht
  split at ht
  · cases ht
  · obtain rfl := Option.some.inj ht
    have hjob : onTrack (connectJob s request id sessionId lockScope).status = true := rfl
    apply OnTrack.setConnect
    · exact (h.addJob hjob).attachJob request hosted _
    · exact hjob

/-- `MFA_REQUIRED` of `connect` is no error. -/
theorem OnTrack.connectMfaRequired (h : OnTrack s) (request : ConnectRequest)
    (accessToken jobId : Option String) (mfaType sessionId : String) (message : Json)
    (metadata : Dict) :
    OnTrack (connectMfaRequired s request accessToken jobId mfaType sessionId message
      metadata) := by
  have hwrote := connectMfaRequired_wrote s request accessToken jobId mfaType sessionId message
    metadata
  unfold HostedLink.connectMfaRequired at hwrote ⊢
  rcases s.push_sessionOnly _ _ _ with ⟨_, _, heq⟩
  rw [heq] at hwrote ⊢
  exact h.wrote hwrote (fun _ => nofun) rfl rfl rfl

theorem OnTrack.finishConnect (h : OnTrack s) {i : Nat} {request : ConnectRequest}
    {hosted : Option (Option String)} {job : Job} {outcome : Outcome}
    (hjob : onTrack job.status = true)
    (ht : finishConnect s i request hosted job outcome = some t) : OnTrack t := by
  cases outcome with
  | completed =>
      cases hosted with
      | none =>
          obtain rfl := Option.some.inj ht
          exact h.setConnect i rfl
      | some accessToken =>
          obtain rfl := Option.some.inj ht
          apply h.touch.setConnect i
          cases hread : reconcileRead s (some job.id) fun _ => some job with
          | none => rfl
          | some reconcile =>
              refine onTrack_of_reconcileRead ?_ hread
              intro id row hrow
              rwa [← Option.some.inj hrow]
  | pending | raised =>
      obtain rfl := Option.some.inj ht
      exact h.setConnect i rfl
  | mfaSession =>
      rcases Option.bind_eq_some_iff.mp ht with ⟨session, -, heq⟩
      obtain rfl := Option.some.inj heq
      cases hosted with
      | none => exact h.setConnect i rfl
      | some accessToken => exact (h.connectMfaRequired ..).setConnect i rfl
  | mfaRequired site mfaType sessionId tracked =>
      obtain rfl := Option.some.inj ht
      cases hosted with
      | none => exact h.setConnect i rfl
      | some accessToken => exact (h.connectMfaRequired ..).setConnect i rfl

theorem OnTrack.postedEvent (h : OnTrack s) {read : LinkSession} {body : Dict}
    (hbody : eventName body ≠ .str "ERROR") : OnTrack (postedEvent s read body) := by
  rcases postedEvent_wrote s read body with ⟨prompt, hwrote⟩
  have honly : s.SessionOnly (HostedLink.postedEvent s read body) := by
    unfold HostedLink.postedEvent
    simp only []
    split
    · exact .refl s
    · exact State.push_sessionOnly ..
    · exact State.push_sessionOnly ..
  rcases honly with ⟨_, _, heq⟩
  rw [heq] at hwrote ⊢
  refine h.wrote hwrote ?_ rfl rfl rfl
  intro hstored
  cases hasked : askedStatus (s.held read) body with
  | none => exact h.status hstored
  | some status =>
      rintro rfl
      exact askedStatus_ne_error hbody hasked

theorem OnTrack.step (hs : OnTrack s) {l : Label} (hl : Smooth l) (h : step s l = some t) :
    OnTrack t := by
  cases l with
  | wait milliseconds =>
      obtain rfl := Option.some.inj h
      exact hs.frame rfl rfl rfl hs.status
  | evict =>
      obtain rfl := Option.some.inj h
      exact hs.frame rfl rfl rfl nofun
  | writeJob id state =>
      rcases Option.map_eq_some_iff.mp h with ⟨job, -, rfl⟩
      -- the job is written on its way, or ends well
      refine ⟨?_, hs.polls, hs.connects, hs.status⟩
      intro row hrow
      rcases Table.mem_put hrow with rfl | hold
      · rw [AccessJobs.applyJobState_status]
        rcases hl with hstatus | hstatus
        · rw [hstatus]
          rfl
        · rw [hstatus]
          rfl
      · exact hs.jobs row hold.1
  | createMfa sessionId challenge | submitMfa sessionId code | removeMfa sessionId =>
      obtain rfl := Option.some.inj h
      exact hs.frame rfl rfl rfl hs.status
  | poll i =>
      simp only [HostedLink.step] at h
      split at h
      · cases h
      · obtain rfl := Option.some.inj h
        -- the poll reads the session and its job at once
        refine hs.touch.setPoll i fun reconcile hread => ?_
        refine onTrack_of_reconcileRead ?_ hread
        intro id job hjob
        exact hs.jobs job (Table.get?_mem hjob).1
  | polled i fresh =>
      simp only [HostedLink.step] at h
      split at h
      · cases h
      · rename_i reconcile hpoll
        exact (hs.setPoll i fun _ h => by cases h).reconcile (hs.polls i reconcile hpoll) h
  | post i =>
      simp only [HostedLink.step] at h
      split at h
      · cases h
      · obtain rfl := Option.some.inj h
        unfold postEvent
        split
        · exact hs
        · split
          · exact hs.touch
          · exact hs.touch.frame rfl rfl rfl hs.touch.status
  | posted i body =>
      simp only [HostedLink.step] at h
      split at h
      · cases h
      · obtain rfl := Option.some.inj h
        -- the event is one that the page sends on its way
        have hs' : OnTrack (s.setPost i none) := hs.frame rfl rfl rfl hs.status
        exact hs'.postedEvent hl
  | connect i request fresh userFound =>
      simp only [HostedLink.step] at h
      split at h
      · cases h
      · exact hs.connect h
  | start i id sessionId lockScope =>
      simp only [HostedLink.step] at h
      split at h
      · exact hs.startConnect h
      · cases h
  | finish i outcome =>
      simp only [HostedLink.step] at h
      split at h
      · rename_i request hosted job hconnect
        -- a connect goes on with the job that it began
        exact hs.finishConnect (hs.connects i _ hconnect) h
      · cases h
  | reconciled i fresh =>
      simp only [HostedLink.step] at h
      split at h
      · rename_i reconcile hconnect
        -- what the connect read is still on its way
        exact (hs.setConnect i rfl).reconcile (hs.connects i _ hconnect) h
      · cases h
  | exchange userId publicToken =>
      simp only [HostedLink.step] at h
      split at h
      · obtain rfl := Option.some.inj h
        exact hs
      · rename_i heq
        obtain rfl := Option.some.inj h
        rcases exchangePublicToken_eq heq with ⟨publicTokens, hpublic⟩
        simp only [] at hpublic
        rw [hpublic]
        exact hs.frame rfl rfl rfl hs.status

end

/-! ## The page -/

/-- No code was submitted, and the attempts of a poll are counted. -/
def Call.Sound : Call → Prop
  | .submitMfa .. => False
  | .poll _ attempt => attempt < Page.pollMax
  | .sleep _ attempt => attempt + 1 < Page.pollMax
  | _ => True

/-- What a page that never fails holds. -/
structure PageInv (p : Page) : Prop where
  safe : NeverFails p
  queue : ∀ e ∈ p.queue, e.isError = false
  inFlight : ∀ e, p.inFlight = some e → e.isError = false
  calls : ∀ i call, p.calls i = some call → call.Sound

/-- The answers that the page knows what to do with. -/
def Expected (response : Response) : Call → Prop
  | .mount => response.status ≠ "expired" ∧ response.status ≠ "completed"
  | .connect _ => knownStatus response.status = true
  | .poll _ attempt =>
      response.status ≠ "error" ∧
        (attempt + 1 = Page.pollMax →
          response.status = "completed" ∨ response.status = "mfa_required")
  | .resolve _ => True
  | .sleep .. | .submitMfa .. => False

section

variable {p : Page}

theorem PageInv.dispatch (h : PageInv p) {event : FlowEvent} (hevent : event.isFail = false) :
    PageInv (p.dispatch event) where
  safe := by
    refine ⟨?_, h.safe.emitted, flowReducer_step_ne_error h.safe.step hevent⟩
    intro e he
    rcases List.mem_append.mp he with hold | hnew
    · exact h.safe.dispatched e hold
    · rwa [List.mem_singleton.mp hnew]
  queue := h.queue
  inFlight := h.inFlight
  calls := h.calls

theorem PageInv.drain (h : PageInv p) : PageInv p.drain := by
  unfold Page.drain
  split
  · exact h
  · refine ⟨⟨h.safe.dispatched, h.safe.emitted, h.safe.step⟩, h.queue, ?_, h.calls⟩
    intro e he
    exact h.queue e (List.mem_of_mem_head? he)

theorem PageInv.emit (h : PageInv p) {event : String} {payload : Dict}
    (hevent : QueuedEvent.isError ⟨event, payload⟩ = false) : PageInv (p.emit event payload) := by
  unfold Page.emit
  apply PageInv.drain
  refine ⟨⟨h.safe.dispatched, ?_, h.safe.step⟩, ?_, h.inFlight, h.calls⟩
  · intro e he
    rcases List.mem_append.mp he with hold | hnew
    · exact h.safe.emitted e hold
    · rwa [List.mem_singleton.mp hnew]
  · intro e he
    rcases List.mem_append.mp he with hold | hnew
    · exact h.queue e hold
    · rwa [List.mem_singleton.mp hnew]

theorem PageInv.setCall (h : PageInv p) (i : Nat) {call : Option Call}
    (hcall : ∀ c, call = some c → c.Sound) : PageInv (p.setCall i call) where
  safe := ⟨h.safe.dispatched, h.safe.emitted, h.safe.step⟩
  queue := h.queue
  inFlight := h.inFlight
  calls k c hk := by
    change (if k = i then call else p.calls k) = some c at hk
    split at hk
    · exact hcall c hk
    · exact h.calls k c hk

theorem PageInv.endCall (h : PageInv p) (i : Nat) : PageInv (p.setCall i none) :=
  h.setCall i fun _ hc => by cases hc

theorem PageInv.await (h : PageInv p) (i : Nat) {call : Call} (hcall : call.Sound) :
    PageInv (p.setCall i (some call)) :=
  h.setCall i fun _ hc => Option.some.inj hc ▸ hcall

theorem PageInv.setSiteRef (h : PageInv p) (siteRef : Option String) :
    PageInv { p with siteRef := siteRef } :=
  ⟨⟨h.safe.dispatched, h.safe.emitted, h.safe.step⟩, h.queue, h.inFlight, h.calls⟩

theorem PageInv.setSessionIdRef (h : PageInv p) (sessionIdRef : Option String) :
    PageInv { p with sessionIdRef := sessionIdRef } :=
  ⟨⟨h.safe.dispatched, h.safe.emitted, h.safe.step⟩, h.queue, h.inFlight, h.calls⟩

theorem PageInv.dropEvent (h : PageInv p) : PageInv { p with queue := p.queue.tail } :=
  ⟨⟨h.safe.dispatched, h.safe.emitted, h.safe.step⟩,
    fun e he => h.queue e (List.mem_of_mem_tail he), h.inFlight, h.calls⟩

theorem PageInv.deliveryFailed (h : PageInv p) : PageInv p.deliveryFailed :=
  ⟨⟨h.safe.dispatched, h.safe.emitted, h.safe.step⟩, h.queue, nofun, h.calls⟩

theorem PageInv.delivered (h : PageInv p) : PageInv p.delivered :=
  h.dropEvent.deliveryFailed.drain

theorem PageInv.giveUp (h : PageInv p) : PageInv p.giveUp := by
  unfold Page.giveUp
  split
  · exact h
  · exact h.dropEvent.drain

theorem PageInv.succeed (h : PageInv p) (i : Nat) (resolved : Response) :
    PageInv (p.succeed i resolved) :=
  ((h.endCall i).dispatch rfl).emit rfl

theorem PageInv.finishSuccess (h : PageInv p) (i : Nat) (payload : Response) :
    PageInv (p.finishSuccess i payload) := by
  unfold Page.finishSuccess
  split
  · exact h.await i trivial
  · exact h.succeed i payload

theorem PageInv.promptMfa (h : PageInv p) (i : Nat) (prompt mfaType : Json)
    (sessionId : Option String) : PageInv (p.promptMfa i prompt mfaType sessionId) :=
  ((h.endCall i).dispatch rfl).emit rfl

/-- A status that the page knows leads on. -/
theorem PageInv.handleConnectResponse (h : PageInv p) (i : Nat) {response : Response}
    (hknown : knownStatus response.status = true) :
    PageInv (p.handleConnectResponse i response) := by
  unfold Page.handleConnectResponse
  simp only []
  have h' := h.setSessionIdRef ((response.sessionId.filter (· ≠ "")) <|> p.sessionIdRef)
  by_cases hconnected : response.status = "connected"
  · rw [if_pos hconnected]
    exact h'.finishSuccess i response
  · rw [if_neg hconnected]
    by_cases hmfa : response.status = "mfa_required"
    · rw [if_pos hmfa]
      exact h'.promptMfa i _ _ _
    · -- only one of the known statuses is left
      have hpending : response.status = "pending" := by
        simpa [knownStatus, hconnected, hmfa] using hknown
      rw [if_neg hmfa, if_pos hpending]
      exact h'.await i (show 0 < Page.pollMax by decide)

theorem PageInv.afterPoll (h : PageInv p) (i : Nat) {terminal : Response}
    (hterminal : terminal.status = "completed" ∨ terminal.status = "mfa_required") :
    PageInv (p.afterPoll i terminal) := by
  unfold Page.afterPoll
  by_cases hcompleted : terminal.status = "completed"
  · rw [if_pos hcompleted]
    exact h.finishSuccess i terminal
  · have hmfa : terminal.status = "mfa_required" := by
      rcases hterminal with hstatus | hstatus
      · exact absurd hstatus hcompleted
      · exact hstatus
    rw [if_neg hcompleted, if_pos hmfa]
    exact h.promptMfa i _ _ _

/-- The answer to an attempt ends the poll well, or leaves another attempt. -/
theorem PageInv.polled (h : PageInv p) (i : Nat) {jobId : Option String} {attempt : Nat}
    (hattempt : attempt < Page.pollMax) {status : Response}
    (hstatus : Expected status (.poll jobId attempt)) :
    PageInv (p.polled i jobId attempt status) := by
  rcases hstatus with ⟨herror, hlast⟩
  unfold Page.polled
  split
  · rename_i hterminal
    apply h.afterPoll i
    rcases hterminal with hcompleted | hfailed | hmfa
    · exact .inl hcompleted
    · exact absurd hfailed herror
    · exact .inr hmfa
  · rename_i hnot
    apply h.await i
    show attempt + 1 < Page.pollMax
    by_contra hge
    rcases hlast (by omega) with hcompleted | hmfa
    · exact hnot (.inl hcompleted)
    · exact hnot (.inr (.inr hmfa))

theorem PageInv.wake (h : PageInv p) (i : Nat) {jobId : Option String} {attempt : Nat}
    (hattempt : attempt + 1 < Page.pollMax) : PageInv (p.wake i jobId attempt) := by
  unfold Page.wake
  rw [if_pos hattempt]
  exact h.await i hattempt

theorem PageInv.mounted (h : PageInv p) (i : Nat) {status : Response}
    (hstatus : Expected status .mount) : PageInv (p.mounted i (.ok status)) := by
  simp only [Page.mounted]
  rw [if_neg (not_or.mpr hstatus)]
  exact (h.endCall i).setSiteRef _

/-- Every expected answer is handled without a failure. -/
theorem PageInv.handle (h : PageInv p) (i : Nat) {call : Call} {response : Response}
    (hsound : call.Sound) (hresponse : Expected response call) :
    PageInv (p.handle i call (.ok response)) := by
  cases call with
  | mount => exact h.mounted i hresponse
  | connect request => exact h.handleConnectResponse i hresponse
  | poll jobId attempt => exact h.polled i hsound hresponse
  | resolve payload => exact h.succeed i _
  | sleep jobId attempt => exact h
  | submitMfa sessionId code => exact hsound.elim

theorem PageInv.selectInstitution (h : PageInv p) (institution : Institution) :
    PageInv (p.selectInstitution institution) :=
  ((h.setSiteRef _).dispatch rfl).emit rfl

theorem PageInv.runConnect (h : PageInv p) (i : Nat) (username password : String)
    (hsite : (p.siteRef.filter (· ≠ "")).isSome = true) :
    PageInv (p.runConnect i username password) := by
  unfold Page.runConnect
  split
  · rename_i hnone
    rw [hnone] at hsite
    cases hsite
  · exact (h.dispatch rfl).await i trivial

theorem PageInv.remediate (h : PageInv p) (action : RemediationAction) :
    PageInv (p.remediate action) := by
  cases action with
  | retry | backToPicker => exact h.dispatch rfl
  | contactSupport | exit => exact h.emit rfl

theorem PageInv.telemetry (h : PageInv p) (name : TelemetryEventName) (elapsed : Nat) :
    PageInv (p.telemetry name elapsed) := by
  apply h.emit
  cases name <;> rfl

theorem PageInv.leave (h : PageInv p) (unmounts : Bool) : PageInv (p.leave unmounts) := by
  have hexit : PageInv (p.emit "EXIT" [("reason", .str "unmount")]) := h.emit rfl
  have hdisposed : PageInv { p.emit "EXIT" [("reason", .str "unmount")] with queue := [] } :=
    ⟨⟨hexit.safe.dispatched, hexit.safe.emitted, hexit.safe.step⟩, nofun, hexit.inFlight,
      hexit.calls⟩
  unfold Page.leave
  simp only []
  split
  · refine ⟨⟨hexit.safe.dispatched, hexit.safe.emitted, hexit.safe.step⟩, nofun, hexit.inFlight,
      ?_⟩
    intro i call hcall
    exact hexit.calls i call (Option.filter_eq_some_iff.mp hcall).1
  · exact hdisposed

theorem init_pageInv : PageInv .init := by
  have hempty : PageInv {} := ⟨⟨nofun, nofun, nofun⟩, nofun, nofun, nofun⟩
  exact (hempty.emit rfl).await 0 trivial

end

/-! ## The answers to a status request -/

theorem LinkStatus.text_injective {a b : LinkStatus} (h : a.text = b.text) : a = b := by
  cases a <;> cases b <;> first | rfl | simp [LinkStatus.text] at h

section

variable {s t : State} {response : Response}

theorem statusAnswer_ok (h : statusAnswer s = .ok response) :
    ∃ session, s.getLinkSession = some session ∧ response.status = session.status.text := by
  unfold statusAnswer at h
  cases hget : s.getLinkSession with
  | none => simp [hget] at h
  | some session =>
      simp only [hget] at h
      obtain rfl := Except.ok.inj h
      exact ⟨session, rfl, rfl⟩

theorem getLinkSession_eq_some {session : LinkSession} (h : s.getLinkSession = some session) :
    s.stored = true ∧ s.session.seen s.now = session := by
  unfold State.getLinkSession at h
  split at h
  · rename_i hstored
    exact ⟨hstored, Option.some.inj h⟩
  · cases h

/-- A server on its track answers no error. -/
theorem OnTrack.answer_ne_error (hs : OnTrack s) (h : statusAnswer s = .ok response) :
    response.status ≠ "error" := by
  rcases statusAnswer_ok h with ⟨session, hget, hstatus⟩
  rcases getLinkSession_eq_some hget with ⟨hstored, hseen⟩
  intro herror
  have hsession : session.status = .error :=
    LinkStatus.text_injective (hstatus.symm.trans herror)
  unfold LinkSession.seen at hseen
  split at hseen
  · rw [← hseen] at hsession
    cases hsession
  · rw [← hseen] at hsession
    exact hs.status hstored hsession

/-- The answer after a reconcile of a young session. -/
theorem answer_of_reconcileWrite {reconcile : Reconcile} {fresh : String} (hyoung : s.Young)
    (ht : reconcileWrite s reconcile fresh = some t) (h : statusAnswer t = .ok response) :
    response.status =
      (reconciledStatus (serializeAccessJobRuntime s reconcile.job).status).text := by
  have hwrote := reconcileWrite_wrote ht
  rcases statusAnswer_ok h with ⟨session, hget, hstatus⟩
  rcases getLinkSession_eq_some hget with ⟨hstored, hseen⟩
  have hyoung' : t.Young := by
    unfold State.Young at hyoung ⊢
    rwa [hwrote.now, hwrote.createdAt]
  rw [State.seen_of_young hyoung'] at hseen
  rw [hstatus, ← hseen, hwrote.young (hwrote.stored ▸ hstored) hyoung]

/-- A completed job is not overlaid. -/
theorem runtime_of_completed {job : Job} (h : job.status = .completed) :
    (serializeAccessJobRuntime s job).status = .completed :=
  (runtime_completed_iff s job).mpr h

end

/-! ## The step lemma -/

/-- The server is on its track, the page has not failed, and every answer that is
on its way is one that the page expects. -/
structure SystemInv (x : System) : Prop where
  server : OnTrack x.server
  page : PageInv x.page
  answers : ∀ i call response, x.page.calls i = some call →
    x.answers i = some (.ok response) → Expected response call

section

variable {x y : System}

theorem SystemInv.setServer (h : SystemInv x) {server : State} (hserver : OnTrack server) :
    SystemInv { x with server := server } :=
  ⟨hserver, h.page, h.answers⟩

/-- The page changes, but not its calls. -/
theorem SystemInv.setPage (h : SystemInv x) {page : Page} (hpage : PageInv page)
    (hcalls : ∀ i call, page.calls i = some call → x.page.calls i = some call) :
    SystemInv { x with page := page } :=
  ⟨h.server, hpage, fun i call response hcall => h.answers i call response (hcalls i call hcall)⟩

theorem SystemInv.setAnswer (h : SystemInv x) (i : Nat) {answer : Option Answer}
    (hanswer : ∀ call response, x.page.calls i = some call → answer = some (.ok response) →
      Expected response call) : SystemInv (x.setAnswer i answer) where
  server := h.server
  page := h.page
  answers k call response hcall hk := by
    change (if k = i then answer else x.answers k) = some (.ok response) at hk
    split at hk
    · rename_i heq
      exact hanswer call response (heq ▸ hcall) hk
    · exact h.answers k call response hcall hk

/-- A page function goes on at `i`, where no answer is left. -/
theorem SystemInv.resume (h : SystemInv x) (i : Nat) {page : Page} (hpage : PageInv page)
    (hcalls : ∀ k, k ≠ i → page.calls k = x.page.calls k)
    (hnone : ∀ response, x.answers i ≠ some (.ok response)) :
    SystemInv { x with page := page } where
  server := h.server
  page := hpage
  answers k call response hcall hk := by
    by_cases hne : k = i
    · exact absurd (hne ▸ hk) (hnone response)
    · exact h.answers k call response ((hcalls k hne) ▸ hcall) hk

/-! ### The server -/

/-- The rows of the environment are those of jobs that complete. -/
theorem SystemInv.env (h : SystemInv x) {l : Label} (hA : Assumed x (.env l) = true)
    (hout : l.fromOutside = true) {server : State} (hserver : step x.server l = some server) :
    SystemInv { x with server := server } := by
  apply h.setServer
  apply h.server.step _ hserver
  cases l with
  | writeJob id state => simpa [Assumed, Smooth] using hA
  | posted i body => cases hout
  | _ => trivial

/-- A status request that goes no further than the session. -/
theorem Expected.of_read {call : Call} {response : Response} (hs : OnTrack x.server)
    {i : Nat} {fresh : String} {userFound : Bool} (hcall : x.page.calls i = some call)
    (hC : Understood x (.receive i fresh userFound) = true) (hsound : call.Sound)
    (hasks : call.asksStatus = true)
    (hnone : reconcileRead x.server none x.server.jobs.get? = none)
    (hanswer : statusAnswer x.server = .ok response) : Expected response call := by
  rcases statusAnswer_ok hanswer with ⟨session, hget, hstatus⟩
  simp only [Understood, hcall] at hC
  cases call with
  | mount =>
      simp only [hget, Option.all_some, Bool.and_eq_true, bne_iff_ne] at hC
      constructor
      · intro heq
        exact hC.1 (LinkStatus.text_injective (hstatus.symm.trans heq))
      · intro heq
        exact hC.2 (LinkStatus.text_injective (hstatus.symm.trans heq))
  | poll jobId attempt =>
      refine ⟨hs.answer_ne_error hanswer, fun hlast => ?_⟩
      simp only [hnone, Option.any_none, Bool.or_false, decide_eq_true_eq] at hC
      omega
  | resolve payload => trivial
  | connect request => cases hasks
  | sleep jobId attempt => cases hasks
  | submitMfa sessionId code => cases hasks

theorem SystemInv.receive (h : SystemInv x) {i : Nat} {fresh : String} {userFound : Bool}
    {call : Call} (hcall : x.page.calls i = some call)
    (hC : Understood x (.receive i fresh userFound) = true)
    (hy : x.receive i fresh userFound call = some y) : SystemInv y := by
  have hsound := h.page.calls i call hcall
  have hstatus : call.asksStatus = true →
      (step x.server (.poll i)).map (fun server =>
        if (server.polls i).isSome then { x with server }
        else { x with server }.setAnswer i (some (statusAnswer x.server))) = some y →
      SystemInv y := by
    intro hasks hy
    rcases Option.map_eq_some_iff.mp hy with ⟨server, hserver, rfl⟩
    have hnext := h.setServer (h.server.step (l := .poll i) trivial hserver)
    split
    · exact hnext
    · rename_i hpoll
      refine hnext.setAnswer i fun call' response hcall' hanswer => ?_
      obtain rfl : call = call' := Option.some.inj (hcall.symm.trans hcall')
      have hread : reconcileRead x.server none x.server.jobs.get? = none := by
        simp only [HostedLink.step] at hserver
        split at hserver
        · cases hserver
        · obtain rfl := Option.some.inj hserver
          simpa [State.setPoll] using hpoll
      exact Expected.of_read h.server hcall hC hsound hasks hread (Option.some.inj hanswer)
  cases call with
  | mount => exact hstatus rfl hy
  | poll jobId attempt => exact hstatus rfl hy
  | resolve payload => exact hstatus rfl hy
  | connect request =>
      rcases Option.map_eq_some_iff.mp hy with ⟨server, hserver, rfl⟩
      exact h.setServer (h.server.step (l := .connect i request fresh userFound) trivial hserver)
  | sleep jobId attempt => cases hy
  | submitMfa sessionId code => exact hsound.elim

/-- A status request after its reconcile. -/
theorem Expected.of_reconcile {call : Call} {response : Response} {reconcile : Reconcile}
    {server : State} (hs : OnTrack server) {i : Nat} {fresh : String}
    (hcall : x.page.calls i = some call) (hpoll : x.server.polls i = some reconcile)
    (hA : Assumed x (.polled i fresh) = true) (hC : Understood x (.polled i fresh) = true)
    (hasks : call.asksStatus = true)
    (hserver : reconcileWrite (x.server.setPoll i none) reconcile fresh = some server)
    (hanswer : statusAnswer server = .ok response) : Expected response call := by
  simp only [Understood, hcall, hpoll] at hC
  simp only [Assumed, hcall, hpoll] at hA
  cases call with
  | mount =>
      simp only [Bool.and_eq_true, decide_eq_true_eq, bne_iff_ne] at hC
      have hyoung : (x.server.setPoll i none).Young := hC.1
      have hstatus := answer_of_reconcileWrite hyoung hserver hanswer
      have hne : (serializeAccessJobRuntime (x.server.setPoll i none) reconcile.job).status ≠
          .completed := mt (runtime_completed_iff _ _).mp hC.2
      constructor
      · intro heq
        have hexpired := LinkStatus.text_injective (b := .expired) (hstatus.symm.trans heq)
        cases hrun : (serializeAccessJobRuntime (x.server.setPoll i none) reconcile.job).status <;>
          simp [hrun, reconciledStatus] at hexpired
      · intro heq
        have hcompleted := LinkStatus.text_injective (b := .completed) (hstatus.symm.trans heq)
        cases hrun : (serializeAccessJobRuntime (x.server.setPoll i none) reconcile.job).status <;>
          simp [hrun, reconciledStatus] at hcompleted hne
  | poll jobId attempt =>
      refine ⟨hs.answer_ne_error hanswer, fun hlast => ?_⟩
      have hlt : ¬ attempt + 1 < Page.pollMax := by omega
      simp only [hlt, decide_false, Bool.false_or, Bool.and_eq_true, decide_eq_true_eq,
        beq_iff_eq] at hC
      -- the last attempt has read the job of the page, which has completed
      have hcompleted : reconcile.job.status = .completed := by
        simpa [hlt, hC.2] using hA
      have hyoung : (x.server.setPoll i none).Young := hC.1
      have hstatus := answer_of_reconcileWrite hyoung hserver hanswer
      rw [runtime_of_completed hcompleted] at hstatus
      exact .inl hstatus
  | resolve payload => trivial
  | connect request => cases hasks
  | sleep jobId attempt => cases hasks
  | submitMfa sessionId code => cases hasks

/-- `connect` answers with a status that the page knows. -/
theorem knownStatus_of_connectAnswer {i : Nat} {request : ConnectRequest}
    {hosted : Option (Option String)} {job : Job} {outcome : Outcome} {detail : Json}
    {response : Response} (hconnect : x.server.connects i = some (.waiting request hosted job))
    (hC : Understood x (.finish i outcome detail) = true)
    (hanswer : connectAnswer x.server job detail outcome = some (.ok response)) :
    knownStatus response.status = true := by
  cases outcome with
  | completed =>
      rcases Option.bind_eq_some_iff.mp hanswer with ⟨row, hrow, heq⟩
      simp only [Understood, hconnect, hrow, Option.all_some] at hC
      split at heq
      · split at heq
        · rename_i found hfound
          obtain rfl : found = response := Except.ok.inj (Option.some.inj heq)
          unfold connectedResponse at hfound
          simp only [] at hfound
          split at hfound
          · rename_i status _ _ _ _ hstatus _ _ _ _
            obtain rfl := Option.some.inj hfound
            simpa [hstatus] using hC
          · cases hfound
        · cases Option.some.inj heq
      · cases heq
  | mfaSession =>
      rcases Option.bind_eq_some_iff.mp hanswer with ⟨session, -, heq⟩
      obtain rfl := Except.ok.inj (Option.some.inj heq)
      rfl
  | pending =>
      obtain rfl := Except.ok.inj (Option.some.inj hanswer)
      rfl
  | mfaRequired site mfaType sessionId tracked =>
      obtain rfl := Except.ok.inj (Option.some.inj hanswer)
      rfl
  | raised => cases Option.some.inj hanswer

theorem SystemInv.finish (h : SystemInv x) {i : Nat} {outcome : Outcome} {detail : Json}
    (hC : Understood x (.finish i outcome detail) = true)
    (hy : x.step (.finish i outcome detail) = some y) : SystemInv y := by
  simp only [System.step] at hy
  split at hy
  · rename_i request hosted job hconnect
    rcases Option.bind_eq_some_iff.mp hy with ⟨answer, hanswer, hy⟩
    rcases Option.bind_eq_some_iff.mp hy with ⟨server, hserver, heq⟩
    obtain rfl := Option.some.inj heq
    have hnext := h.setServer (h.server.step (l := .finish i outcome) trivial hserver)
    unfold System.answerConnect
    split
    · rename_i request' hcall
      refine hnext.setAnswer i fun call response hcall' hresponse => ?_
      obtain rfl : .connect request' = call := Option.some.inj (hcall.symm.trans hcall')
      rw [Option.some.inj hresponse] at hanswer
      exact knownStatus_of_connectAnswer hconnect hC hanswer
    · exact hnext
  · cases hy

theorem SystemInv.polled (h : SystemInv x) {i : Nat} {fresh : String}
    (hA : Assumed x (.polled i fresh) = true) (hC : Understood x (.polled i fresh) = true)
    (hy : x.step (.polled i fresh) = some y) : SystemInv y := by
  rcases Option.map_eq_some_iff.mp hy with ⟨server, hserver, rfl⟩
  have htrack := h.server.step (l := .polled i fresh) trivial hserver
  have hnext := h.setServer htrack
  simp only [HostedLink.step] at hserver
  split at hserver
  · cases hserver
  · rename_i reconcile hpoll
    unfold System.answerStatus
    split
    · rename_i hasks
      refine hnext.setAnswer i fun call response hcall hanswer => ?_
      have hcall' : x.page.calls i = some call := hcall
      have hasks' : call.asksStatus = true := by simpa [hcall'] using hasks
      exact Expected.of_reconcile htrack hcall' hpoll hA hC hasks'
         hserver (Option.some.inj hanswer)
    · exact hnext

/-! ### The page -/

/-- The page connects at a number where no answer is left. -/
theorem SystemInv.submitCredentials (h : SystemInv x) {i : Nat} {username password : String}
    (hC : Understood x (.submitCredentials i username password) = true)
    (hy : x.step (.submitCredentials i username password) = some y) : SystemInv y := by
  simp only [System.step] at hy
  split at hy
  · rename_i hidle
    obtain rfl := Option.some.inj hy
    have hnone : x.answers i = none := by
      have hall := hidle.2
      simp only [System.idle, Bool.and_eq_true, Option.isNone_iff_eq_none] at hall
      exact hall.1.1.2
    apply h.resume i (h.page.runConnect i username password hC)
    · intro k hne
      exact Page.runConnect_calls _ _ _ hne
    · intro response hanswer
      rw [hnone] at hanswer
      cases hanswer
  · cases hy

/-- The page goes on with an answer that it expects, and the answer is taken. -/
theorem SystemInv.handle (h : SystemInv x) {i : Nat} (hA : Assumed x (.handle i) = true)
    (hy : x.step (.handle i) = some y) : SystemInv y := by
  simp only [System.step] at hy
  split at hy
  · rename_i call answer hcall hanswer _
    obtain rfl := Option.some.inj hy
    simp only [Assumed, hanswer, Option.all_some] at hA
    cases answer with
    | error message => cases hA
    | ok response =>
        have hexpected := h.answers i call response hcall hanswer
        have hpage := h.page.handle i (h.page.calls i call hcall) hexpected
        have htaken : SystemInv (x.setAnswer i none) := h.setAnswer i fun _ _ _ hk => by cases hk
        apply htaken.resume i hpage
        · intro k hne
          exact Page.handle_calls _ _ _ hne
        · intro response hk
          change (if i = i then none else x.answers i) = _ at hk
          rw [if_pos rfl] at hk
          cases hk
  · cases hy

/-- After a pause the next attempt of the poll is one that is counted. -/
theorem SystemInv.wake (h : SystemInv x) {i : Nat} (hy : x.step (.wake i) = some y) :
    SystemInv y := by
  simp only [System.step] at hy
  split at hy
  · rename_i jobId attempt hcall
    obtain rfl := Option.some.inj hy
    have hattempt : attempt + 1 < Page.pollMax := h.page.calls i _ hcall
    apply h.resume i (h.page.wake i hattempt)
    · intro k hne
      exact Page.wake_calls _ _ _ hne
    · intro response hk
      exact h.answers i _ response hcall hk
  · cases hy

/-- The event in flight arrives, or its post fails at once. -/
theorem SystemInv.deliver (h : SystemInv x) {i : Nat} (hy : x.step (.deliver i) = some y) :
    SystemInv y := by
  simp only [System.step] at hy
  split at hy
  · rcases Option.map_eq_some_iff.mp hy with ⟨server, hserver, rfl⟩
    have hnext := h.setServer (h.server.step (l := .post i) trivial hserver)
    split
    · exact ⟨hnext.server, hnext.page, hnext.answers⟩
    · exact hnext.setPage h.page.deliveryFailed fun _ _ hcall => hcall
  · cases hy

/-- The event whose post is over is not an error, so that neither is the session. -/
theorem SystemInv.delivered (h : SystemInv x) {heard : Bool}
    (hA : Assumed x (.delivered heard) = true) (hy : x.step (.delivered heard) = some y) :
    SystemInv y := by
  simp only [System.step] at hy
  split at hy
  · rename_i e i hflight _
    rcases Option.map_eq_some_iff.mp hy with ⟨server, hserver, rfl⟩
    have hbody : eventName e.body ≠ .str "ERROR" := by
      intro hname
      have herror := h.page.inFlight e hflight
      simp [QueuedEvent.isError, hname] at herror
    have hnext := h.setServer (h.server.step (l := .posted i e.body) hbody hserver)
    cases heard with
    | true =>
        have hpage := hnext.setPage h.page.delivered fun i call hcall => by
          rwa [Page.delivered_calls] at hcall
        exact ⟨hpage.server, hpage.page, hpage.answers⟩
    | false => cases hA
  · cases hy

/-! ### Every step -/

theorem SystemInv.step (h : SystemInv x) {act : Act} (hA : Assumed x act = true)
    (hC : Understood x act = true) (hy : x.step act = some y) : SystemInv y := by
  cases act with
  | env l =>
      simp only [System.step] at hy
      split at hy
      · rename_i hout
        rcases Option.map_eq_some_iff.mp hy with ⟨server, hserver, rfl⟩
        -- the environment acts on the server only
        exact h.env hA hout hserver
      · cases hy
  | select institution =>
      simp only [System.step] at hy
      split at hy
      · obtain rfl := Option.some.inj hy
        -- choosing an institution makes no call
        refine h.setPage (h.page.selectInstitution institution) fun i call hcall => ?_
        rwa [Page.selectInstitution_calls] at hcall
      · cases hy
  | submitCredentials i username password => exact h.submitCredentials hC hy
  | submitMfa i code => cases hC
  | remediate action =>
      simp only [System.step] at hy
      split at hy
      · obtain rfl := Option.some.inj hy
        -- neither does a remediation
        refine h.setPage (h.page.remediate action) fun i call hcall => ?_
        rwa [Page.remediate_calls] at hcall
      · cases hy
  | telemetry name elapsed =>
      obtain rfl := Option.some.inj hy
      refine h.setPage (h.page.telemetry name elapsed) fun i call hcall => ?_
      rwa [Page.telemetry, Page.emit_calls] at hcall
  | leave unmounts =>
      obtain rfl := Option.some.inj hy
      exact h.setPage (h.page.leave unmounts) fun i call hcall => Page.leave_calls _ _ hcall
  | receive i fresh userFound =>
      simp only [System.step] at hy
      split at hy
      · -- the server receives a call that the page has made
        rename_i call hcall _
        exact h.receive hcall hC hy
      · cases hy
  | start i id sessionId lockScope =>
      rcases Option.map_eq_some_iff.mp hy with ⟨server, hserver, rfl⟩
      exact h.setServer (h.server.step (l := .start i id sessionId lockScope) trivial hserver)
  | finish i outcome detail => exact h.finish hC hy
  | reconciled i fresh =>
      rcases Option.map_eq_some_iff.mp hy with ⟨server, hserver, rfl⟩
      exact h.setServer (h.server.step (l := .reconciled i fresh) trivial hserver)
  | polled i fresh => exact h.polled hA hC hy
  | reject i message => cases hA
  | handle i => exact h.handle hA hy
  | wake i => exact h.wake hy
  | deliver i => exact h.deliver hy
  | delivered heard => exact h.delivered hA hy
  | retry =>
      obtain rfl := Option.some.inj hy
      refine h.setPage h.page.drain fun i call hcall => ?_
      rwa [Page.drain_calls] at hcall
  | giveUp =>
      obtain rfl := Option.some.inj hy
      refine h.setPage h.page.giveUp fun i call hcall => ?_
      rwa [Page.giveUp_calls] at hcall

end

/-! ## Every run -/

theorem init_onTrack (backend : Links.Backend) (linkToken : String) (now : Nat)
    (site : Option String) (userId : Option Nat) :
    OnTrack (init backend linkToken now site userId) where
  jobs _ h := by cases h
  polls _ _ h := by cases h
  connects _ _ h := by cases h
  status _ h := by cases h

theorem init_systemInv (backend : Links.Backend) (linkToken : String) (now : Nat)
    (site : Option String) (userId : Option Nat) :
    SystemInv (.init backend linkToken now site userId) where
  server := init_onTrack backend linkToken now site userId
  page := init_pageInv
  answers _ _ _ _ h := by cases h

/-- **The page follows the server.** In a run where requests succeed, jobs
complete in time and every answer is one that the page understands, the page
never fails. -/
theorem neverFails_of_understood {backend : Links.Backend} {linkToken : String} {now : Nat}
    {site : Option String} {userId : Option Nat} {run : List Act} {u : System}
    (h : Runs.exec System.step (.init backend linkToken now site userId) run = some u)
    (hA : Runs.Along System.step (fun x act => Assumed x act = true)
      (.init backend linkToken now site userId) run)
    (hC : Runs.Along System.step (fun x act => Understood x act = true)
      (.init backend linkToken now site userId) run) :
    NeverFails u.page := by
  have hboth : Runs.Along System.step
      (fun x act => Assumed x act = true ∧ Understood x act = true)
      (.init backend linkToken now site userId) run :=
    Runs.along_and hA hC
  have hinv : SystemInv u := by
    apply Runs.invariant_along _ _ hboth h
    · intro x act y hx hact hy
      exact hx.step hact.1 hact.2 hy
    · exact init_systemInv backend linkToken now site userId
  exact hinv.page.safe

/-! ### Two runs -/

/-- The page opens, an institution is chosen, and its job runs. -/
def credentialsSubmitted : List Act :=
  [.deliver 0, .delivered true, .receive 0 "" true, .handle 0,
    .select { organizationId := "bank-1", name := "Bank", site := "bank" },
    .submitCredentials 1 "user" "password",
    .receive 1 "access" true, .start 1 "job" "mfa" "scope",
    .env (.writeJob "job" (AccessJobs.runningState 1000))]

/-- The job completes while the page polls. -/
def completedWhilePolling : List Act :=
  credentialsSubmitted ++
    [.finish 1 .pending .null, .handle 1,
      .receive 1 "" true, .polled 1 "public", .handle 1, .wake 1,
      .env (.writeJob "job"
        (AccessJobs.completedState 2000 none [("status", .str "connected")])),
      .receive 1 "" true, .polled 1 "public", .handle 1]

/-- The job asks for a code, gets it, and completes. -/
def completedAfterCode : List Act :=
  credentialsSubmitted ++
    [.env (.createMfa "mfa"
        { site := "bank", mfaType := "otp_input", metadata := [], ttl := 300,
          ttl_pos := Mfa.defaultMfaTtl_pos }),
      .finish 1 .mfaSession .null, .handle 1,
      .submitMfa 2 "123456", .receive 2 "" true,
      .env (.writeJob "job"
        (AccessJobs.completedState 2000 none [("status", .str "connected")])),
      .env (.removeMfa "mfa"), .handle 2]

theorem completedWhilePolling_neverFails :
    ∃ u, Runs.exec System.step (.init .redis "link" 0 none (some 1)) completedWhilePolling =
        some u ∧ u.page.flow.step = .success ∧ NeverFails u.page := by
  have hsuccess : (Runs.exec System.step (.init .redis "link" 0 none (some 1))
      completedWhilePolling).map (fun u => u.page.flow.step) = some .success := by decide +kernel
  rcases Option.map_eq_some_iff.mp hsuccess with ⟨u, hu, hstep⟩
  exact ⟨u, hu, hstep, neverFails_of_understood hu (by decide +kernel) (by decide +kernel)⟩

/-- The page takes the answer to its code for a failure. -/
theorem completedAfterCode_fails :
    ¬ ∀ (backend : Links.Backend) (linkToken : String) (now : Nat) (site : Option String)
        (userId : Option Nat) (run : List Act) (u : System),
      Runs.exec System.step (.init backend linkToken now site userId) run = some u →
        Runs.Along System.step (fun x act => Assumed x act = true)
          (.init backend linkToken now site userId) run → NeverFails u.page := by
  intro hall
  have herror : (Runs.exec System.step (.init .redis "link" 0 none (some 1))
      completedAfterCode).map (fun u => u.page.flow.step) = some .error := by decide +kernel
  rcases Option.map_eq_some_iff.mp herror with ⟨u, hu, hstep⟩
  exact (hall .redis "link" 0 none (some 1) completedAfterCode u hu (by decide +kernel)).step hstep

end Plaidify.HostedLink
