import Plaidify.HostedLink.Sessions

/-!
# The page of the hosted link

The React client of `src/frontend-next/src`: the reducer of `state.ts`, the flow
of `App.tsx` with `pollLinkSession` of `api.ts`, and the queue of `events.ts`.

`runConnect` and `onSubmitMfa` are asynchronous functions; each run of one has a
number and is cut where it waits for an answer. A form is submitted with values
that its schema accepts. The code that `classifyError` gives an error is left
out, as are the texts that depend on the language.
-/

namespace Plaidify.HostedLink

open AccessJobs (Dict)

/-! ## JSON values in JavaScript -/

/-- The truth value of a JSON value in JavaScript. -/
def jsTruthy : Json → Bool
  | .null => false
  | .bool b => b
  | .int n => n ≠ 0
  | .float repr => repr ≠ "0.0" && repr ≠ "-0.0"
  | .str s => s ≠ ""
  | .arr _ => true
  | .obj _ => true

/-- `a || b`. -/
def jsOr (a b : Json) : Json :=
  if jsTruthy a then a else b

/-- `a ?? b`. -/
def jsDefault : Json → Json → Json
  | .null, b => b
  | a, _ => a

/-! ## The reducer -/

/-- `FlowStep`. -/
inductive FlowStep where
  | select
  | credentials
  | connecting
  | mfa
  | success
  | error
deriving Repr, DecidableEq

/-- What is shown and sent of an `Organization`. -/
structure Institution where
  organizationId : String
  name : String
  site : String

structure SuccessPayload where
  accessToken : String

structure ErrorPayload where
  message : Json

/-- `FlowState`. -/
structure FlowState where
  step : FlowStep := .select
  institution : Option Institution := none
  mfaPrompt : Option Json := none
  success : Option SuccessPayload := none
  error : Option ErrorPayload := none

/-- `FlowEvent`. -/
inductive FlowEvent where
  | reset
  | selectInstitution (institution : Institution)
  | backToPicker
  | submitCredentials
  | mfaRequired (prompt : Json)
  | submitMfa
  | succeed (payload : SuccessPayload)
  | fail (payload : ErrorPayload)

/-- `FAIL`. -/
def FlowEvent.isFail : FlowEvent → Bool
  | .fail _ => true
  | _ => false

/-- `flowReducer`. -/
def flowReducer (state : FlowState) : FlowEvent → FlowState
  | .reset => {}
  | .selectInstitution institution => { step := .credentials, institution := some institution }
  | .backToPicker => {}
  | .submitCredentials =>
      if state.step ≠ .credentials ∧ state.step ≠ .error then state
      else { state with step := .connecting, error := none }
  | .mfaRequired prompt => { state with step := .mfa, mfaPrompt := some prompt, error := none }
  | .submitMfa =>
      if state.step ≠ .mfa then state else { state with step := .connecting, error := none }
  | .succeed payload => { state with step := .success, success := some payload, error := none }
  | .fail payload => { state with step := .error, error := some payload }

/-- Only `FAIL` leads to the error step. -/
theorem flowReducer_step_ne_error {state : FlowState} {event : FlowEvent}
    (hstep : state.step ≠ .error) (hevent : event.isFail = false) :
    (flowReducer state event).step ≠ .error := by
  cases event with
  | fail payload => cases hevent
  | submitCredentials | submitMfa =>
      simp only [flowReducer]
      split
      · exact hstep
      · exact nofun
  | _ => exact nofun

/-! ## Answers -/

/-- `ConnectResponse` and `LinkSessionStatus`; null where a key is missing. -/
structure Response where
  status : String
  jobId : Option String := none
  sessionId : Option String := none
  site : Option String := none
  publicToken : Option String := none
  mfaType : Json := .null
  message : Json := .null
  errorMessage : Json := .null
  error : Json := .null
  detail : Json := .null
  metadata : Option Dict := none

/-- An answer, or the message of the error that the request throws. -/
abbrev Answer := Except Json Response

/-- `public_token`, where it is truthy. -/
def Response.token (response : Response) : Option String :=
  response.publicToken.filter (· ≠ "")

/-- What an asynchronous function waits for. -/
inductive Call where
  /-- `getStatus` of the opening page. -/
  | mount
  /-- `connect`, with the public key and the encryption before it. -/
  | connect (request : ConnectRequest)
  /-- `getStatus` of `pollLinkSession`, after a `"pending"` for this job. -/
  | poll (jobId : Option String) (attempt : Nat)
  /-- The pause after an attempt. -/
  | sleep (jobId : Option String) (attempt : Nat)
  /-- `getStatus` of `finishSuccess`. -/
  | resolve (payload : Response)
  | submitMfa (sessionId code : String)

/-- The call asks for the status of the link session. -/
def Call.asksStatus : Call → Bool
  | .mount | .poll .. | .resolve _ => true
  | _ => false

/-! ## The queue of events -/

/-- `QueuedEvent`. -/
structure QueuedEvent where
  event : String
  payload : Dict

/-- The body of its request. A key of the payload wins over the name. -/
def QueuedEvent.body (e : QueuedEvent) : Dict :=
  e.payload.foldl Json.dictInsert [("event", .str e.event)]

/-- The server gets an `ERROR` event. -/
def QueuedEvent.isError (e : QueuedEvent) : Bool :=
  match eventName e.body with
  | .str name => name == "ERROR"
  | _ => false

/-- `TelemetryEventName`. -/
inductive TelemetryEventName where
  | stepView
  | stepComplete
  | fieldError
  | institutionSelected
  | mfaShown
  | mfaSubmitted
  | exitReason

def TelemetryEventName.text : TelemetryEventName → String
  | .stepView => "step_view"
  | .stepComplete => "step_complete"
  | .fieldError => "field_error"
  | .institutionSelected => "institution_selected"
  | .mfaShown => "mfa_shown"
  | .mfaSubmitted => "mfa_submitted"
  | .exitReason => "exit_reason"

/-- `RemediationAction`. -/
inductive RemediationAction where
  | retry
  | backToPicker
  | exit
  | contactSupport

/-- The page. -/
structure Page where
  flow : FlowState := {}
  siteRef : Option String := none
  sessionIdRef : Option String := none
  calls : Nat → Option Call := fun _ => none
  queue : List QueuedEvent := []
  /-- The event that is being posted. -/
  inFlight : Option QueuedEvent := none
  /-- History variable: what was dispatched. -/
  dispatched : List FlowEvent := []
  /-- History variable: what was enqueued. -/
  emitted : List QueuedEvent := []

namespace Page

def dispatch (p : Page) (event : FlowEvent) : Page :=
  { p with flow := flowReducer p.flow event, dispatched := p.dispatched ++ [event] }

/-- `drain`, up to the answer of its request. -/
def drain (p : Page) : Page :=
  match p.inFlight with
  | some _ => p
  | none => { p with inFlight := p.queue.head? }

/-- `emit`, as far as the server hears of it. -/
def emit (p : Page) (event : String) (payload : Dict) : Page :=
  let e : QueuedEvent := ⟨event, payload⟩
  drain { p with queue := p.queue ++ [e], emitted := p.emitted ++ [e] }

/-- The event was delivered. -/
def delivered (p : Page) : Page :=
  drain { p with queue := p.queue.tail, inFlight := none }

/-- It was not, and is tried again later. -/
def deliveryFailed (p : Page) : Page :=
  { p with inFlight := none }

/-- `maxAttempts` deliveries have failed. -/
def giveUp (p : Page) : Page :=
  match p.inFlight with
  | some _ => p
  | none => drain { p with queue := p.queue.tail }

def setCall (p : Page) (i : Nat) (call : Option Call) : Page :=
  { p with calls := fun k => if k = i then call else p.calls k }

/-! ## The flow -/

/-- `failWith`. -/
def failWith (p : Page) (message : Json) : Page :=
  let message := jsOr message (.str "Something went wrong.")
  (p.dispatch (.fail { message })).emit "ERROR"
    [("error", message), ("site", optStr p.siteRef)]

/-- The end of `finishSuccess`. -/
def succeed (p : Page) (i : Nat) (resolved : Response) : Page :=
  let publicToken := resolved.publicToken.getD ""
  ((p.setCall i none).dispatch (.succeed { accessToken := publicToken })).emit "CONNECTED"
    [("job_id", optStr resolved.jobId), ("public_token", .str publicToken),
      ("site", optStr p.siteRef)]

/-- `finishSuccess`. -/
def finishSuccess (p : Page) (i : Nat) (payload : Response) : Page :=
  if payload.token.isNone then p.setCall i (some (.resolve payload)) else p.succeed i payload

/-- `resolved`. A request that fails leaves the payload. -/
def resolved (payload : Response) : Answer → Response
  | .ok status => if status.status = "completed" ∧ status.token.isSome then status else payload
  | .error _ => payload

/-- The prompt for a code. -/
def promptMfa (p : Page) (i : Nat) (prompt mfaType : Json) (sessionId : Option String) : Page :=
  ((p.setCall i none).dispatch (.mfaRequired prompt)).emit "MFA_REQUIRED"
    [("mfa_type", jsDefault mfaType (.str "otp")), ("session_id", optStr sessionId)]

def defaultPrompt : Json :=
  .str "Enter the verification code from your provider to continue."

/-- What follows `await pollFn({ api })`. -/
def afterPoll (p : Page) (i : Nat) (terminal : Response) : Page :=
  if terminal.status = "completed" then p.finishSuccess i terminal
  else if terminal.status = "mfa_required" then
    p.promptMfa i (jsOr terminal.message defaultPrompt) terminal.mfaType terminal.sessionId
  else
    (p.setCall i none).failWith (jsOr (jsOr terminal.errorMessage terminal.message) (.str
      (if terminal.status = "timeout" then
        "The connection timed out before the provider completed the flow."
      else "The connection could not be completed.")))

/-- `handleConnectResponse`. -/
def handleConnectResponse (p : Page) (i : Nat) (response : Response) : Page :=
  let p := { p with sessionIdRef := (response.sessionId.filter (· ≠ "")) <|> p.sessionIdRef }
  if response.status = "connected" then p.finishSuccess i response
  else if response.status = "mfa_required" then
    p.promptMfa i
      (jsDefault ((response.metadata.bind (·.lookup "message")).getD .null) defaultPrompt)
      response.mfaType response.sessionId
  else if response.status = "pending" then p.setCall i (some (.poll response.jobId 0))
  else
    (p.setCall i none).failWith (jsOr (jsOr response.error response.detail)
      (.str ("Unexpected status: " ++ response.status)))

/-- `DEFAULT_POLL_MAX`. -/
def pollMax : Nat := 90

/-- The answer to an attempt. -/
def polled (p : Page) (i : Nat) (jobId : Option String) (attempt : Nat) (status : Response) :
    Page :=
  if status.status = "completed" ∨ status.status = "error" ∨ status.status = "mfa_required" then
    p.afterPoll i status
  else p.setCall i (some (.sleep jobId attempt))

/-- The next attempt, if there is one. -/
def wake (p : Page) (i : Nat) (jobId : Option String) (attempt : Nat) : Page :=
  if attempt + 1 < pollMax then p.setCall i (some (.poll jobId (attempt + 1)))
  else p.afterPoll i { status := "timeout" }

/-- The answer to the opening page. -/
def mounted (p : Page) (i : Nat) : Answer → Page
  | .ok status =>
      if status.status = "expired" ∨ status.status = "completed" then
        (p.setCall i none).dispatch (.fail { message := .str ("This link has " ++ status.status ++
          ". Request a fresh link to continue.") })
      else { p.setCall i none with siteRef := (status.site.filter (· ≠ "")) <|> p.siteRef }
  | .error message =>
      (p.setCall i none).dispatch
        (.fail { message := jsOr message (.str "This link is invalid or has expired.") })

/-- The function goes on with its answer. -/
def handle (p : Page) (i : Nat) : Call → Answer → Page
  | .mount, answer => p.mounted i answer
  | .resolve payload, answer => p.succeed i (resolved payload answer)
  | .sleep .., _ => p
  | .poll jobId attempt, .ok status => p.polled i jobId attempt status
  | .connect _, .ok response | .submitMfa .., .ok response => p.handleConnectResponse i response
  -- the `catch` clauses
  | .poll .., .error message | .connect _, .error message | .submitMfa .., .error message =>
      (p.setCall i none).failWith message

/-! ## The user -/

/-- `onSelectInstitution`. -/
def selectInstitution (p : Page) (institution : Institution) : Page :=
  ({ p with siteRef := some institution.site }.dispatch (.selectInstitution institution)).emit
    "INSTITUTION_SELECTED"
    [("organization_id", .str institution.organizationId),
      ("organization_name", .str institution.name), ("site", .str institution.site)]

/-- `runConnect` up to its request. -/
def runConnect (p : Page) (i : Nat) (username password : String) : Page :=
  match p.siteRef.filter (· ≠ "") with
  | none => p.failWith (.str "Choose a provider before continuing.")
  | some site =>
      (p.dispatch .submitCredentials).setCall i (some (.connect { site, username, password }))

/-- `onSubmitMfa` up to its request. -/
def submitMfa (p : Page) (i : Nat) (sessionId code : String) : Page :=
  ((p.dispatch .submitMfa).emit "MFA_SUBMITTED" [("session_id", .str sessionId)]).setCall i
    (some (.submitMfa sessionId code))

/-- `handleAction` of the error step. -/
def remediate (p : Page) : RemediationAction → Page
  | .retry | .backToPicker => p.dispatch .backToPicker
  | .contactSupport => p.emit "SUPPORT_REQUESTED" []
  | .exit => p.emit "EXIT" [("reason", .str "user_exit")]

def telemetry (p : Page) (name : TelemetryEventName) (elapsed : Nat) : Page :=
  p.emit "TELEMETRY" [("event", .str name.text), ("elapsed_ms", .int elapsed)]

/-- The page unmounts, or the code of its error changes. The queue is disposed
of, but not the request that is under way. -/
def leave (p : Page) (unmounts : Bool) : Page :=
  let p := { p.emit "EXIT" [("reason", .str "unmount")] with queue := [] }
  if unmounts then
    { p with calls := fun k => (p.calls k).filter fun | .mount => false | _ => true }
  else p

/-- The page that opens. Its call is number 0. -/
def init : Page :=
  (emit {} "OPEN" []).setCall 0 (some .mount)

/-! ## The calls -/

@[simp] theorem dispatch_calls (p : Page) (event : FlowEvent) :
    (p.dispatch event).calls = p.calls := rfl

@[simp] theorem drain_calls (p : Page) : p.drain.calls = p.calls := by
  unfold drain
  split
  · rfl
  · rfl

@[simp] theorem emit_calls (p : Page) (event : String) (payload : Dict) :
    (p.emit event payload).calls = p.calls :=
  drain_calls _

@[simp] theorem failWith_calls (p : Page) (message : Json) :
    (p.failWith message).calls = p.calls :=
  emit_calls _ _ _

@[simp] theorem delivered_calls (p : Page) : p.delivered.calls = p.calls :=
  drain_calls _

@[simp] theorem giveUp_calls (p : Page) : p.giveUp.calls = p.calls := by
  unfold giveUp
  split
  · rfl
  · exact drain_calls _

@[simp] theorem selectInstitution_calls (p : Page) (institution : Institution) :
    (p.selectInstitution institution).calls = p.calls :=
  emit_calls _ _ _

@[simp] theorem remediate_calls (p : Page) (action : RemediationAction) :
    (p.remediate action).calls = p.calls := by
  cases action with
  | retry | backToPicker => rfl
  | contactSupport | exit => exact emit_calls _ _ _

theorem leave_calls (p : Page) (unmounts : Bool) {i : Nat} {call : Call}
    (h : (p.leave unmounts).calls i = some call) : p.calls i = some call := by
  unfold leave at h
  simp only [] at h
  split at h
  · have hcall := (Option.filter_eq_some_iff.mp h).1
    rwa [emit_calls] at hcall
  · rwa [emit_calls] at h

section

variable {i k : Nat}

theorem setCall_calls_of_ne (p : Page) (call : Option Call) (hne : k ≠ i) :
    (p.setCall i call).calls k = p.calls k :=
  if_neg hne

theorem succeed_calls (p : Page) (resolved : Response) (hne : k ≠ i) :
    (p.succeed i resolved).calls k = p.calls k := by
  unfold succeed
  rw [emit_calls, dispatch_calls, setCall_calls_of_ne p none hne]

theorem finishSuccess_calls (p : Page) (payload : Response) (hne : k ≠ i) :
    (p.finishSuccess i payload).calls k = p.calls k := by
  unfold finishSuccess
  split
  · exact setCall_calls_of_ne p _ hne
  · exact succeed_calls p payload hne

theorem promptMfa_calls (p : Page) (prompt mfaType : Json) (sessionId : Option String)
    (hne : k ≠ i) : (p.promptMfa i prompt mfaType sessionId).calls k = p.calls k := by
  unfold promptMfa
  rw [emit_calls, dispatch_calls, setCall_calls_of_ne p none hne]

theorem afterPoll_calls (p : Page) (terminal : Response) (hne : k ≠ i) :
    (p.afterPoll i terminal).calls k = p.calls k := by
  unfold afterPoll
  split
  · exact finishSuccess_calls p terminal hne
  · split
    · exact promptMfa_calls p _ _ _ hne
    · rw [failWith_calls, setCall_calls_of_ne p none hne]

theorem handleConnectResponse_calls (p : Page) (response : Response) (hne : k ≠ i) :
    (p.handleConnectResponse i response).calls k = p.calls k := by
  unfold handleConnectResponse
  simp only []
  split
  · exact finishSuccess_calls _ response hne
  · split
    · exact promptMfa_calls _ _ _ _ hne
    · split
      · exact setCall_calls_of_ne _ _ hne
      · rw [failWith_calls, setCall_calls_of_ne _ none hne]

theorem mounted_calls (p : Page) (answer : Answer) (hne : k ≠ i) :
    (p.mounted i answer).calls k = p.calls k := by
  cases answer with
  | ok status =>
      simp only [mounted]
      split
      · exact setCall_calls_of_ne p none hne
      · exact setCall_calls_of_ne p none hne
  | error message => exact setCall_calls_of_ne p none hne

theorem polled_calls (p : Page) (jobId : Option String) (attempt : Nat) (status : Response)
    (hne : k ≠ i) : (p.polled i jobId attempt status).calls k = p.calls k := by
  unfold polled
  split
  · exact afterPoll_calls p status hne
  · exact setCall_calls_of_ne p _ hne

theorem wake_calls (p : Page) (jobId : Option String) (attempt : Nat) (hne : k ≠ i) :
    (p.wake i jobId attempt).calls k = p.calls k := by
  unfold wake
  split
  · exact setCall_calls_of_ne p _ hne
  · exact afterPoll_calls p _ hne

theorem runConnect_calls (p : Page) (username password : String) (hne : k ≠ i) :
    (p.runConnect i username password).calls k = p.calls k := by
  unfold runConnect
  split
  · rw [failWith_calls]
  · exact setCall_calls_of_ne _ _ hne

/-- A function that goes on changes its own call only. -/
theorem handle_calls (p : Page) (call : Call) (answer : Answer) (hne : k ≠ i) :
    (p.handle i call answer).calls k = p.calls k := by
  cases call with
  | mount => exact mounted_calls p answer hne
  | resolve payload => exact succeed_calls p _ hne
  | sleep jobId attempt => rfl
  | poll jobId attempt =>
      cases answer with
      | ok status => exact polled_calls p jobId attempt status hne
      | error message => exact (failWith_calls ..).symm ▸ setCall_calls_of_ne p none hne
  | connect request =>
      cases answer with
      | ok response => exact handleConnectResponse_calls p response hne
      | error message => exact (failWith_calls ..).symm ▸ setCall_calls_of_ne p none hne
  | submitMfa sessionId code =>
      cases answer with
      | ok response => exact handleConnectResponse_calls p response hne
      | error message => exact (failWith_calls ..).symm ▸ setCall_calls_of_ne p none hne

end

end Page

end Plaidify.HostedLink
