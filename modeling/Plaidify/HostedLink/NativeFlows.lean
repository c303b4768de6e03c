import Plaidify.HostedLink.Page
import Plaidify.Lib.Traces

/-!
# The native flows

`PlaidifyLinkConnectFlow` of the Swift and the Android SDK, beside the React flow:
the reducer, driven by `handleConnectResponse` with the requests it waits for.

Both native flows are the same machine (`kotlin_eq_swift`). It knows other
statuses than the page and checks no step, so it keeps to the React flow as long
as a step has nothing to check and a status is one that both know:
`native_follows_react_iff`.
-/

namespace Plaidify.HostedLink

open AccessJobs (Dict)

/-! ## What both sides are given -/

/-- `PlaidifyOrganization`, as far as the flows read it. -/
structure Organization where
  organizationId : String
  name : String
  site : String
  authStyle : Option String := none
deriving DecidableEq

/-- The response of `/connect` or `/mfa/submit`, or a status that polling ends
with. The native clients decode the first seven keys. -/
structure ConnectResponse where
  status : String
  sessionId : Option String := none
  mfaType : Option String := none
  publicToken : Option String := none
  jobId : Option String := none
  message : Option String := none
  errorMessage : Option String := none
  error : Option String := none
  detail : Option String := none
  metadata : Option Dict := none

/-- As the page decodes it. -/
def ConnectResponse.page (response : ConnectResponse) : Response where
  status := response.status
  jobId := response.jobId
  sessionId := response.sessionId
  publicToken := response.publicToken
  mfaType := optStr response.mfaType
  message := optStr response.message
  errorMessage := optStr response.errorMessage
  error := optStr response.error
  detail := optStr response.detail
  metadata := response.metadata

/-- `PlaidifyLinkInstitutionStrategy`. -/
inductive InstitutionStrategy where
  | native
  | webViewFallback (reason : String)
deriving DecidableEq

/-- `PlaidifyLinkInstitutionRegistry`. -/
structure InstitutionRegistry where
  supportedSites : List String := []
  supportedAuthStyles : List String := ["username_password", "username_password_otp"]

/-- `strategy`, the same in both SDKs. -/
def InstitutionRegistry.strategy (registry : InstitutionRegistry) (organization : Organization) :
    InstitutionStrategy :=
  if registry.supportedSites ≠ [] ∧ organization.site ∉ registry.supportedSites then
    .webViewFallback "site_not_in_native_registry"
  else
    match organization.authStyle with
    | some style =>
        if style ∉ registry.supportedAuthStyles then
          .webViewFallback ("auth_style_unsupported:" ++ style)
        else .native
    | none =>
        -- an empty registry and an unknown style: the web view is the safer choice
        if registry.supportedSites = [] then .webViewFallback "auth_style_unknown" else .native

/-- `PlaidifyLinkStep`. -/
inductive LinkStep where
  | consent
  | picker
  | credentials
  | connecting
  | mfa
  | success
  | error
deriving Repr, DecidableEq

/-- `PlaidifyLinkFlowEvent`. -/
inductive LinkFlowEvent where
  | stepChanged (step : LinkStep)
  | institutionSelected (organization : Organization)
  | mfaRequired (mfaType : String) (sessionId : Option String)
  | connected (publicToken jobId site : Option String)
  | errored (code : Option String) (message : String)
  | fallbackToWebView (organization : Organization) (reason : String)
deriving DecidableEq

/-- `PlaidifyLinkConnectFlow.Action`. -/
inductive LinkAction where
  | selectInstitution (organization : Organization)
  | credentialsSubmitted
  | connectResponded (response : ConnectResponse)
  | mfaSubmitted
  | mfaResponded (response : ConnectResponse)
  | failed (code : Option String) (message : String)
  | reset

/-! ## The Swift flow -/

namespace Swift

/-- `PlaidifyLinkFlowState`. -/
structure FlowState where
  step : LinkStep := .picker
  organization : Option Organization := none
  sessionID : Option String := none
  mfaType : Option String := none
  lastErrorCode : Option String := none
  lastErrorMessage : Option String := none
  publicToken : Option String := none
  jobID : Option String := none
deriving DecidableEq

/-- `PlaidifyLinkConnectFlow`, with what `onEvent` was called with. -/
structure ConnectFlow where
  registry : InstitutionRegistry
  state : FlowState := {}
  events : List LinkFlowEvent := []

namespace ConnectFlow

def emit (flow : ConnectFlow) (events : List LinkFlowEvent) : ConnectFlow :=
  { flow with events := flow.events ++ events }

/-- `apply(.failed)`. -/
def failed (flow : ConnectFlow) (code : Option String) (message : String) : ConnectFlow :=
  { flow with state := { flow.state with
      step := .error, lastErrorCode := code, lastErrorMessage := some message } }.emit
    [.errored code message, .stepChanged .error]

/-- `handleConnectResponse`. -/
def handleConnectResponse (flow : ConnectFlow) (response : ConnectResponse) : ConnectFlow :=
  if response.status = "completed" then
    { flow with state := { flow.state with
        step := .success, publicToken := response.publicToken, jobID := response.jobId } }.emit
      [.connected response.publicToken response.jobId (flow.state.organization.map Organization.site),
        .stepChanged .success]
  else if response.status = "mfa_required" then
    { flow with state := { flow.state with
        step := .mfa, sessionID := response.sessionId, mfaType := response.mfaType } }.emit
      [.mfaRequired (response.mfaType.getD "otp") response.sessionId, .stepChanged .mfa]
  else if response.status = "error" then
    flow.failed none ((response.errorMessage <|> response.message).getD "Connection failed.")
  else
    -- pending or unknown: stay on connecting
    flow

/-- `apply`. -/
def apply (flow : ConnectFlow) : LinkAction → ConnectFlow
  | .selectInstitution organization =>
      match flow.registry.strategy organization with
      | .webViewFallback reason =>
          let flow := flow.emit [.fallbackToWebView organization reason]
          { flow with state := { flow.state with organization := some organization } }
      | .native =>
          { flow with state := { flow.state with
              organization := some organization, step := .credentials } }.emit
            [.institutionSelected organization, .stepChanged .credentials]
  | .credentialsSubmitted =>
      { flow with state := { flow.state with step := .connecting } }.emit
        [.stepChanged .connecting]
  | .connectResponded response => flow.handleConnectResponse response
  | .mfaSubmitted =>
      { flow with state := { flow.state with step := .connecting } }.emit
        [.stepChanged .connecting]
  | .mfaResponded response => flow.handleConnectResponse response
  | .failed code message => flow.failed code message
  | .reset => { flow with state := {} }.emit [.stepChanged .picker]

end ConnectFlow

end Swift

/-! ## The Kotlin flow -/

namespace Kotlin

/-- `PlaidifyLinkFlowState`. -/
structure FlowState where
  step : LinkStep := .picker
  organization : Option Organization := none
  sessionId : Option String := none
  mfaType : Option String := none
  lastErrorCode : Option String := none
  lastErrorMessage : Option String := none
  publicToken : Option String := none
  jobId : Option String := none
deriving DecidableEq

/-- `PlaidifyLinkConnectFlow`, with what `onEvent` was called with. -/
structure ConnectFlow where
  registry : InstitutionRegistry
  state : FlowState := {}
  events : List LinkFlowEvent := []

namespace ConnectFlow

/-- `onEvent`. -/
def onEvent (flow : ConnectFlow) (event : LinkFlowEvent) : ConnectFlow :=
  { flow with events := flow.events ++ [event] }

/-- `apply(Action.Failed)`. -/
def failed (flow : ConnectFlow) (code : Option String) (message : String) : ConnectFlow :=
  let state := { flow.state with
    step := .error, lastErrorCode := code, lastErrorMessage := some message }
  ({ flow with state }.onEvent (.errored code message)).onEvent (.stepChanged .error)

/-- `handleConnectResponse`. -/
def handleConnectResponse (flow : ConnectFlow) (response : ConnectResponse) : ConnectFlow :=
  if response.status = "completed" then
    let state := { flow.state with
      step := .success, publicToken := response.publicToken, jobId := response.jobId }
    ({ flow with state }.onEvent (.connected response.publicToken response.jobId
      (state.organization.map Organization.site))).onEvent (.stepChanged .success)
  else if response.status = "mfa_required" then
    let state := { flow.state with
      step := .mfa, sessionId := response.sessionId, mfaType := response.mfaType }
    ({ flow with state }.onEvent (.mfaRequired (response.mfaType.getD "otp")
      response.sessionId)).onEvent (.stepChanged .mfa)
  else if response.status = "error" then
    flow.failed none ((response.errorMessage <|> response.message).getD "Connection failed.")
  else
    -- pending or unknown: stay on connecting
    flow

/-- `apply`. -/
def apply (flow : ConnectFlow) : LinkAction → ConnectFlow
  | .selectInstitution organization =>
      match flow.registry.strategy organization with
      | .webViewFallback reason =>
          let flow := flow.onEvent (.fallbackToWebView organization reason)
          { flow with state := { flow.state with organization := some organization } }
      | .native =>
          let state := { flow.state with
            organization := some organization, step := .credentials }
          ({ flow with state }.onEvent (.institutionSelected organization)).onEvent
            (.stepChanged .credentials)
  | .credentialsSubmitted =>
      { flow with state := { flow.state with step := .connecting } }.onEvent
        (.stepChanged .connecting)
  | .connectResponded response => flow.handleConnectResponse response
  | .mfaSubmitted =>
      { flow with state := { flow.state with step := .connecting } }.onEvent
        (.stepChanged .connecting)
  | .mfaResponded response => flow.handleConnectResponse response
  | .failed code message => flow.failed code message
  | .reset => { flow with state := {} }.onEvent (.stepChanged .picker)

end ConnectFlow

/-- The flow with the same fields as the Swift flow. -/
def ofSwift (flow : Swift.ConnectFlow) : ConnectFlow where
  registry := flow.registry
  state :=
    { step := flow.state.step
      organization := flow.state.organization
      sessionId := flow.state.sessionID
      mfaType := flow.state.mfaType
      lastErrorCode := flow.state.lastErrorCode
      lastErrorMessage := flow.state.lastErrorMessage
      publicToken := flow.state.publicToken
      jobId := flow.state.jobID }
  events := flow.events

end Kotlin

/-! ## The React flow -/

/-- An action of the user or an answer of the server. -/
inductive Action where
  | selectInstitution (organization : Organization)
  | credentialsSubmitted
  /-- `/connect` has responded; `status` is what `finishSuccess` hears where it asks. -/
  | connectResponded (response : ConnectResponse) (status : Answer)
  /-- Polling after a `"pending"` has ended with a terminal status. -/
  | polled (terminal : ConnectResponse) (status : Answer)
  | mfaSubmitted
  | mfaResponded (response : ConnectResponse) (status : Answer)
  | failed (code : Option String) (message : String)
  | reset

/-- What the native flows are given. -/
def Action.native : Action → LinkAction
  | .selectInstitution organization => .selectInstitution organization
  | .credentialsSubmitted => .credentialsSubmitted
  | .connectResponded response _ | .polled response _ => .connectResponded response
  | .mfaSubmitted => .mfaSubmitted
  | .mfaResponded response _ => .mfaResponded response
  | .failed code message => .failed code message
  | .reset => .reset

namespace Page

/-- Give `finishSuccess` the status that it asks for. -/
def answered (p : Page) (i : Nat) (status : Answer) : Page :=
  match p.calls i with
  | some (.resolve payload) => p.handle i (.resolve payload) status
  | _ => p

/-- An action in the React flow. The one asynchronous function under way is
number 0. -/
def act (p : Page) : Action → Page
  | .selectInstitution organization =>
      p.selectInstitution ⟨organization.organizationId, organization.name, organization.site⟩
  | .credentialsSubmitted => p.dispatch .submitCredentials
  | .connectResponded response status | .mfaResponded response status =>
      (p.handleConnectResponse 0 response.page).answered 0 status
  | .polled terminal status => (p.afterPoll 0 terminal.page).answered 0 status
  | .mfaSubmitted => p.dispatch .submitMfa
  | .failed _ message => p.failWith (.str message)
  | .reset => p.dispatch .reset

end Page

/-- The step mapping. -/
def FlowStep.native : FlowStep → LinkStep
  | .select => .picker
  | .credentials => .credentials
  | .connecting => .connecting
  | .mfa => .mfa
  | .success => .success
  | .error => .error

/-! ## The property and the condition -/

section

variable (registry : InstitutionRegistry) (actions : List Action)

def swiftAfter : Swift.ConnectFlow :=
  actions.foldl (fun flow action => flow.apply action.native) { registry }

def kotlinAfter : Kotlin.ConnectFlow :=
  actions.foldl (fun flow action => flow.apply action.native) { registry }

def reactAfter : Page :=
  actions.foldl Page.act {}

/-- The native flows are in the step that the React flow is in, with equal fields. -/
structure InStep : Prop where
  step : (swiftAfter registry actions).state.step = (reactAfter actions).flow.step.native
  fields : kotlinAfter registry actions = Kotlin.ofSwift (swiftAfter registry actions)

/-- An action that both sides take alike in a step: a form is submitted where it is
shown or has just been, and a status is one that both sides know. A status that
one side ignores does no harm where the other side is already. -/
def TakenAlike (step : FlowStep) : Action → Prop
  | .credentialsSubmitted => step ∈ [.credentials, .error, .connecting]
  | .mfaSubmitted => step ∈ [.mfa, .connecting]
  | .connectResponded response _ | .mfaResponded response _ =>
      response.status ∈ ["mfa_required", "pending", "error"] ∨
        response.status = "connected" ∧ step = .success ∨
        response.status ≠ "connected" ∧ response.status ≠ "completed" ∧ step = .error
  | .polled terminal _ =>
      terminal.status ∈ ["completed", "mfa_required", "error"] ∨ step = .error
  | .selectInstitution _ | .failed _ _ | .reset => True

instance (step : FlowStep) : (action : Action) → Decidable (TakenAlike step action)
  | .credentialsSubmitted =>
      inferInstanceAs (Decidable (step ∈ [FlowStep.credentials, .error, .connecting]))
  | .mfaSubmitted => inferInstanceAs (Decidable (step ∈ [FlowStep.mfa, .connecting]))
  | .connectResponded response _ | .mfaResponded response _ =>
      inferInstanceAs (Decidable (response.status ∈ ["mfa_required", "pending", "error"] ∨
        response.status = "connected" ∧ step = .success ∨
        response.status ≠ "connected" ∧ response.status ≠ "completed" ∧ step = .error))
  | .polled terminal _ =>
      inferInstanceAs (Decidable (terminal.status ∈ ["completed", "mfa_required", "error"] ∨
        step = .error))
  | .selectInstitution _ => isTrue trivial
  | .failed _ _ => isTrue trivial
  | .reset => isTrue trivial

end

variable {registry : InstitutionRegistry}

/-! ## The two native flows -/

/-- The Kotlin flow does what the Swift flow does. -/
theorem kotlin_apply (flow : Swift.ConnectFlow) (action : LinkAction) :
    (Kotlin.ofSwift flow).apply action = Kotlin.ofSwift (flow.apply action) := by
  have hfailed : ∀ code message, (Kotlin.ofSwift flow).failed code message =
      Kotlin.ofSwift (flow.failed code message) := by
    intro code message
    simp [Kotlin.ConnectFlow.failed, Swift.ConnectFlow.failed, Kotlin.ConnectFlow.onEvent,
      Swift.ConnectFlow.emit, Kotlin.ofSwift]
  have hhandle : ∀ response, (Kotlin.ofSwift flow).handleConnectResponse response =
      Kotlin.ofSwift (flow.handleConnectResponse response) := by
    intro response
    unfold Kotlin.ConnectFlow.handleConnectResponse Swift.ConnectFlow.handleConnectResponse
    split
    · simp [Kotlin.ConnectFlow.onEvent, Swift.ConnectFlow.emit, Kotlin.ofSwift]
    · split
      · simp [Kotlin.ConnectFlow.onEvent, Swift.ConnectFlow.emit, Kotlin.ofSwift]
      · split
        · exact hfailed _ _
        · rfl
  cases action with
  | selectInstitution organization =>
      have hregistry : (Kotlin.ofSwift flow).registry = flow.registry := rfl
      unfold Kotlin.ConnectFlow.apply Swift.ConnectFlow.apply
      simp only [hregistry]
      cases flow.registry.strategy organization with
      | webViewFallback reason => rfl
      | native => simp [Kotlin.ConnectFlow.onEvent, Swift.ConnectFlow.emit, Kotlin.ofSwift]
  | connectResponded response | mfaResponded response => exact hhandle response
  | failed code message => exact hfailed code message
  | credentialsSubmitted | mfaSubmitted | reset => rfl

theorem kotlin_eq_swift (actions : List Action) :
    kotlinAfter registry actions = Kotlin.ofSwift (swiftAfter registry actions) := by
  induction actions using List.reverseRecOn with
  | nil => rfl
  | append_singleton actions action ih =>
      unfold kotlinAfter swiftAfter at ih ⊢
      rw [List.foldl_concat, List.foldl_concat, ih, kotlin_apply]

/-! ## One action -/

namespace Page

@[simp] theorem drain_flow (p : Page) : p.drain.flow = p.flow := by
  unfold drain
  split
  · rfl
  · rfl

@[simp] theorem emit_flow (p : Page) (event : String) (payload : Dict) :
    (p.emit event payload).flow = p.flow :=
  drain_flow _

@[simp] theorem dispatch_flow (p : Page) (event : FlowEvent) :
    (p.dispatch event).flow = flowReducer p.flow event := rfl

@[simp] theorem setCall_flow (p : Page) (i : Nat) (call : Option Call) :
    (p.setCall i call).flow = p.flow := rfl

theorem failWith_step (p : Page) (message : Json) : (p.failWith message).flow.step = .error := by
  simp [failWith, flowReducer]

theorem succeed_step (p : Page) (i : Nat) (resolved : Response) :
    (p.succeed i resolved).flow.step = .success := by
  simp [succeed, flowReducer]

theorem setCall_calls_self (p : Page) (i : Nat) (call : Option Call) :
    (p.setCall i call).calls i = call :=
  if_pos rfl

/-- Nothing is left to be answered where the function is done. -/
theorem answered_of_done {p : Page} {i : Nat} (h : p.calls i = none) (status : Answer) :
    p.answered i status = p := by
  unfold answered
  rw [h]

/-- A success is reached with or without another request. -/
theorem finishSuccess_step (p : Page) (i : Nat) (payload : Response) (status : Answer) :
    ((p.finishSuccess i payload).answered i status).flow.step = .success := by
  unfold finishSuccess
  split
  · unfold answered
    rw [setCall_calls_self]
    exact succeed_step _ _ _
  · have hdone : (p.succeed i payload).calls i = none := by
      unfold succeed
      rw [emit_calls, dispatch_calls, setCall_calls_self]
    rw [answered_of_done hdone, succeed_step]

theorem promptMfa_step (p : Page) (i : Nat) (prompt mfaType : Json) (sessionId : Option String)
    (status : Answer) :
    ((p.promptMfa i prompt mfaType sessionId).answered i status).flow.step = .mfa := by
  have hdone : (p.promptMfa i prompt mfaType sessionId).calls i = none := by
    unfold promptMfa
    rw [emit_calls, dispatch_calls, setCall_calls_self]
  rw [answered_of_done hdone]
  simp [promptMfa, flowReducer]

theorem failed_step (p : Page) (i : Nat) (message : Json) (status : Answer) :
    (((p.setCall i none).failWith message).answered i status).flow.step = .error := by
  have hdone : ((p.setCall i none).failWith message).calls i = none := by
    rw [failWith_calls, setCall_calls_self]
  rw [answered_of_done hdone, failWith_step]

/-- Where a response leads. -/
theorem handleConnectResponse_step (p : Page) (i : Nat) (response : Response) (status : Answer) :
    ((p.handleConnectResponse i response).answered i status).flow.step =
      if response.status = "connected" then .success
      else if response.status = "mfa_required" then .mfa
      else if response.status = "pending" then p.flow.step
      else .error := by
  unfold handleConnectResponse
  dsimp only
  split
  · exact finishSuccess_step _ _ _ _
  · split
    · exact promptMfa_step _ _ _ _ _ _
    · split
      · unfold answered
        rw [setCall_calls_self]
        rfl
      · exact failed_step _ _ _ _

/-- Where a terminal status leads. -/
theorem afterPoll_step (p : Page) (i : Nat) (terminal : Response) (status : Answer) :
    ((p.afterPoll i terminal).answered i status).flow.step =
      if terminal.status = "completed" then .success
      else if terminal.status = "mfa_required" then .mfa
      else .error := by
  unfold afterPoll
  split
  · exact finishSuccess_step _ _ _ _
  · split
    · exact promptMfa_step _ _ _ _ _ _
    · exact failed_step _ _ _ _

end Page

theorem swift_handleConnectResponse_step (flow : Swift.ConnectFlow) (response : ConnectResponse) :
    (flow.handleConnectResponse response).state.step =
      if response.status = "completed" then .success
      else if response.status = "mfa_required" then .mfa
      else if response.status = "error" then .error
      else flow.state.step := by
  unfold Swift.ConnectFlow.handleConnectResponse
  split
  · rfl
  · split
    · rfl
    · split
      · rfl
      · rfl

/-- From one step, an action leads to one step again exactly when it is taken alike. -/
theorem apply_step_iff {flow : Swift.ConnectFlow} {p : Page} {action : Action}
    (hnative : ∀ organization, action = .selectInstitution organization →
      flow.registry.strategy organization = .native)
    (hstep : flow.state.step = p.flow.step.native) :
    (flow.apply action.native).state.step = (p.act action).flow.step.native ↔
      TakenAlike p.flow.step action := by
  have hresponse : ∀ (response : ConnectResponse) (status : Answer),
      (flow.handleConnectResponse response).state.step =
          ((p.handleConnectResponse 0 response.page).answered 0 status).flow.step.native ↔
        TakenAlike p.flow.step (.connectResponded response status) := by
    intro response status
    rw [swift_handleConnectResponse_step, Page.handleConnectResponse_step, hstep]
    have hstatus : response.page.status = response.status := rfl
    rw [hstatus]
    by_cases hcompleted : response.status = "completed"
    · -- a success for the native flows, an unexpected status for the page
      simp [TakenAlike, hcompleted, FlowStep.native]
    · by_cases hmfa : response.status = "mfa_required"
      · -- asked for a code in both
        simp [TakenAlike, hmfa, FlowStep.native]
      · by_cases herror : response.status = "error"
        · -- failed in both
          simp [TakenAlike, herror, FlowStep.native]
        · by_cases hconnected : response.status = "connected"
          · -- a success for the page; the native flows stay
            cases hs : p.flow.step <;> simp [TakenAlike, hconnected, FlowStep.native]
          · by_cases hpending : response.status = "pending"
            · -- pending in both
              simp [TakenAlike, hpending]
            · -- an error for the page; the native flows stay
              cases hs : p.flow.step <;>
                simp [TakenAlike, hcompleted, hmfa, herror, hconnected, hpending, FlowStep.native]
  cases action with
  | selectInstitution organization =>
      refine iff_of_true ?_ trivial
      simp [Action.native, Swift.ConnectFlow.apply, hnative organization rfl,
        Swift.ConnectFlow.emit, Page.act, Page.selectInstitution, flowReducer, FlowStep.native]
  | credentialsSubmitted =>
      -- the page submits credentials only where it shows the form, or has an error
      have hstep' : (flow.apply Action.credentialsSubmitted.native).state.step = .connecting := rfl
      rw [hstep']
      cases hs : p.flow.step <;> simp [Page.act, flowReducer, hs, TakenAlike, FlowStep.native]
  | mfaSubmitted =>
      -- and a code only where it is asked for
      have hstep' : (flow.apply Action.mfaSubmitted.native).state.step = .connecting := rfl
      rw [hstep']
      cases hs : p.flow.step <;> simp [Page.act, flowReducer, hs, TakenAlike, FlowStep.native]
  | connectResponded response status => exact hresponse response status
  | mfaResponded response status => exact hresponse response status
  | polled terminal status =>
      show (flow.handleConnectResponse terminal).state.step =
        ((p.afterPoll 0 terminal.page).answered 0 status).flow.step.native ↔ _
      rw [swift_handleConnectResponse_step, Page.afterPoll_step, hstep]
      have hstatus : terminal.page.status = terminal.status := rfl
      rw [hstatus]
      by_cases hcompleted : terminal.status = "completed"
      · -- completed in both
        simp [TakenAlike, hcompleted, FlowStep.native]
      · by_cases hmfa : terminal.status = "mfa_required"
        · -- asked for a code in both
          simp [TakenAlike, hmfa, FlowStep.native]
        · by_cases herror : terminal.status = "error"
          · -- failed in both
            simp [TakenAlike, herror, FlowStep.native]
          · -- an error for the page; the native flows stay
            cases hs : p.flow.step <;>
              simp [TakenAlike, hcompleted, hmfa, herror, FlowStep.native]
  | failed code message =>
      -- a failure shows the error whatever the step
      refine iff_of_true ?_ trivial
      show LinkStep.error = (p.failWith (.str message)).flow.step.native
      rw [Page.failWith_step]
      rfl
  | reset => exact iff_of_true rfl trivial

/-! ## Sequences of actions -/

/-- The flow keeps the registry it was made with. -/
theorem swiftAfter_registry (actions : List Action) :
    (swiftAfter registry actions).registry = registry := by
  have happly : ∀ (flow : Swift.ConnectFlow) action, (flow.apply action).registry = flow.registry := by
    intro flow action
    have hhandle : ∀ response, (flow.handleConnectResponse response).registry = flow.registry := by
      intro response
      unfold Swift.ConnectFlow.handleConnectResponse
      split
      · rfl
      · split
        · rfl
        · split
          · rfl
          · rfl
    cases action with
    | selectInstitution organization =>
        unfold Swift.ConnectFlow.apply
        dsimp only
        split
        · rfl
        · rfl
    | connectResponded response | mfaResponded response => exact hhandle response
    | credentialsSubmitted | mfaSubmitted | failed | reset => rfl
  induction actions using List.reverseRecOn with
  | nil => rfl
  | append_singleton actions action ih =>
      unfold swiftAfter at ih ⊢
      rw [List.foldl_concat, happly, ih]

/-- Over institutions with a native strategy, the native flows are after each
action in the step of the React flow, with equal fields, exactly when each action
is taken alike in the step that it finds. -/
theorem native_follows_react_iff {actions : List Action}
    (hnative : ∀ organization, .selectInstitution organization ∈ actions →
      registry.strategy organization = .native) :
    Traces.Throughout (InStep registry) actions ↔
      Traces.Each (fun before action => TakenAlike (reactAfter before).flow.step action)
        actions := by
  induction actions using List.reverseRecOn with
  | nil =>
      refine iff_of_true (Traces.throughout_nil.mpr ⟨rfl, rfl⟩) Traces.each_nil
  | append_singleton actions action ih =>
      have hbefore := ih fun organization hmem => hnative organization (by simp [hmem])
      rw [Traces.throughout_concat, Traces.each_concat, ← hbefore]
      refine and_congr_right fun hall => ?_
      have hstep := hall.self.step
      have hstrategy : ∀ organization, action = .selectInstitution organization →
          (swiftAfter registry actions).registry.strategy organization = .native := by
        intro organization haction
        rw [swiftAfter_registry]
        exact hnative organization (by simp [haction])
      rw [← apply_step_iff hstrategy hstep]
      have hswift : swiftAfter registry (actions ++ [action]) =
          (swiftAfter registry actions).apply action.native := by
        simp [swiftAfter]
      have hreact : reactAfter (actions ++ [action]) = (reactAfter actions).act action := by
        simp [reactAfter]
      constructor
      · intro hnext
        rw [← hswift, ← hreact]
        exact hnext.step
      · intro hnext
        rw [← hswift, ← hreact] at hnext
        exact ⟨hnext, kotlin_eq_swift _⟩

/-! ## Two connections -/

def someBank : Organization := ⟨"org-1", "Hydro One", "hydro_one", some "username_password"⟩

/-- A connection that a poll completes, with a code on the way. -/
def polledConnection : List Action :=
  [.selectInstitution someBank, .credentialsSubmitted,
    .connectResponded { status := "pending", jobId := some "job-1" } (.ok { status := "active" }),
    .polled { status := "mfa_required", sessionId := some "mfa-1" } (.ok { status := "active" }),
    .mfaSubmitted, .mfaResponded { status := "pending" } (.ok { status := "active" }),
    .polled { status := "completed", publicToken := some "public-1" } (.ok { status := "active" })]

theorem polledConnection_inStep : Traces.Throughout (InStep {}) polledConnection := by
  refine (@native_follows_react_iff {} polledConnection ?_).mpr ?_
  · intro organization hmem
    have horganization : organization = someBank := by
      simpa [polledConnection] using hmem
    rw [horganization]
    decide
  · decide +kernel

/-- A connection that is answered at once. -/
def answeredConnection : List Action :=
  [.selectInstitution someBank, .credentialsSubmitted,
    .connectResponded { status := "connected", publicToken := some "public-1" }
      (.ok { status := "completed" })]

theorem answeredConnection_not_inStep :
    ¬ ∀ (registry : InstitutionRegistry) (actions : List Action),
      (∀ organization, .selectInstitution organization ∈ actions →
        registry.strategy organization = .native) →
      Traces.Throughout (InStep registry) actions := by
  intro hall
  have hnative : ∀ organization, .selectInstitution organization ∈ answeredConnection →
      (InstitutionRegistry.strategy {} organization) = .native := by
    intro organization hmem
    have horganization : organization = someBank := by
      simpa [answeredConnection] using hmem
    rw [horganization]
    decide
  have hstep := (hall {} answeredConnection hnative).self.step
  revert hstep
  decide

end Plaidify.HostedLink
