import Plaidify.HostedLink.Page
import Plaidify.Lib.Traces

/-!
# The states of the flow

What the states of `flowReducer` have in common over all sequences of events.
The reducer takes the events that answers bring (`MFA_REQUIRED`, `SUCCEED`,
`FAIL`) in every step and carries the other fields over, so it depends on its
callers that a state makes sense: `flowInvariant_iff`.
-/

namespace Plaidify.HostedLink

/-- `initialFlowState`. -/
def initialFlowState : FlowState := {}

/-- The state that a sequence of events leads to. -/
def flowAfter (events : List FlowEvent) : FlowState :=
  events.foldl flowReducer initialFlowState

theorem flowAfter_concat (events : List FlowEvent) (event : FlowEvent) :
    flowAfter (events ++ [event]) = flowReducer (flowAfter events) event := by
  simp [flowAfter]

/-- `RESET`, `BACK_TO_PICKER` and `SELECT_INSTITUTION`. -/
def FlowEvent.restarts : FlowEvent → Bool
  | .reset | .backToPicker | .selectInstitution _ => true
  | _ => false

/-! ## The property and the condition -/

/-- The fields of a state fit its step. -/
structure FlowState.Ok (state : FlowState) : Prop where
  institution : state.step ∈ [.credentials, .connecting, .mfa, .success] → state.institution ≠ none
  success : state.success ≠ none ↔ state.step = .success
  error : state.error ≠ none ↔ state.step = .error

/-- An event that does not restart the flow leaves a success as it is. -/
def StaleIgnored (state : FlowState) (event : FlowEvent) : Prop :=
  state.step = .success → event.restarts = false → flowReducer state event = state

/-- The states on the way fit their steps, and stale events are ignored. -/
def FlowInvariant (events : List FlowEvent) : Prop :=
  Traces.Throughout (fun before => (flowAfter before).Ok) events ∧
    Traces.Each (fun before event => StaleIgnored (flowAfter before) event) events

/-- The event comes in time: an institution has been chosen for the
prompt, the success, or the other try after an error; and a success is not
overtaken. -/
def Timely (state : FlowState) : FlowEvent → Prop
  | .mfaRequired _ => state.institution ≠ none ∧ state.step ≠ .success
  | .succeed payload =>
      state.institution ≠ none ∧ (state.step = .success → state.success = some payload)
  | .fail _ => state.step ≠ .success
  | .submitCredentials => state.step = .error → state.institution ≠ none
  | .submitMfa | .reset | .backToPicker | .selectInstitution _ => True

/-! ## One event -/

theorem init_ok : initialFlowState.Ok where
  institution := by simp [initialFlowState]
  success := by simp [initialFlowState]
  error := by simp [initialFlowState]

/-- Out of a success there is no error. -/
theorem FlowState.Ok.error_eq_none {state : FlowState} (h : state.Ok) (hstep : state.step ≠ .error) :
    state.error = none := by
  by_contra herror
  exact hstep (h.error.mp herror)

theorem FlowState.Ok.success_eq_none {state : FlowState} (h : state.Ok)
    (hstep : state.step ≠ .success) : state.success = none := by
  by_contra hsuccess
  exact hstep (h.success.mp hsuccess)

/-- A timely event leads to a state that fits its step. -/
theorem step_ok {state : FlowState} {event : FlowEvent} (h : state.Ok)
    (htimely : Timely state event) : (flowReducer state event).Ok := by
  cases event with
  | reset | backToPicker => exact init_ok
  | selectInstitution institution =>
      refine ⟨?_, ?_, ?_⟩ <;> simp [flowReducer]
  | submitCredentials =>
      unfold flowReducer
      dsimp only
      split
      · exact h
      · rename_i hguard
        have hstep : state.step = .credentials ∨ state.step = .error := by tauto
        have hsuccess : state.success = none := by
          apply h.success_eq_none
          rcases hstep with hstep | hstep
          · simp [hstep]
          · simp [hstep]
        have hinstitution : state.institution ≠ none := by
          rcases hstep with hstep | hstep
          · exact h.institution (by simp [hstep])
          · exact htimely hstep
        exact ⟨fun _ => hinstitution, by simp [hsuccess], by simp⟩
  | mfaRequired prompt =>
      have hsuccess := h.success_eq_none htimely.2
      exact ⟨fun _ => htimely.1, by simp [flowReducer, hsuccess], by simp [flowReducer]⟩
  | submitMfa =>
      unfold flowReducer
      dsimp only
      split
      · exact h
      · rename_i hguard
        have hstep : state.step = .mfa := not_not.mp hguard
        have hsuccess : state.success = none := h.success_eq_none (by simp [hstep])
        have hinstitution := h.institution (by simp [hstep])
        exact ⟨fun _ => hinstitution, by simp [hsuccess], by simp⟩
  | succeed payload =>
      exact ⟨fun _ => htimely.1, by simp [flowReducer], by simp [flowReducer]⟩
  | fail payload =>
      have hsuccess := h.success_eq_none htimely
      exact ⟨by simp [flowReducer], by simp [flowReducer, hsuccess], by simp [flowReducer]⟩

/-- A timely event that finds a success restarts the flow or changes nothing. -/
theorem staleIgnored_of_timely {state : FlowState} {event : FlowEvent} (h : state.Ok)
    (htimely : Timely state event) : StaleIgnored state event := by
  intro hstep hrestarts
  have herror : state.error = none := h.error_eq_none (by simp [hstep])
  cases event with
  | reset | backToPicker | selectInstitution => cases hrestarts
  | submitCredentials | submitMfa => simp [flowReducer, hstep]
  | mfaRequired prompt => exact absurd hstep htimely.2
  | fail payload => exact absurd hstep htimely
  | succeed payload =>
      have hsuccess := htimely.2 hstep
      cases state
      simp_all [flowReducer]

/-- Only timely events keep to the property. -/
theorem timely_of_ok {state : FlowState} {event : FlowEvent}
    (hnext : (flowReducer state event).Ok) (hstale : StaleIgnored state event) :
    Timely state event := by
  cases event with
  | reset | backToPicker | selectInstitution | submitMfa => trivial
  | submitCredentials =>
      intro hstep
      simpa [flowReducer, hstep] using hnext.institution
  | mfaRequired prompt =>
      refine ⟨hnext.institution (by simp [flowReducer]), ?_⟩
      intro hstep
      have hsame := congrArg FlowState.step (hstale hstep rfl)
      simp [flowReducer, hstep] at hsame
  | fail payload =>
      intro hstep
      have hsame := congrArg FlowState.step (hstale hstep rfl)
      simp [flowReducer, hstep] at hsame
  | succeed payload =>
      refine ⟨hnext.institution (by simp [flowReducer]), ?_⟩
      intro hstep
      exact (congrArg FlowState.success (hstale hstep rfl)).symm

/-! ## Sequences of events -/

/-- A sequence keeps to the property exactly when each of its events is
timely in the state that it finds. -/
theorem flowInvariant_iff (events : List FlowEvent) :
    FlowInvariant events ↔
      Traces.Each (fun before event => Timely (flowAfter before) event) events := by
  induction events using List.reverseRecOn with
  | nil => exact iff_of_true ⟨Traces.throughout_nil.mpr init_ok, Traces.each_nil⟩ Traces.each_nil
  | append_singleton events event ih =>
      rw [Traces.each_concat, ← ih]
      unfold FlowInvariant
      rw [Traces.throughout_concat, Traces.each_concat, flowAfter_concat]
      constructor
      · rintro ⟨⟨hok, hnext⟩, hstale, hlast⟩
        exact ⟨⟨hok, hstale⟩, timely_of_ok hnext hlast⟩
      · rintro ⟨⟨hok, hstale⟩, htimely⟩
        have hbefore : (flowAfter events).Ok := hok.self
        refine ⟨⟨hok, step_ok hbefore htimely⟩, hstale, ?_⟩
        exact staleIgnored_of_timely hbefore htimely

/-! ## An answer that comes late -/

/-- The opening page's `getStatus` is answered after the connection is made. -/
def lateStatus : List FlowEvent :=
  [.selectInstitution ⟨"org-1", "Hydro One", "hydro_one"⟩, .submitCredentials,
    .succeed ⟨"public-1"⟩,
    .fail ⟨.str "This link has completed. Request a fresh link to continue."⟩]

theorem lateStatus_not_flowInvariant : ¬ ∀ events, FlowInvariant events := by
  intro hall
  have hok : (flowAfter lateStatus).Ok := (hall lateStatus).1.self
  have hstep : (flowAfter lateStatus).step = .success :=
    hok.success.mp (by simp [flowAfter, lateStatus, flowReducer])
  simp [flowAfter, lateStatus, flowReducer] at hstep

end Plaidify.HostedLink
