import Mathlib.Data.List.Chain
import Plaidify.HostedLink.Page
import Plaidify.Lib.Runs

/-!
# The widget

`PlaidifyLink` of `src/frontend/link.js`: one widget in the page of its host. The
callbacks of the configuration are any code. While one runs, the host may call the
widget again, dispatch events of its own, and throw. So the state has the stack of what
waits for host code to return, innermost first; the widget's own code runs without a
break up to its next callback. Messages, clicks and timers come in any order.

Styles are left out, and the host leaves a message that it is shown as it is.
-/

namespace Plaidify.HostedLink.Widget

open AccessJobs (Dict)

/-! ## Messages -/

/-- What `_onMessage` reads of a `MessageEvent`. -/
structure MessageEvent where
  data : Json
  origin : String

/-- A member of a JavaScript value, null where there is none. -/
def member (value : Json) (name : String) : Json :=
  match value with
  | .obj members => (members.lookup name).getD .null
  | _ => .null

/-- The two tests at the head of `_onMessage`. -/
def accepts (serverOrigin : String) (event : MessageEvent) : Bool :=
  match member event.data "source" with
  | .str source => source == "plaidify-link" && event.origin == serverOrigin
  | _ => false

/-! ## The code of the widget -/

/-- A call of a callback of the configuration. -/
inductive Callback where
  | onSuccess (publicToken : Json) (details : Dict)
  | onExit (details : Dict)
  | onEvent (eventName message : Json)
  | onMFA (details : Dict)

/-- What a callback is called for: a method of the widget, a click, or a message, by
its number. -/
inductive Cause where
  | lifecycle
  | click
  | message (n : Nat)
deriving Repr, DecidableEq

/-- A statement of the widget that calls back, or comes after one that does. -/
inductive Task where
  | call (callback : Callback)
  | close
  | closeLater
  | markDestroyed

/-- The rest of a method or a handler, after a callback. -/
structure Continuation where
  cause : Cause
  rest : List Task

/-- The calls of `_onMessage` for a message that passes the tests. -/
def messageTasks (message : Json) : List Task :=
  .call (.onEvent (member message "event") message) ::
    match member message "event" with
    | .str "CONNECTED" =>
        [.call (.onSuccess (jsOr (member message "public_token") (.str ""))
          [("job_id", jsOr (member message "job_id") (.str "")),
            ("organization_id", jsOr (member message "organization_id") (.str "")),
            ("organization_name", jsOr (member message "organization_name") (.str "")),
            ("public_token", jsOr (member message "public_token") (.str "")),
            ("site", member message "site")]),
          .closeLater]
    | .str "EXIT" | .str "DONE" =>
        [.call (.onExit [("reason", jsOr (member message "reason") (.str "user_closed"))]), .close]
    | .str "MFA_REQUIRED" =>
        [.call (.onMFA [("mfa_type", member message "mfa_type"),
          ("session_id", member message "session_id")])]
    | .str "ERROR" =>
        [.call (.onExit [("reason", .str "error"), ("error", member message "error")])]
    | _ => []

/-- An opening, one that an exception broke off, or a closing. -/
inductive Phase where
  | opened
  | failed
  | closed
deriving Repr, DecidableEq

/-- An entry of the history of a widget. -/
inductive Entry where
  | phase (phase : Phase)
  | called (cause : Cause) (callback : Callback)

/-- The state of a widget and of the page that it is in. An overlay and the frame on it
have the number of their opening. -/
structure State where
  isOpen : Bool := false
  destroyed : Bool := false
  /-- `_messageHandler` listens to the messages of the window. -/
  listening : Bool := false
  overlay : Option Nat := none
  iframe : Option Nat := none
  /-- The document has a body. -/
  hasBody : Bool := false
  /-- The overlays of the document. -/
  overlays : List Nat := []
  /-- The frames of the document. -/
  iframes : List Nat := []
  /-- The timers that remove an overlay. -/
  removals : List Nat := []
  /-- How many timers will close the widget. -/
  closeTimers : Nat := 0
  openings : Nat := 0
  /-- What waits for host code to return; nothing waits for a script of the page. -/
  stack : List (Option Continuation) := []
  /-- The messages that came, and whether the widget was listening. -/
  events : List (MessageEvent × Bool) := []
  history : List Entry := []
  /-- The handlers that an exception went through. -/
  broken : List Cause := []

/-- `_teardownUI`. -/
def teardownUI (s : State) : State :=
  { s with
    iframes := s.iframe.elim s.iframes s.iframes.erase
    iframe := none
    removals := s.removals ++ s.overlay.toList
    overlay := none }

/-- A callback is called, and the rest waits for it. -/
def callBack (s : State) (cause : Cause) (callback : Callback) (waiting : Continuation) : State :=
  { s with
    history := s.history ++ [.called cause callback]
    stack := some waiting :: s.stack }

/-- The code of the widget up to its next callback. -/
def run (cause : Cause) : List Task → State → State
  | [], s => s
  | .call callback :: rest, s => callBack s cause callback ⟨cause, rest⟩
  | .close :: rest, s =>
      if s.isOpen then
        callBack { teardownUI s with isOpen := false, history := s.history ++ [.phase .closed] }
          .lifecycle (.onEvent (.str "CLOSE") (.obj [])) ⟨cause, rest⟩
      else run cause rest s
  | .closeLater :: rest, s => run cause rest { s with closeTimers := s.closeTimers + 1 }
  | .markDestroyed :: rest, s => run cause rest { s with listening := false, destroyed := true }

/-- `open`. Without a body `_createOverlay` throws, and a destroyed widget throws first. -/
def openWidget (s : State) : State :=
  if s.destroyed then s
  else if s.isOpen then s
  else if ¬s.hasBody then
    { s with isOpen := true, history := s.history ++ [.phase .failed] }
  else
    run .lifecycle [.call (.onEvent (.str "OPEN") (.obj []))]
      { s with
        isOpen := true
        overlay := some s.openings
        overlays := s.overlays ++ [s.openings]
        iframe := some s.openings
        iframes := s.iframes ++ [s.openings]
        openings := s.openings + 1
        listening := true
        history := s.history ++ [.phase .opened] }

/-- `open`, `close` and `destroy`. -/
inductive Method where
  | openWidget
  | close
  | destroy

def callMethod (s : State) : Method → State
  | .openWidget => openWidget s
  | .close => run .lifecycle [.close] s
  | .destroy => run .lifecycle [.close, .markDestroyed] s

/-- A message comes. -/
def receive (serverOrigin : String) (s : State) (event : MessageEvent) : State :=
  let t := { s with events := s.events ++ [(event, s.listening)] }
  if s.listening && accepts serverOrigin event then
    run (.message s.events.length) (messageTasks event.data) t
  else t

/-! ## Runs -/

/-- What happens next in the page. -/
inductive Label where
  | bodyParsed
  /-- A script of the page begins. -/
  | script
  /-- The host code that runs calls a method of the widget. -/
  | call (method : Method)
  /-- The host code that runs comes to its end. -/
  | returns
  /-- The host code that runs throws. -/
  | throws
  | message (event : MessageEvent)
  /-- An overlay of the document is clicked. -/
  | click (overlay : Nat)
  /-- A timer of `CONNECTED` fires. -/
  | closeTimer
  /-- A timer of `_teardownUI` fires. -/
  | removeOverlay (overlay : Nat)

def step (serverOrigin : String) (s : State) : Label → Option State
  | .bodyParsed => some { s with hasBody := true }
  | .script => some { s with stack := none :: s.stack }
  | .call method => if s.stack = [] then none else some (callMethod s method)
  | .returns =>
      match s.stack with
      | [] => none
      | none :: stack => some { s with stack := stack }
      | some k :: stack => some (run k.cause k.rest { s with stack := stack })
  | .throws =>
      match s.stack with
      | [] => none
      | none :: stack => some { s with stack := stack }
      | some k :: stack => some { s with stack := stack, broken := s.broken ++ [k.cause] }
  | .message event => some (receive serverOrigin s event)
  | .click overlay =>
      if overlay ∈ s.overlays then
        some (run .click [.call (.onExit [("reason", .str "overlay_click")]), .close] s)
      else none
  | .closeTimer =>
      if s.stack = [] ∧ 0 < s.closeTimers then
        some (run .lifecycle [.close] { s with closeTimers := s.closeTimers - 1 })
      else none
  | .removeOverlay overlay =>
      if s.stack = [] ∧ overlay ∈ s.removals then
        some { s with
          overlays := s.overlays.erase overlay
          removals := s.removals.erase overlay }
      else none

/-! ## Openings and closings -/

def Entry.phase? : Entry → Option Phase
  | .phase p => some p
  | .called .. => none

/-- A callback that is called for a method. -/
def Entry.announcement? : Entry → Option Callback
  | .called .lifecycle callback => some callback
  | _ => none

/-- How a phase is announced to the host. -/
def Phase.announcement? : Phase → Option Callback
  | .opened => some (.onEvent (.str "OPEN") (.obj []))
  | .failed => none
  | .closed => some (.onEvent (.str "CLOSE") (.obj []))

/-- The openings and closings of a history. -/
def phasesOf (history : List Entry) : List Phase := history.filterMap Entry.phase?

/-- The callbacks of a history that were called for a method. -/
def announcements (history : List Entry) : List Callback :=
  history.filterMap Entry.announcement?

def State.phases (s : State) : List Phase := phasesOf s.history

/-- The last phase; a new widget is closed. -/
def State.lastPhase (s : State) : Phase :=
  s.phases.getLastD .closed

/-- A closing comes after an opening, and an opening after a closing. -/
def Follows (p q : Phase) : Prop := p = .closed ↔ q ≠ .closed

def Task.callback? : Task → Option Callback
  | .call callback => some callback
  | _ => none

/-- The callbacks that are still to be called. -/
def callbacks (tasks : List Task) : List Callback := tasks.filterMap Task.callback?

/-- The widget is opened and closed in turns, with one announcement each, its frame is in
the document while it is open, and no overlay stays behind. -/
structure WellKept (s : State) : Prop where
  alternates : (Phase.closed :: s.phases).IsChain Follows
  announced : announcements s.history = s.phases.filterMap Phase.announcement?
  isOpen : s.isOpen = true ↔ s.lastPhase ≠ .closed
  shown : s.iframe ≠ none ↔ s.lastPhase = .opened
  iframes : s.iframes = s.iframe.toList
  overlay : s.overlay = s.iframe
  overlays : s.overlays = s.removals ++ s.overlay.toList
  deaf : s.destroyed = true → s.listening = false

/-- What waits in a method calls nothing back itself. -/
def Quiet (s : State) : Prop :=
  ∀ k, some k ∈ s.stack → k.cause = .lifecycle → callbacks k.rest = []

@[simp] theorem phasesOf_append (h h' : List Entry) :
    phasesOf (h ++ h') = phasesOf h ++ phasesOf h' := List.filterMap_append

@[simp] theorem announcements_append (h h' : List Entry) :
    announcements (h ++ h') = announcements h ++ announcements h' := List.filterMap_append

theorem isChain_concat {R : Phase → Phase → Prop} {p q : Phase} {ps : List Phase} :
    (p :: (ps ++ [q])).IsChain R ↔ (p :: ps).IsChain R ∧ R (ps.getLastD p) q := by
  rw [← List.cons_append, List.isChain_append]
  simp [List.getLast?_cons]

variable {s t : State} {cause : Cause} {tasks : List Task} {serverOrigin : String}

theorem step_call {method : Method} (h : step serverOrigin s (.call method) = some t) :
    s.stack ≠ [] ∧ t = callMethod s method := by
  simp only [step] at h
  split at h
  · cases h
  · next hrunning => exact ⟨hrunning, (Option.some.inj h).symm⟩

/-- A script of the page ends, or a callback returns. -/
theorem step_returns (h : step serverOrigin s .returns = some t) :
    (∃ stack, s.stack = none :: stack ∧ t = { s with stack := stack }) ∨
    ∃ k stack, s.stack = some k :: stack ∧ t = run k.cause k.rest { s with stack := stack } := by
  simp only [step] at h
  split at h
  · cases h
  · next stack hstack => exact .inl ⟨stack, hstack, (Option.some.inj h).symm⟩
  · next k stack hstack => exact .inr ⟨k, stack, hstack, (Option.some.inj h).symm⟩

/-- An exception ends a script of the page, or breaks the code off that waits. -/
theorem step_throws (h : step serverOrigin s .throws = some t) :
    (∃ stack, s.stack = none :: stack ∧ t = { s with stack := stack }) ∨
    ∃ k stack, s.stack = some k :: stack ∧
      t = { s with stack := stack, broken := s.broken ++ [k.cause] } := by
  simp only [step] at h
  split at h
  · cases h
  · next stack hstack => exact .inl ⟨stack, hstack, (Option.some.inj h).symm⟩
  · next k stack hstack => exact .inr ⟨k, stack, hstack, (Option.some.inj h).symm⟩

theorem step_click {overlay : Nat} (h : step serverOrigin s (.click overlay) = some t) :
    overlay ∈ s.overlays ∧
      t = run .click [.call (.onExit [("reason", .str "overlay_click")]), .close] s := by
  simp only [step] at h
  split at h
  · next hmem => exact ⟨hmem, (Option.some.inj h).symm⟩
  · cases h

theorem step_closeTimer (h : step serverOrigin s .closeTimer = some t) :
    (s.stack = [] ∧ 0 < s.closeTimers) ∧
      t = run .lifecycle [.close] { s with closeTimers := s.closeTimers - 1 } := by
  simp only [step] at h
  split at h
  · next hdue => exact ⟨hdue, (Option.some.inj h).symm⟩
  · cases h

theorem step_removeOverlay {overlay : Nat}
    (h : step serverOrigin s (.removeOverlay overlay) = some t) :
    (s.stack = [] ∧ overlay ∈ s.removals) ∧
      t = { s with
        overlays := s.overlays.erase overlay
        removals := s.removals.erase overlay } := by
  simp only [step] at h
  split at h
  · next hdue => exact ⟨hdue, (Option.some.inj h).symm⟩
  · cases h

/-- Only the openings and closings, the document and the flags of the widget matter. -/
theorem WellKept.congr (h : WellKept s) (hphases : t.phases = s.phases)
    (hannounced : announcements t.history = announcements s.history)
    (hopen : t.isOpen = s.isOpen) (hiframe : t.iframe = s.iframe) (hiframes : t.iframes = s.iframes)
    (hoverlay : t.overlay = s.overlay) (hoverlays : t.overlays = s.overlays)
    (hremovals : t.removals = s.removals)
    (hdeaf : t.destroyed = true → t.listening = false) : WellKept t := by
  have hlast : t.lastPhase = s.lastPhase := by rw [State.lastPhase, hphases, State.lastPhase]
  constructor
  · rw [hphases]
    exact h.alternates
  · rw [hannounced, hphases]
    exact h.announced
  · rw [hopen, hlast]
    exact h.isOpen
  · rw [hiframe, hlast]
    exact h.shown
  · rw [hiframes, hiframe]
    exact h.iframes
  · rw [hoverlay, hiframe]
    exact h.overlay
  · rw [hoverlays, hremovals, hoverlay]
    exact h.overlays
  · exact hdeaf

/-- A callback that is none of the methods' own announces nothing. -/
theorem WellKept.callBack (h : WellKept s) {callback : Callback} {waiting : Continuation}
    (hcause : cause ≠ .lifecycle) : WellKept (callBack s cause callback waiting) := by
  refine h.congr ?_ ?_ rfl rfl rfl rfl rfl rfl h.deaf
  · show phasesOf (s.history ++ [.called cause callback]) = phasesOf s.history
    rw [phasesOf_append]
    exact List.append_nil _
  · show announcements (s.history ++ [.called cause callback]) = announcements s.history
    rw [announcements_append]
    cases cause with
    | lifecycle => exact absurd rfl hcause
    | click | message n => exact List.append_nil _

/-- A phase that follows the last one, and is announced. -/
theorem WellKept.phase (h : WellKept s) {p : Phase} {callback : Callback} {waiting : Continuation}
    (hfollows : Follows s.lastPhase p) (hannounced : p.announcement? = some callback)
    (hhistory : t.history = s.history ++ [.phase p])
    (hopen : t.isOpen = true ↔ p ≠ .closed) (hshown : t.iframe ≠ none ↔ p = .opened)
    (hiframes : t.iframes = t.iframe.toList) (hoverlay : t.overlay = t.iframe)
    (hoverlays : t.overlays = t.removals ++ t.overlay.toList)
    (hdeaf : t.destroyed = true → t.listening = false) :
    WellKept (Widget.callBack t .lifecycle callback waiting) := by
  have hphases : (Widget.callBack t .lifecycle callback waiting).phases = s.phases ++ [p] := by
    show phasesOf (t.history ++ [.called .lifecycle callback]) = phasesOf s.history ++ [p]
    rw [hhistory, phasesOf_append, phasesOf_append]
    exact List.append_nil _
  have hlast : (Widget.callBack t .lifecycle callback waiting).lastPhase = p := by
    rw [State.lastPhase, hphases, List.getLastD_concat]
  refine ⟨?_, ?_, ?_, ?_, hiframes, hoverlay, hoverlays, hdeaf⟩
  · rw [hphases]
    exact isChain_concat.mpr ⟨h.alternates, hfollows⟩
  · rw [hphases, List.filterMap_append, ← h.announced]
    show announcements (t.history ++ [.called .lifecycle callback]) = _
    rw [hhistory, announcements_append, announcements_append, List.append_assoc]
    refine congrArg _ ?_
    rw [List.filterMap_cons_some hannounced]
    rfl
  · rw [hlast]
    exact hopen
  · rw [hlast]
    exact hshown

/-- `close` on an open widget takes its frame away and leaves its overlay to a timer. -/
theorem WellKept.close (h : WellKept s) (hopen : s.isOpen = true) {waiting : Continuation} :
    WellKept (Widget.callBack
      { teardownUI s with isOpen := false, history := s.history ++ [.phase .closed] }
      .lifecycle (.onEvent (.str "CLOSE") (.obj [])) waiting) := by
  have hlast := h.isOpen.mp hopen
  have hoverlays : s.overlays = (s.removals ++ s.overlay.toList) ++ [] := by
    rw [List.append_nil]
    exact h.overlays
  -- the overlay goes to the removals, so the overlays of the document are the same
  refine h.phase ?_ rfl rfl (by simp) (by simp [teardownUI]) ?_ rfl hoverlays h.deaf
  · simp [Follows, hlast]
  · show s.iframe.elim s.iframes s.iframes.erase = []
    rw [h.iframes]
    cases s.iframe with
    | none => rfl
    | some n => simp

/-- `open` shows a frame if it comes to its end. -/
theorem openWidget_wellKept (h : WellKept s) : WellKept (openWidget s) := by
  unfold openWidget
  split
  · exact h
  · next hdestroyed =>
    split
    · exact h
    · next hclosed =>
      have hlast : s.lastPhase = .closed := by
        by_contra hne
        exact hclosed (h.isOpen.mpr hne)
      have hiframe : s.iframe = none := by
        by_contra hne
        have hopened := h.shown.mp hne
        rw [hlast] at hopened
        cases hopened
      have hoverlay : s.overlay = none := h.overlay.trans hiframe
      have hfollows : ∀ p, p ≠ .closed → Follows s.lastPhase p := fun p hp => by
        simp [Follows, hlast, hp]
      split
      · -- the exception leaves the widget open without a frame
        have hphases : phasesOf (s.history ++ [.phase .failed]) = s.phases ++ [.failed] :=
          phasesOf_append _ _
        refine ⟨?_, ?_, ?_, ?_, h.iframes, h.overlay, h.overlays, h.deaf⟩
        · show (Phase.closed :: phasesOf (s.history ++ [.phase .failed])).IsChain Follows
          rw [hphases]
          exact isChain_concat.mpr ⟨h.alternates, hfollows _ (by simp)⟩
        · show announcements (s.history ++ [.phase .failed]) =
            (phasesOf (s.history ++ [.phase .failed])).filterMap Phase.announcement?
          rw [hphases, announcements_append, h.announced, List.filterMap_append]
          rfl
        · simp [State.lastPhase, State.phases, hphases]
        · simp [State.lastPhase, State.phases, hphases, hiframe]
      · refine h.phase (hfollows .opened (by simp)) rfl rfl (by simp) (by simp) ?_ rfl ?_ ?_
        · show s.iframes ++ [s.openings] = [s.openings]
          rw [h.iframes, hiframe]
          rfl
        · show s.overlays ++ [s.openings] = s.removals ++ [s.openings]
          rw [h.overlays, hoverlay]
          simp
        · exact fun hdestroyed' => absurd hdestroyed' hdestroyed

/-- The widget's own code keeps it well. -/
theorem run_wellKept (h : WellKept s) (hcause : cause = .lifecycle → callbacks tasks = []) :
    WellKept (run cause tasks s) := by
  induction tasks generalizing s with
  | nil => exact h
  | cons task rest ih =>
    cases task with
    | call callback =>
      refine h.callBack ?_
      intro hlifecycle
      cases hcause hlifecycle
    | close =>
      rw [run]
      split
      · next hopen => exact h.close hopen
      · exact ih h hcause
    | closeLater => exact ih (h.congr rfl rfl rfl rfl rfl rfl rfl rfl h.deaf) hcause
    | markDestroyed => exact ih (h.congr rfl rfl rfl rfl rfl rfl rfl rfl fun _ => rfl) hcause

theorem run_quiet (h : Quiet s) (hcause : cause = .lifecycle → callbacks tasks = []) :
    Quiet (run cause tasks s) := by
  induction tasks generalizing s with
  | nil => exact h
  | cons task rest ih =>
    have hpush : ∀ t : State, t.stack = s.stack →
        (cause = .lifecycle → callbacks rest = []) → ∀ c callback,
        Quiet (callBack t c callback ⟨cause, rest⟩) := by
      intro t hstack hrest c callback k hk
      rcases List.mem_cons.mp hk with hk | hk
      · obtain rfl := Option.some.inj hk
        exact hrest
      · rw [hstack] at hk
        exact h k hk
    cases task with
    | call callback =>
      refine hpush s rfl ?_ cause callback
      intro hlifecycle
      cases hcause hlifecycle
    | close =>
      rw [run]
      split
      · exact hpush { teardownUI s with isOpen := false, history := s.history ++ [.phase .closed] } rfl
          hcause .lifecycle (.onEvent (.str "CLOSE") (.obj []))
      · exact ih h hcause
    | closeLater | markDestroyed => exact ih h hcause

theorem Quiet.of_stack (h : Quiet s) (hstack : t.stack = s.stack) : Quiet t := by
  unfold Quiet
  rw [hstack]
  exact h

theorem openWidget_quiet (h : Quiet s) : Quiet (openWidget s) := by
  unfold openWidget
  split
  · exact h
  · split
    · exact h
    · split
      · exact h
      · intro k hk hcause
        rcases List.mem_cons.mp hk with hk | hk
        · rw [Option.some.inj hk]
          rfl
        · exact h k hk hcause

theorem callMethod_kept (h : WellKept s ∧ Quiet s) (method : Method) :
    WellKept (callMethod s method) ∧ Quiet (callMethod s method) := by
  cases method with
  | openWidget => exact ⟨openWidget_wellKept h.1, openWidget_quiet h.2⟩
  | close | destroy => exact ⟨run_wellKept h.1 fun _ => rfl, run_quiet h.2 fun _ => rfl⟩

theorem receive_kept (h : WellKept s ∧ Quiet s) (event : MessageEvent) :
    WellKept (receive serverOrigin s event) ∧ Quiet (receive serverOrigin s event) := by
  have hkept : WellKept { s with events := s.events ++ [(event, s.listening)] } :=
    h.1.congr rfl rfl rfl rfl rfl rfl rfl rfl h.1.deaf
  unfold receive
  dsimp only
  split
  · exact ⟨run_wellKept hkept nofun, run_quiet (h.2.of_stack rfl) nofun⟩
  · exact ⟨hkept, h.2.of_stack rfl⟩

/-- The code that waited goes on, or an exception breaks it off. -/
theorem resume_kept (h : WellKept s ∧ Quiet s) {k : Continuation}
    {stack : List (Option Continuation)} (hstack : s.stack = some k :: stack) :
    (WellKept (run k.cause k.rest { s with stack := stack }) ∧
      Quiet (run k.cause k.rest { s with stack := stack })) ∧
    WellKept { s with stack := stack, broken := s.broken ++ [k.cause] } ∧
      Quiet { s with stack := stack, broken := s.broken ++ [k.cause] } := by
  have hkept : WellKept { s with stack := stack } :=
    h.1.congr rfl rfl rfl rfl rfl rfl rfl rfl h.1.deaf
  have hbroken : WellKept { s with stack := stack, broken := s.broken ++ [k.cause] } :=
    h.1.congr rfl rfl rfl rfl rfl rfl rfl rfl h.1.deaf
  have hquiet : Quiet { s with stack := stack } := by
    intro k' hk'
    refine h.2 k' ?_
    rw [hstack]
    exact List.mem_cons_of_mem _ hk'
  have hrest : k.cause = .lifecycle → callbacks k.rest = [] := by
    refine h.2 k ?_
    rw [hstack]
    exact List.mem_cons_self
  exact ⟨⟨run_wellKept hkept hrest, run_quiet hquiet hrest⟩, hbroken, hquiet.of_stack rfl⟩

/-- Nothing waits for a script of the page. -/
theorem scriptEnds_kept (h : WellKept s ∧ Quiet s) {stack : List (Option Continuation)}
    (hstack : s.stack = none :: stack) :
    WellKept { s with stack := stack } ∧ Quiet { s with stack := stack } := by
  refine ⟨h.1.congr rfl rfl rfl rfl rfl rfl rfl rfl h.1.deaf, ?_⟩
  intro k hk
  refine h.2 k ?_
  rw [hstack]
  exact List.mem_cons_of_mem _ hk

theorem step_kept {l : Label} (h : WellKept s ∧ Quiet s) (hstep : step serverOrigin s l = some t) :
    WellKept t ∧ Quiet t := by
  cases l with
  | bodyParsed =>
    obtain rfl := Option.some.inj hstep
    exact ⟨h.1.congr rfl rfl rfl rfl rfl rfl rfl rfl h.1.deaf, h.2.of_stack rfl⟩
  | script =>
    obtain rfl := Option.some.inj hstep
    refine ⟨h.1.congr rfl rfl rfl rfl rfl rfl rfl rfl h.1.deaf, ?_⟩
    intro k hk
    rcases List.mem_cons.mp hk with hk | hk
    · cases hk
    · exact h.2 k hk
  | call method =>
    obtain ⟨-, rfl⟩ := step_call hstep
    exact callMethod_kept h method
  | returns =>
    obtain ⟨stack, hstack, rfl⟩ | ⟨k, stack, hstack, rfl⟩ := step_returns hstep
    · exact scriptEnds_kept h hstack
    · exact (resume_kept h hstack).1
  | throws =>
    obtain ⟨stack, hstack, rfl⟩ | ⟨k, stack, hstack, rfl⟩ := step_throws hstep
    · exact scriptEnds_kept h hstack
    · exact (resume_kept h hstack).2
  | message event =>
    obtain rfl := Option.some.inj hstep
    exact receive_kept h event
  | click overlay =>
    obtain ⟨-, rfl⟩ := step_click hstep
    exact ⟨run_wellKept h.1 nofun, run_quiet h.2 nofun⟩
  | closeTimer =>
    obtain ⟨-, rfl⟩ := step_closeTimer hstep
    exact ⟨run_wellKept (h.1.congr rfl rfl rfl rfl rfl rfl rfl rfl h.1.deaf) fun _ => rfl,
      run_quiet (h.2.of_stack rfl) fun _ => rfl⟩
  | removeOverlay overlay =>
    obtain ⟨⟨-, hpending⟩, rfl⟩ := step_removeOverlay hstep
    refine ⟨⟨h.1.alternates, h.1.announced, h.1.isOpen, h.1.shown, h.1.iframes, h.1.overlay, ?_,
      h.1.deaf⟩, h.2.of_stack rfl⟩
    -- a timer was set when its overlay was given up, so it is not the current one
    show s.overlays.erase overlay = s.removals.erase overlay ++ s.overlay.toList
    rw [h.1.overlays, List.erase_append_left _ hpending]

/-- A new widget, before the page has a body. -/
def State.initial : State := {}

theorem initial_kept : WellKept State.initial ∧ Quiet State.initial := by
  refine ⟨⟨by simp [State.initial, State.phases, phasesOf], rfl, ?_, ?_, rfl, rfl, rfl, nofun⟩, ?_⟩
  · simp [State.initial, State.lastPhase, State.phases, phasesOf]
  · simp [State.initial, State.lastPhase, State.phases, phasesOf]
  · intro k hk
    cases hk

/-- Whatever the host does in its callbacks and whatever happens in the page, the widget
is opened and closed in turns. -/
theorem exec_wellKept {labels : List Label}
    (h : Runs.exec (step serverOrigin) State.initial labels = some s) : WellKept s :=
  (Runs.invariant (I := fun s => WellKept s ∧ Quiet s)
    (fun _ _ _ hs hstep => step_kept hs hstep) initial_kept h).1

/-- The host destroys the widget, and opens it again in the callback that it is closed. -/
def reopened : List Label :=
  [.bodyParsed, .script, .call .openWidget, .returns, .call .destroy, .call .openWidget, .returns,
    .returns]

/-- It is destroyed and shown. -/
theorem reopened_wellKept : ∃ s,
    Runs.exec (step "https://api.test") State.initial reopened = some s ∧ WellKept s ∧
      (s.phases, s.destroyed, s.iframes) = ([.opened, .closed, .opened], true, [1]) := by
  have hview : (Runs.exec (step "https://api.test") State.initial reopened).map
      (fun s => (s.phases, s.destroyed, s.iframes)) =
        some ([.opened, .closed, .opened], true, [1]) := by
    decide +kernel
  obtain ⟨s, hs, hview⟩ := Option.map_eq_some_iff.mp hview
  exact ⟨s, hs, exec_wellKept hs, hview⟩

end Plaidify.HostedLink.Widget
