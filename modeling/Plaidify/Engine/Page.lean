import Plaidify.Engine.Policy
import Plaidify.Lib.Raising
import Plaidify.Lib.Traces

/-!
# The page and what is called on it

The engine drives a Playwright page. What a call answers, or that it raises, is up
to the page, which may take everything into account that happened before. So a
page is a function of the calls so far, and the calls are kept in a log, each with
the phase of the policy in which it was made. Questions to the MFA manager, the
selector cache and the language models are in the log too.
-/

namespace Plaidify.Engine

open Principals (PyText)

/-! ## Exceptions -/

/-- What a call raises. -/
inductive Fault where
  | timeout (message : String)
  | llmProvider (message : String)
  /-- Any other `Exception`. -/
  | error (message : String)
  /-- `asyncio.CancelledError`, which is no `Exception`. -/
  | cancelled

inductive Exc where
  | fault (fault : Fault)
  | connectionFailed (site detail : String)
  | readOnlyPolicyViolation (detail : String) (metadata : Option Dict)
  | siteUnavailable (site detail : String)
  | dataExtraction (site detail : String)
  | mfaRequired (site mfaType sessionId : String)

/-- Whether `except Exception` catches it. -/
def Exc.isException : Exc → Bool
  | .fault .cancelled => false
  | _ => true

def Fault.message : Fault → String
  | .timeout message | .llmProvider message | .error message => message
  | .cancelled => ""

/-! ## Calls -/

/-- The part of the program that makes a call. -/
inductive Caller where
  | engine
  | step (action : StepAction)
  | mfa
  /-- `DataExtractor`, for a field, a row or a cell. -/
  | extractor
  /-- `DataExtractor`, for the next page of a list. -/
  | pagination
  /-- The language models and the selector cache. -/
  | adaptive

/-- An `ElementHandle`. -/
abbrev Element := Nat

/-- Selectors of extraction fields may come from the cache, which holds any value. -/
inductive Call where
  | newPage
  | goto (url : String) (timeout : Int)
  | waitForSelector (selector : Json) (timeout : Int) (state : String)
  | fill (selector value : String)
  | evalOnSelector (selector : String)
  /-- `async with page.expect_navigation`, entered and left. -/
  | expectNavigation (timeout : Int)
  | navigated
  | click (selector : String)
  | screenshot (path : String)
  | scrollIntoView (selector : String)
  | evaluate (script : String)
  | selectOption (selector value : String)
  | frameLocator (selector : String)
  | waitForLoadState (timeout : Option Int)
  | waitForTimeout (milliseconds : Int)
  | querySelector (selector : Json)
  | querySelectorAll (selector : Json)
  | elementQuerySelector (element : Element) (selector : Json)
  | getAttribute (element : Element) (name : String)
  | innerText (element : Element)
  | elementClick (element : Element)
  /-- The path of `page.url`. -/
  | urlPath
  | content
  /-- Whether the viewport is larger than the vision model takes. -/
  | viewportExceeds
  | setViewportSize
  | captureScreenshot
  | close
  -- not on the page
  | acquireContext
  | releaseContext
  | createMfaSession (mfaType : String) (question : Option String)
  | waitForCode
  | removeMfaSession
  /-- How many times the poll for a push approval gets round. -/
  | pushRounds
  | sleep (milliseconds : Int)
  | cachedSelectors (domain path : String)
  | recordSuccess (domain path : String)
  | recordFailure (domain path : String)
  /-- Whether a provider is configured. -/
  | createProvider
  /-- The simplified DOM as a prompt, its answer, and the cache of its selectors. -/
  | llmExtract (html : String)
  | visionExtract
  | closeProvider

/-- The type of an answer. -/
@[reducible] def Call.Reply : Call → Type
  | .goto .. => Option Nat
  | .waitForSelector .. | .querySelector _ | .elementQuerySelector .. => Option Element
  | .evalOnSelector _ => Json
  | .querySelectorAll _ => List Element
  | .getAttribute .. | .waitForCode => Option String
  | .innerText _ | .urlPath | .content => String
  | .viewportExceeds | .createProvider => Bool
  | .pushRounds => Nat
  | .cachedSelectors .. | .visionExtract => Option Dict
  | .llmExtract _ => Dict
  | _ => Unit

/-- A click on the page. -/
def Call.isClick : Call → Bool
  | .click _ | .elementClick _ => true
  | _ => false

/-- A call that fills or selects. -/
def Call.isEntry : Call → Bool
  | .fill .. | .selectOption .. => true
  | _ => false

/-! ## The log -/

inductive Event where
  | called (phase : ExecutionPhase) (caller : Caller) (call : Call)
      (answer : Except Fault call.Reply)
  /-- `evaluate_click` judged a selector. -/
  | evaluatedClick (phase : ExecutionPhase) (selector : String) (reason : Option String)

def Event.isClick : Event → Bool
  | .called _ _ call _ => call.isClick
  | .evaluatedClick .. => false

structure World where
  policy : ReadOnlyExecutionPolicy
  log : List Event := []

/-- Append to the log. -/
def World.note (w : World) (e : Event) : World :=
  { w with log := w.log ++ [e] }

@[simp] theorem World.note_policy (w : World) (e : Event) : (w.note e).policy = w.policy := rfl

@[simp] theorem World.note_log (w : World) (e : Event) : (w.note e).log = w.log ++ [e] := rfl

/-- What the engine runs against. -/
structure Outside where
  py : PyText
  /-- The answer to a call after what happened so far. -/
  answer : List Event → (call : Call) → Except Fault call.Reply
  /-- `apply_transform` and `coerce_type` with the transform and the type of a
  field; an exception is its text. -/
  convert : (transform type : Json) → String → Except String Json

abbrev Drive (α : Type) := Raising Exc World α

variable (x : Outside)

/-- Make a call. -/
def ask (caller : Caller) (call : Call) : Drive call.Reply := do
  let w ← get
  let answer := x.answer w.log call
  set (w.note (.called w.policy.phase caller call answer))
  match answer with
  | .ok reply => pure reply
  | .error fault => throw (.fault fault)

/-- `policy.set_phase`. -/
def setPhase (phase : ExecutionPhase) : Drive Unit :=
  modify fun w => { w with policy := w.policy.setPhase phase }

/-- `policy.record_blocked`. -/
def recordBlocked (action reason : String) (target : Option String) : Drive Unit :=
  modify fun w => { w with policy := w.policy.recordBlocked action reason target }

/-- `policy.evaluate_click`. -/
def evaluateClick (selector : String) (metadata : Dict) : Drive (Option String) := do
  let w ← get
  let reason := w.policy.evaluateClick x.py selector metadata
  set (w.note (.evaluatedClick w.policy.phase selector reason))
  pure reason

end Plaidify.Engine
