import Plaidify.Engine.Page

/-!
# The steps of a blueprint

`StepExecutor` of `src/src/core/step_executor.py`: the steps of a list in turn, each
judged by the policy before it is dispatched, with the branches of a conditional
step as lists of their own.
-/

namespace Plaidify.Engine

/-- The attributes of a `StepExecutor` besides its page. The policy is the engine's;
`guarded` is whether the executor was given it. -/
structure StepExecutor where
  vars : List (String × String)
  allowJsExecution : Bool
  guarded : Bool
  site : String

/-- `value or default`. -/
def orDefault (value : Option Int) (default : Int) : Int :=
  match value with
  | none | some 0 => default
  | some value => value

/-- A string that is there and not empty. -/
def given (value : Option String) : Option String :=
  value.filter (· ≠ "")

/-! ## Interpolation -/

/-- A character of the placeholders that can name a variable. -/
def isWordChar (c : Char) : Bool :=
  c.isAlphanum || c == '_'

/-- A match of the pattern for placeholders at the start: its key, and what follows. -/
def placeholder? : List Char → Option (String × List Char)
  | '\x7b' :: '\x7b' :: cs =>
      let key := cs.takeWhile isWordChar
      match key, cs.dropWhile isWordChar with
      | _ :: _, '\x7d' :: '\x7d' :: rest => some (String.ofList key, rest)
      | _, _ => none
  | _ => none

/-- Replace placeholders; every round takes a character at least. -/
def interpolateFrom (vars : List (String × String)) : Nat → List Char → List Char
  | 0, cs => cs
  | _ + 1, [] => []
  | n + 1, c :: cs =>
      match placeholder? (c :: cs) with
      | some (key, rest) =>
          (match vars.lookup key with
            | some value => value.toList
            | none => (c :: cs).take ((c :: cs).length - rest.length)) ++
            interpolateFrom vars n rest
      | none => c :: interpolateFrom vars n cs

/-- `_interpolate`. -/
def interpolate (vars : List (String × String)) (value : String) : String :=
  String.ofList (interpolateFrom vars value.toList.length value.toList)

example : interpolate [("username", "ada")] "x\x7b\x7b\x7busername\x7d\x7d\x7b\x7bpin\x7d\x7d" =
    "x\x7bada\x7b\x7bpin\x7d\x7d" := by decide

/-! ## The policy -/

variable (x : Outside) (executor : StepExecutor)

/-- `_enforce_step_policy`. -/
def enforceStepPolicy (step : StepFields) : Drive Unit := do
  if executor.guarded then
    let w ← get
    match w.policy.evaluateStep step.action with
    | none => pure ()
    | some reason => do
        recordBlocked step.action.value reason (given step.selector <|> step.url)
        throw (.readOnlyPolicyViolation reason none)
  else pure ()

/-- `_describe_click_target`. -/
def describeClickTarget (selector : String) : Drive Dict := do
  if executor.guarded then
    tryCatch
      (do
        let metadata : Json ← ask x (.step .click) (.evalOnSelector selector)
        match metadata with
        | .obj metadata => pure metadata
        | _ => pure [])
      fun exc => if exc.isException then pure [] else throw exc
  else pure []

/-! ## Handlers -/

/-- The exception of a handler that lacks a field. -/
def missingField (detail : String) : Exc :=
  .connectionFailed "unknown" detail

def stepGoto (step : StepFields) : Drive Unit := do
  match given (step.url.map (interpolate executor.vars)) with
  | none => throw (missingField "goto step requires a 'url' field.")
  | some url =>
      tryCatch
        (do
          let response : Option Nat ← ask x (.step .goto) (.goto url (orDefault step.timeout 30000))
          match response with
          | some status =>
              if 500 ≤ status then throw (.siteUnavailable url s!"HTTP {status}") else pure ()
          | none => pure ())
        fun
          | .fault (.timeout message) =>
              throw (.siteUnavailable url s!"Navigation timeout: {message}")
          | exc => throw exc

def stepFill (step : StepFields) : Drive Unit := do
  match given step.selector with
  | none => throw (missingField "fill step requires a 'selector' field.")
  | some selector => do
      let value := (step.value.map (interpolate executor.vars)).getD ""
      let _ ← ask x (.step .fill)
        (.waitForSelector (.str selector) (orDefault step.timeout 10000) "visible")
      ask x (.step .fill) (.fill selector value)

/-- `_step_click`, once the element is there and the policy has judged it. -/
def performClick (step : StepFields) (selector : String) : Drive Unit := do
  if step.waitForNavigation then
    ask x (.step .click) (.expectNavigation (orDefault step.timeout 30000))
    ask x (.step .click) (.click selector)
    ask x (.step .click) .navigated
  else ask x (.step .click) (.click selector)

def stepClick (step : StepFields) : Drive Unit := do
  match given step.selector with
  | none => throw (missingField "click step requires a 'selector' field.")
  | some selector => do
      let _ ← ask x (.step .click)
        (.waitForSelector (.str selector) (orDefault step.timeout 10000) "visible")
      if executor.guarded then
        let metadata ← describeClickTarget x executor selector
        let reason ← evaluateClick x selector metadata
        match reason with
        | none => performClick x step selector
        | some reason => do
            recordBlocked "click" reason (some selector)
            throw (.readOnlyPolicyViolation reason none)
      else performClick x step selector

def stepWait (step : StepFields) : Drive Unit := do
  match given step.selector with
  | none => throw (missingField "wait step requires a 'selector' field.")
  | some selector => do
      let _ ← ask x (.step .wait)
        (.waitForSelector (.str selector) (orDefault step.timeout 10000) "visible")

/-- `re.sub` on a screenshot's name. -/
def screenshotPath (name : String) : String :=
  "/tmp/plaidify_screenshot_" ++ String.ofList (name.toList.map fun c =>
    if c.isAlphanum || c == '_' || c == '-' then c else '_') ++ ".png"

def stepScreenshot (step : StepFields) : Drive Unit :=
  ask x (.step .screenshot) (.screenshot (screenshotPath ((given step.screenshotName).getD "debug")))

/-- `_step_conditional`, with its branches. A timeout in a branch has been turned
into another exception before it gets here. -/
def stepConditional (step : StepFields) (thenSteps elseSteps : Drive Unit) : Drive Unit := do
  match given step.conditionSelector with
  | none => throw (missingField "conditional step requires 'condition_selector'.")
  | some selector =>
      tryCatch
        (do
          let _ ← ask x (.step .conditional)
            (.waitForSelector (.str selector) (orDefault step.timeout 3000) "visible")
          thenSteps)
        fun
          | .fault (.timeout _) => elseSteps
          | exc => throw exc

def stepScroll (step : StepFields) : Drive Unit := do
  match given step.selector with
  | some selector => ask x (.step .scroll) (.scrollIntoView selector)
  | none => do
      let pixels := step.pixels.getD 0
      if pixels = 0 then
        let _ ← ask x (.step .scroll) (.evaluate "window.scrollBy(0, 500)")
      else
        let delta := if (given step.direction).getD "down" = "down" then pixels else -pixels
        let _ ← ask x (.step .scroll) (.evaluate s!"window.scrollBy(0, {delta})")

def stepSelect (step : StepFields) : Drive Unit := do
  match given step.selector, given (step.value.map (interpolate executor.vars)) with
  | some selector, some value => ask x (.step .select) (.selectOption selector value)
  | _, _ => throw (missingField "select step requires 'selector' and 'value'.")

def stepIframe (step : StepFields) : Drive Unit := do
  match given step.iframeSelector <|> given step.selector with
  | none => throw (missingField "iframe step requires 'iframe_selector' or 'selector'.")
  | some selector => ask x (.step .iframe) (.frameLocator selector)

def stepWaitForNavigation (step : StepFields) : Drive Unit :=
  ask x (.step .waitForNavigation) (.waitForLoadState (some (orDefault step.timeout 30000)))

def stepExecuteJs (step : StepFields) : Drive Unit := do
  if executor.allowJsExecution then
    match given step.script with
    | none => throw (.connectionFailed executor.site "execute_js step requires a 'script' field.")
    | some script => do
        let _ ← ask x (.step .executeJs) (.evaluate script)
  else
    throw (.connectionFailed executor.site ("execute_js steps are not allowed for this blueprint. " ++
      "Only certified or tested blueprints may use JavaScript execution."))

/-! ## The interpreter -/

/-- The `except` clauses of `execute_steps`. -/
def stepRaised (action : StepAction) : Exc → Drive Unit
  | .fault (.timeout message) =>
      throw (.connectionFailed "unknown" s!"Step '{action.value}' timed out: {message}")
  | .fault .cancelled => throw (.fault .cancelled)
  | .fault fault =>
      throw (.connectionFailed "unknown" s!"Step '{action.value}' failed: {fault.message}")
  | exc => throw exc

/-- `_execute_step` after the policy, with the branches of the step. -/
def dispatch (step : StepFields) (thenSteps elseSteps : Drive Unit) : Drive Unit :=
  match step.action with
  | .goto => stepGoto x executor step
  | .fill => stepFill x executor step
  | .click => stepClick x executor step
  | .wait => stepWait x step
  | .screenshot => stepScreenshot x step
  | .conditional => stepConditional x step thenSteps elseSteps
  | .scroll => stepScroll x step
  | .select => stepSelect x executor step
  | .iframe => stepIframe x step
  | .waitForNavigation => stepWaitForNavigation x step
  | .executeJs => stepExecuteJs x executor step
  | .extract => throw (.connectionFailed "unknown" s!"Unknown step action: {step.action.value}")

mutual

def executeSteps : List BlueprintStep → Drive Unit
  | [] => pure ()
  | step :: steps => do
      executeStep step
      executeSteps steps

/-- `_execute_step` in the `try` of `execute_steps`. -/
def executeStep : BlueprintStep → Drive Unit
  | .mk step thenSteps elseSteps =>
      tryCatch
        (do
          enforceStepPolicy executor step
          dispatch x executor step (executeSteps thenSteps) (executeSteps elseSteps))
        (stepRaised step.action)

end

end Plaidify.Engine
