import Plaidify.Engine.Extraction
import Plaidify.Engine.Steps

/-!
# The execution of a blueprint

`_execute_blueprint` of `src/src/core/engine.py`: login, MFA, extraction and cleanup
on one page, with the phase of the policy set before each of them.
-/

namespace Plaidify.Engine

inductive MFAType where
  | otpInput
  | emailCode
  | securityQuestion
  | push
deriving DecidableEq

def MFAType.value : MFAType → String
  | .otpInput => "otp_input"
  | .emailCode => "email_code"
  | .securityQuestion => "security_question"
  | .push => "push"

structure MFAConfig where
  detectionSelector : String
  detectionTimeout : Int := 3000
  type : MFAType
  inputSelector : Option String := none
  submitSelector : Option String := none
  questionSelector : Option String := none
  pollInterval : Option Int := some 2000

/-- `BlueprintV2`, as far as its execution reads it. -/
structure Blueprint where
  authSteps : List BlueprintStep
  mfa : Option MFAConfig := none
  plan : ExtractionPlan
  extract : FieldDefs := []
  cleanup : List BlueprintStep := []

variable (x : Outside)

/-! ## MFA -/

/-- The polls of `_handle_push_mfa` before the time is up. -/
def pollPush (mfa : MFAConfig) (site : String) : Nat → Drive Unit
  | 0 => throw (.mfaRequired site "push" "")
  | rounds + 1 => do
      let gone ← tryCatch
        (do
          let element : Option Element ← ask x .mfa (.querySelector (.str mfa.detectionSelector))
          pure element.isNone)
        fun exc => if exc.isException then pure true else throw exc
      if gone then pure ()
      else
        ask x .mfa (.sleep (orDefault mfa.pollInterval 2000))
        pollPush mfa site rounds

/-- `_handle_push_mfa`. -/
def handlePushMfa (mfa : MFAConfig) (site : String) : Drive Unit := do
  let rounds : Nat ← ask x .mfa .pushRounds
  pollPush x mfa site rounds

/-- The text of a security question. -/
def readQuestion (mfa : MFAConfig) : Drive (Option String) :=
  match given mfa.questionSelector with
  | none => pure none
  | some selector =>
      if mfa.type = .securityQuestion then
        tryCatch
          (do
            let element : Option Element ← ask x .mfa (.querySelector (.str selector))
            match element with
            | none => pure none
            | some element => do
                let question : String ← ask x .mfa (.innerText element)
                pure (some question))
          fun exc => if exc.isException then pure none else throw exc
      else pure none

/-- Enter the code of the user. -/
def enterCode (mfa : MFAConfig) (code : String) : Drive Unit :=
  match given mfa.inputSelector with
  | none => pure ()
  | some input => do
      ask x .mfa (.fill input code)
      match given mfa.submitSelector with
      | none => pure ()
      | some submit => do
          ask x .mfa (.click submit)
          ask x .mfa (.waitForLoadState none)

/-- `_handle_mfa`, once a prompt was detected. -/
def promptMfa (mfa : MFAConfig) (site sessionId : String) : Drive Unit := do
  let question ← readQuestion x mfa
  if mfa.type = .push then handlePushMfa x mfa site
  else
    ask x .mfa (.createMfaSession mfa.type.value question)
    let code : Option String ← ask x .mfa .waitForCode
    match given code with
    | none => do
        ask x .mfa .removeMfaSession
        throw (.mfaRequired site mfa.type.value sessionId)
    | some code => enterCode x mfa code

/-- `_handle_mfa`, which never has a result of its own. -/
def handleMfa (mfa : MFAConfig) (site sessionId : String) : Drive Unit := do
  let detected ← tryCatch
    (do
      let _ ← ask x .mfa
        (.waitForSelector (.str mfa.detectionSelector) mfa.detectionTimeout "visible")
      pure true)
    fun
      | .fault (.timeout _) => pure false
      | exc => throw exc
  if detected then promptMfa x mfa site sessionId else pure ()

/-! ## The engine -/

/-- The answer of a connection. -/
structure Connected where
  data : Dict
  extractionMethod : String
  readOnlyPolicy : Option Dict

/-- Step 3 of `_execute_blueprint`. -/
def extractData (blueprint : Blueprint) (site : String) (defs : FieldDefs) :
    Drive (Dict × String) :=
  match defs with
  | [] => pure ([], "none")
  | defs =>
      if blueprint.plan.adaptive then extractLlmAdaptive x blueprint.plan defs site
      else do
        let data ← extract x site defs
        pure (data, "css_selectors")

/-- Step 4. A cleanup that fails does not matter. -/
def runCleanup (executor : StepExecutor) (cleanup : List BlueprintStep) : Drive Unit :=
  match cleanup with
  | [] => pure ()
  | steps => do
      setPhase .cleanup
      tryCatch (executeSteps x executor steps)
        fun exc => if exc.isException then pure () else throw exc

/-- Steps 1 and 2: the login and its MFA. -/
def authenticate (executor : StepExecutor) (blueprint : Blueprint) (site sessionId : String) :
    Drive Unit := do
  setPhase .auth
  executeSteps x executor blueprint.authSteps
  match blueprint.mfa with
  | none => pure ()
  | some mfa => do
      setPhase .mfa
      handleMfa x mfa site sessionId

/-- The `try` of `_execute_blueprint`. -/
def runBlueprint (enabled : Bool) (blueprint : Blueprint) (site username password sessionId : String)
    (extractFields : Option (List String)) : Drive Connected := do
  let executor : StepExecutor := {
    vars := [("username", username), ("password", password)]
    allowJsExecution := true
    guarded := enabled
    site }
  authenticate x executor blueprint site sessionId
  setPhase .read
  let (data, extractionMethod) ←
    extractData x blueprint site (extractionDefs blueprint.extract extractFields)
  runCleanup x executor blueprint.cleanup
  let w ← get
  pure {
    data
    extractionMethod
    readOnlyPolicy := if enabled then some w.policy.toMetadata else none }

/-- The `except` clauses of `_execute_blueprint`. -/
def blueprintRaised (enabled : Bool) (site : String) : Exc → Drive Connected
  | .readOnlyPolicyViolation detail metadata => do
      let w ← get
      throw (.readOnlyPolicyViolation detail
        (if enabled then some [("read_only_policy", .obj w.policy.toMetadata)] else metadata))
  | .fault .cancelled => throw (.fault .cancelled)
  | .fault fault => throw (.connectionFailed site fault.message)
  | exc => throw exc

/-- `page.close()`, if there is a page. -/
def closePage (opened : Bool) : Drive Unit :=
  if opened then
    tryCatch (ask x .engine .close)
      fun exc => if exc.isException then pure () else throw exc
  else pure ()

/-- Its `finally` clause. -/
def release (opened : Bool) : Drive Unit := do
  closePage x opened
  ask x .engine .releaseContext

/-- `_execute_blueprint`. -/
def executeBlueprint (enabled : Bool) (blueprint : Blueprint)
    (site username password sessionId : String) (extractFields : Option (List String)) :
    Drive Connected := do
  ask x .engine .acquireContext
  -- without a page there is none to close
  let opened ← tryCatch
    (do
      ask x .engine .newPage
      pure (Except.ok ()))
    fun exc => pure (Except.error exc)
  match opened with
  | .error exc => tryFinally (blueprintRaised enabled site exc) (release x false)
  | .ok () =>
      tryFinally
        (tryCatch
          (runBlueprint x enabled blueprint site username password sessionId extractFields)
          (blueprintRaised enabled site))
        (release x true)

/-- Before the engine starts. -/
def World.init (enabled : Bool) : World where
  policy := { enabled }

/-- The log of an execution, however it ends. -/
def executionLog (enabled : Bool) (blueprint : Blueprint)
    (site username password sessionId : String) (extractFields : Option (List String)) :
    List Event :=
  (Raising.after (executeBlueprint x enabled blueprint site username password sessionId
    extractFields) (World.init enabled)).2.log

end Plaidify.Engine
