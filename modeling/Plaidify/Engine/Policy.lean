import Plaidify.Principals.Scopes

/-!
# The read-only policy

`ReadOnlyExecutionPolicy` of `src/src/core/read_only_policy.py` and the steps of a
blueprint that it judges. The descriptor of a click is lower-cased and reduced to
words of ASCII letters and digits, so that the patterns of `RISKY_CLICK_PATTERNS`
are patterns of whole words.
-/

namespace Plaidify.Engine

open Principals (PyText)

/-- A Python dictionary with string keys. -/
abbrev Dict := List (String × Json)

/-! ## Steps -/

/-- The actions of a step. -/
inductive StepAction where
  | goto
  | fill
  | click
  | wait
  | screenshot
  | extract
  | conditional
  | scroll
  | select
  | iframe
  | waitForNavigation
  | executeJs
deriving DecidableEq

def StepAction.value : StepAction → String
  | .goto => "goto"
  | .fill => "fill"
  | .click => "click"
  | .wait => "wait"
  | .screenshot => "screenshot"
  | .extract => "extract"
  | .conditional => "conditional"
  | .scroll => "scroll"
  | .select => "select"
  | .iframe => "iframe"
  | .waitForNavigation => "wait_for_navigation"
  | .executeJs => "execute_js"

/-- The fields of a `BlueprintStep` apart from its branches. -/
structure StepFields where
  action : StepAction
  url : Option String := none
  selector : Option String := none
  value : Option String := none
  timeout : Option Int := none
  waitForNavigation : Bool := false
  screenshotName : Option String := none
  script : Option String := none
  conditionSelector : Option String := none
  iframeSelector : Option String := none
  direction : Option String := none
  pixels : Option Int := none

/-- A `BlueprintStep`. Branches that are not given are empty. -/
inductive BlueprintStep where
  | mk (fields : StepFields) (thenSteps elseSteps : List BlueprintStep)

/-! ## The policy -/

/-- The phases of an execution. -/
inductive ExecutionPhase where
  | auth
  | mfa
  | read
  | cleanup
deriving DecidableEq

def ExecutionPhase.value : ExecutionPhase → String
  | .auth => "auth"
  | .mfa => "mfa"
  | .read => "read"
  | .cleanup => "cleanup"

/-- What the policy has refused, and why. -/
structure BlockedAction where
  phase : ExecutionPhase
  action : String
  reason : String
  target : Option String

/-- The policy, with the phase it is in and what it refused so far. -/
structure ReadOnlyExecutionPolicy where
  enabled : Bool := true
  phase : ExecutionPhase := .auth
  blockedActions : List BlockedAction := []

/-- A pattern of `RISKY_CLICK_PATTERNS`: its text, and the words it asks for. -/
structure RiskyPattern where
  pattern : String
  words : List (List String)

/-- The words on a control that make a click risky. -/
def riskyClickPatterns : List RiskyPattern :=
  [⟨"\\bpay\\s+now\\b", [["pay"], ["now"]]⟩,
    ⟨"\\b(make|submit|schedule)\\s+payment\\b", [["make", "submit", "schedule"], ["payment"]]⟩,
    ⟨"\\btransfer\\b", [["transfer"]]⟩,
    ⟨"\\bsend\\s+money\\b", [["send"], ["money"]]⟩,
    ⟨"\\bwithdraw\\b", [["withdraw"]]⟩,
    ⟨"\\bdeposit\\b", [["deposit"]]⟩,
    ⟨"\\bdelete\\b", [["delete"]]⟩,
    ⟨"\\bremove\\b", [["remove"]]⟩,
    ⟨"\\bclose\\s+account\\b", [["close"], ["account"]]⟩,
    ⟨"\\breplace\\s+card\\b", [["replace"], ["card"]]⟩,
    ⟨"\\bupload\\b", [["upload"]]⟩,
    ⟨"\\bsave\\s+changes?\\b", [["save"], ["change", "changes"]]⟩,
    ⟨"\\bupdate\\s+profile\\b", [["update"], ["profile"]]⟩,
    ⟨"\\bconfirm\\s+(payment|transfer)\\b", [["confirm"], ["payment", "transfer"]]⟩,
    ⟨"\\bapprove\\b", [["approve"]]⟩]

/-- The words of `_normalize_descriptor`. -/
def normalizeDescriptor (py : PyText) (value : String) : List String :=
  (((py.lower value).toList.splitOnP fun c => !(c.isLower || c.isDigit)).filter
    (· ≠ [])).map String.ofList

/-- The pattern matches at the first word. -/
def matchesHere : List (List String) → List String → Bool
  | [], _ => true
  | _ :: _, [] => false
  | alternatives :: pattern, word :: words => alternatives.contains word && matchesHere pattern words

/-- `pattern.search`. -/
def RiskyPattern.search (pattern : RiskyPattern) (descriptor : List String) : Bool :=
  descriptor.tails.any (matchesHere pattern.words)

namespace ReadOnlyExecutionPolicy

def setPhase (policy : ReadOnlyExecutionPolicy) (phase : ExecutionPhase) :
    ReadOnlyExecutionPolicy :=
  { policy with phase }

def recordBlocked (policy : ReadOnlyExecutionPolicy) (action reason : String)
    (target : Option String) : ReadOnlyExecutionPolicy :=
  { policy with
    blockedActions := policy.blockedActions ++ [{ phase := policy.phase, action, reason, target }] }

def toMetadata (policy : ReadOnlyExecutionPolicy) : Dict :=
  [("enabled", .bool policy.enabled),
    ("final_phase", .str policy.phase.value),
    ("blocked_action_count", .int policy.blockedActions.length),
    ("blocked_actions", .arr (policy.blockedActions.map fun blocked => .obj
      [("phase", .str blocked.phase.value), ("action", .str blocked.action),
        ("reason", .str blocked.reason), ("target", (blocked.target.map Json.str).getD .null)]))]

/-- `evaluate_step`, which looks at the action only. -/
def evaluateStep (policy : ReadOnlyExecutionPolicy) (action : StepAction) : Option String :=
  if policy.enabled then
    match policy.phase with
    | .auth | .mfa => none
    | .read | .cleanup =>
        match action with
        | .fill | .select => some
            s!"{action.value} steps are blocked after authentication in strict read-only mode"
        | .executeJs =>
            some "execute_js steps are blocked after authentication in strict read-only mode"
        | _ => none
  else none

def evaluateClick (py : PyText) (policy : ReadOnlyExecutionPolicy) (selector : String)
    (metadata : Dict) : Option String :=
  if policy.enabled ∧ policy.phase = .read then
    let descriptorParts :=
      selector :: (metadata.filter fun m => m.2.truthy).map fun m => py.str m.2
    let descriptor := normalizeDescriptor py (" ".intercalate descriptorParts)
    (riskyClickPatterns.find? fun pattern => pattern.search descriptor).map fun pattern =>
      "click target matched a risky action pattern after authentication: " ++ pattern.pattern
  else none

/-- What a step must not be once the phase is over in which it may write. -/
theorem evaluateStep_eq_none {policy : ReadOnlyExecutionPolicy} {action : StepAction}
    (henabled : policy.enabled = true) (h : policy.evaluateStep action = none)
    (hphase : policy.phase = .read ∨ policy.phase = .cleanup) :
    action ≠ .fill ∧ action ≠ .select ∧ action ≠ .executeJs := by
  unfold evaluateStep at h
  rw [if_pos henabled] at h
  rcases hphase with hphase | hphase
  · cases action <;> simp [hphase] at h ⊢
  · cases action <;> simp [hphase] at h ⊢

end ReadOnlyExecutionPolicy

end Plaidify.Engine
