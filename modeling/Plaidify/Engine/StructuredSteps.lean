import Plaidify.Engine.Steps
import Plaidify.Lib.Structured

/-!
# The steps of a blueprint as a structured program

`execute_steps` runs the branches of a conditional step inside the `try` whose
`except` clause starts the other branch. The exceptions of a branch are turned into
others before they get there, so that the steps run as the program that they spell
out: `executeSteps_iff`.
-/

namespace Plaidify.Engine

open Structured

/-! ## The program -/

mutual

/-- The program that a list of steps spells out. -/
def program : List BlueprintStep → List (Stmt StepFields StepFields)
  | [] => []
  | step :: steps => stmt step :: program steps

def stmt : BlueprintStep → Stmt StepFields StepFields
  | .mk step thenSteps elseSteps =>
      if step.action = .conditional then .branch step (program thenSteps) (program elseSteps)
      else .act step

end

theorem program_eq_map (steps : List BlueprintStep) : program steps = steps.map stmt := by
  induction steps with
  | nil => rfl
  | cons step steps ih =>
      unfold program
      rw [ih, List.map_cons]

/-- An exception is a failure. -/
def ending : Except Exc Unit → Ending
  | .ok _ => .completed
  | .error _ => .failed

/-- How a computation ends, and the calls that it has made. -/
def outcome (c : Drive Unit) (w : World) : Ending × World :=
  (ending (Raising.after c w).1, (Raising.after c w).2)

variable (x : Outside) (executor : StepExecutor)

/-- What a step other than a conditional does. -/
def act (step : StepFields) : World → Ending × World :=
  outcome do
    enforceStepPolicy executor step
    dispatch x executor step (pure ()) (pure ())

/-- The test of a conditional step: its own wait, and whether that timed out. -/
def test (step : StepFields) (w : World) : Verdict × World :=
  match Raising.after (enforceStepPolicy executor step) w with
  | (.error _, w) => (.failed, w)
  | (.ok _, w) =>
      match given step.conditionSelector with
      | none => (.failed, w)
      | some selector =>
          match Raising.after (ask x (.step .conditional)
              (.waitForSelector (.str selector) (orDefault step.timeout 3000) "visible")) w with
          | (.ok _, w) => (.holds, w)
          | (.error (.fault (.timeout _)), w) => (.missed, w)
          | (.error _, w) => (.failed, w)

def machine : Machine World StepFields StepFields where
  act := act x executor
  test := test x executor

variable {x executor}

/-! ## Exceptions -/

def Exc.isTimeout : Exc → Bool
  | .fault (.timeout _) => true
  | _ => false

/-- The `except` clauses raise again, and never a timeout. -/
theorem after_stepRaised (action : StepAction) (exc : Exc) (w : World) :
    ∃ exc', Raising.after (stepRaised action exc) w = (.error exc', w) ∧
      exc'.isTimeout = false := by
  cases exc with
  | fault fault =>
      cases fault with
      | timeout message => exact ⟨_, rfl, rfl⟩
      | llmProvider message => exact ⟨_, rfl, rfl⟩
      | error message => exact ⟨_, rfl, rfl⟩
      | cancelled => exact ⟨_, rfl, rfl⟩
  | connectionFailed site detail => exact ⟨_, rfl, rfl⟩
  | readOnlyPolicyViolation detail metadata => exact ⟨_, rfl, rfl⟩
  | siteUnavailable site detail => exact ⟨_, rfl, rfl⟩
  | dataExtraction site detail => exact ⟨_, rfl, rfl⟩
  | mfaRequired site mfaType sessionId => exact ⟨_, rfl, rfl⟩

/-- What a step does is what its handler does; only the exception may be another,
and it is no timeout. -/
theorem executeStep_spec (step : StepFields) (thenSteps elseSteps : List BlueprintStep)
    (w : World) :
    outcome (executeStep x executor (.mk step thenSteps elseSteps)) w =
        outcome (do
          enforceStepPolicy executor step
          dispatch x executor step (executeSteps x executor thenSteps)
            (executeSteps x executor elseSteps)) w ∧
      ∀ exc w', Raising.after (executeStep x executor (.mk step thenSteps elseSteps)) w =
        (.error exc, w') → exc.isTimeout = false := by
  unfold executeStep outcome
  rw [Raising.after_tryCatch]
  generalize hbody : Raising.after (do
    enforceStepPolicy executor step
    dispatch x executor step (executeSteps x executor thenSteps)
      (executeSteps x executor elseSteps)) w = result
  rcases result with ⟨exc | done, t⟩
  · rcases after_stepRaised step.action exc t with ⟨exc', hraised, htimeout⟩
    simp only [hraised]
    refine ⟨rfl, ?_⟩
    rintro _ _ heq
    obtain ⟨hsame, -⟩ := Prod.mk.inj heq
    obtain rfl := Except.error.inj hsame
    exact htimeout
  · refine ⟨rfl, ?_⟩
    rintro _ _ heq
    cases (Prod.mk.inj heq).1

/-- No timeout leaves a list of steps. -/
theorem executeSteps_not_timeout {steps : List BlueprintStep} {w w' : World} {exc : Exc}
    (h : Raising.after (executeSteps x executor steps) w = (.error exc, w')) :
    exc.isTimeout = false := by
  induction steps generalizing w with
  | nil =>
      unfold executeSteps at h
      cases (Prod.mk.inj h).1
  | cons step steps ih =>
      unfold executeSteps at h
      rw [Raising.after_bind] at h
      generalize hfirst : Raising.after (executeStep x executor step) w = result at h
      rcases result with ⟨first | done, t⟩
      · obtain ⟨hsame, -⟩ := Prod.mk.inj h
        obtain rfl := Except.error.inj hsame
        rcases step with ⟨step, thenSteps, elseSteps⟩
        exact (executeStep_spec step thenSteps elseSteps w).2 _ _ hfirst
      · exact ih h

/-! ## The steps run as their program -/

/-- What a conditional step comes to after its policy. -/
theorem outcome_stepConditional {step : StepFields} {thenSteps elseSteps : Drive Unit}
    {selector : String} (hselector : given step.conditionSelector = some selector)
    (hraised : ∀ w w' exc, Raising.after thenSteps w = (.error exc, w') → exc.isTimeout = false)
    (w : World) :
    outcome (stepConditional x step thenSteps elseSteps) w =
      match Raising.after (ask x (.step .conditional)
          (.waitForSelector (.str selector) (orDefault step.timeout 3000) "visible")) w with
      | (.ok _, w) => outcome thenSteps w
      | (.error exc, w) => if exc.isTimeout then outcome elseSteps w else (.failed, w) := by
  unfold outcome stepConditional
  simp only [hselector, Raising.after_tryCatch, Raising.after_bind]
  generalize Raising.after (ask x (.step .conditional)
    (.waitForSelector (.str selector) (orDefault step.timeout 3000) "visible")) w = waited
  rcases waited with ⟨exc | found, w₁⟩
  · cases exc with
    | fault fault => cases fault <;> rfl
    | _ => rfl
  · rcases hbranch : Raising.after thenSteps w₁ with ⟨exc | done, w₂⟩
    · -- an exception of the branch goes through the handler as it is
      have htimeout := hraised w₁ w₂ exc hbranch
      simp only [hbranch]
      cases exc with
      | fault fault =>
          cases fault with
          | timeout message => cases htimeout
          | _ => rfl
      | _ => rfl
    · simp only [hbranch]

/-- A conditional step runs as its branch, if its branches run as theirs. -/
theorem stepConditional_runs {step : StepFields} (hconditional : step.action = .conditional)
    {thenSteps elseSteps : List BlueprintStep}
    (hthen : ∀ w, Runs (machine x executor) (program thenSteps) w
      (outcome (executeSteps x executor thenSteps) w).1
      (outcome (executeSteps x executor thenSteps) w).2)
    (helse : ∀ w, Runs (machine x executor) (program elseSteps) w
      (outcome (executeSteps x executor elseSteps) w).1
      (outcome (executeSteps x executor elseSteps) w).2) {w w' : World} {e : Ending}
    (h : outcome (do
      enforceStepPolicy executor step
      dispatch x executor step (executeSteps x executor thenSteps)
        (executeSteps x executor elseSteps)) w = (e, w')) :
    RunsStmt (machine x executor) (.branch step (program thenSteps) (program elseSteps))
      w e w' := by
  rcases hpolicy : Raising.after (enforceStepPolicy executor step) w with ⟨refused | ⟨⟩, w₁⟩
  · -- the policy refuses the step
    have htest : (machine x executor).test step w = (.failed, w₁) := by
      show test x executor step w = _
      simp [test, hpolicy]
    have hfailed : (Ending.failed, w₁) = (e, w') := by
      rw [← h]
      simp [outcome, Raising.after_bind, hpolicy, ending]
    obtain ⟨rfl, rfl⟩ := Prod.mk.inj hfailed
    exact .noBranch htest
  · have hstep : outcome (stepConditional x step (executeSteps x executor thenSteps)
        (executeSteps x executor elseSteps)) w₁ = (e, w') := by
      rw [← h]
      simp [outcome, Raising.after_bind, hpolicy, dispatch, hconditional]
    cases hselector : given step.conditionSelector with
    | none =>
        -- a condition without a selector cannot be asked for
        have htest : (machine x executor).test step w = (.failed, w₁) := by
          show test x executor step w = _
          simp [test, hpolicy, hselector]
        have hfailed : (Ending.failed, w₁) = (e, w') := by
          rw [← hstep]
          simp [outcome, stepConditional, hselector, ending]
        obtain ⟨rfl, rfl⟩ := Prod.mk.inj hfailed
        exact .noBranch htest
    | some selector =>
        rw [outcome_stepConditional hselector
          fun w w' exc hraised => executeSteps_not_timeout hraised] at hstep
        rcases hwait : Raising.after (ask x (.step .conditional)
          (.waitForSelector (.str selector) (orDefault step.timeout 3000) "visible")) w₁ with
          ⟨exc | found, w₂⟩
        · rw [hwait] at hstep
          cases htimeout : exc.isTimeout with
          | true =>
              -- the wait ran out, which the `except` takes as not met
              have htest : (machine x executor).test step w = (.missed, w₂) := by
                show test x executor step w = _
                simp only [test, hpolicy, hselector, hwait]
                cases exc with
                | fault fault =>
                    cases fault with
                    | timeout message => rfl
                    | _ => cases htimeout
                | _ => cases htimeout
              have hrun := helse w₂
              simp only [htimeout, if_true] at hstep
              rw [hstep] at hrun
              exact .elseBranch htest hrun
          | false =>
              -- any other fault leaves the step
              have htest : (machine x executor).test step w = (.failed, w₂) := by
                show test x executor step w = _
                simp only [test, hpolicy, hselector, hwait]
                cases exc with
                | fault fault =>
                    cases fault with
                    | timeout message => cases htimeout
                    | _ => rfl
                | _ => rfl
              have hfailed : (Ending.failed, w₂) = (e, w') := by
                simpa [htimeout] using hstep
              obtain ⟨rfl, rfl⟩ := Prod.mk.inj hfailed
              exact .noBranch htest
        · rw [hwait] at hstep
          -- the selector came into view
          have htest : (machine x executor).test step w = (.holds, w₂) := by
            show test x executor step w = _
            simp [test, hpolicy, hselector, hwait]
          have hbranch : outcome (executeSteps x executor thenSteps) w₂ = (e, w') := hstep
          have hrun := hthen w₂
          rw [hbranch] at hrun
          exact .thenBranch htest hrun

/-- A step that is no conditional has no use for branches. -/
theorem dispatch_eq {step : StepFields} (h : step.action ≠ .conditional)
    (thenSteps elseSteps : Drive Unit) :
    dispatch x executor step thenSteps elseSteps = dispatch x executor step (pure ()) (pure ()) := by
  unfold dispatch
  cases haction : step.action with
  | conditional => exact absurd haction h
  | _ => rfl

mutual

/-- A list of steps runs as its program. -/
theorem executeSteps_runs : ∀ (steps : List BlueprintStep) (w : World),
    Runs (machine x executor) (program steps) w (outcome (executeSteps x executor steps) w).1
      (outcome (executeSteps x executor steps) w).2
  | [], w => .nil w
  | step :: steps, w => by
      have hfirst := executeStep_runs step w
      unfold program executeSteps outcome
      rw [Raising.after_bind]
      unfold outcome at hfirst
      rcases hstep : Raising.after (executeStep x executor step) w with ⟨exc | ⟨⟩, t⟩
      · rw [hstep] at hfirst
        exact .stop hfirst
      · rw [hstep] at hfirst
        exact .next hfirst (executeSteps_runs steps t)

theorem executeStep_runs : ∀ (step : BlueprintStep) (w : World),
    RunsStmt (machine x executor) (stmt step) w (outcome (executeStep x executor step) w).1
      (outcome (executeStep x executor step) w).2
  | .mk step thenSteps elseSteps, w => by
      rw [(executeStep_spec step thenSteps elseSteps w).1]
      unfold stmt
      by_cases hconditional : step.action = .conditional
      · rw [if_pos hconditional]
        exact stepConditional_runs hconditional (executeSteps_runs thenSteps)
          (executeSteps_runs elseSteps) rfl
      · rw [if_neg hconditional, dispatch_eq hconditional]
        exact .act rfl

end

/-- The program has no other run. -/
theorem outcome_of_runs {steps : List BlueprintStep} {w w' : World} {e : Ending}
    (h : Runs (machine x executor) (program steps) w e w') :
    outcome (executeSteps x executor steps) w = (e, w') := by
  obtain ⟨rfl, rfl⟩ := runs_eq (executeSteps_runs steps w) h
  rfl

/-- `execute_steps` does what the program of its steps does, and nothing else: the
runs of the program are the way the steps end and the calls that they make. -/
theorem executeSteps_iff (x : Outside) (executor : StepExecutor) (steps : List BlueprintStep)
    (w w' : World) (e : Ending) :
    Runs (machine x executor) (program steps) w e w' ↔
      outcome (executeSteps x executor steps) w = (e, w') := by
  constructor
  · exact outcome_of_runs
  · intro houtcome
    have hrun := @executeSteps_runs x executor steps w
    rw [houtcome] at hrun
    exact hrun

end Plaidify.Engine
