import Plaidify.Engine.Execution

/-!
# Credentials in a blueprint

The executor puts the credentials in where the texts of a step have a placeholder, all
at once: a value that is put in is not looked through again. An execution has nothing
else of the credentials, so that a blueprint without a placeholder for the password
does the same with every password.
-/

namespace Plaidify.Engine

open Raising

/-! ## Templates -/

/-- What the text of a step is made of. -/
inductive Part where
  | char (c : Char)
  | placeholder (key : String) (text : List Char)

def Part.text : Part → List Char
  | .char c => [c]
  | .placeholder _ text => text

/-- A placeholder without a value stays. -/
def Part.fill (vars : List (String × String)) : Part → List Char
  | .char c => [c]
  | .placeholder key text =>
      match vars.lookup key with
      | some value => value.toList
      | none => text

/-- The placeholders of a text from the left, in rounds like those of `interpolateFrom`. -/
def partsFrom : Nat → List Char → List Part
  | 0, cs => cs.map .char
  | _ + 1, [] => []
  | n + 1, c :: cs =>
      match placeholder? (c :: cs) with
      | some (key, rest) =>
          .placeholder key ((c :: cs).take ((c :: cs).length - rest.length)) :: partsFrom n rest
      | none => .char c :: partsFrom n cs

def parts (template : String) : List Part :=
  partsFrom template.toList.length template.toList

def Part.key? : Part → Option String
  | .char _ => none
  | .placeholder key _ => some key

/-- The variables that a text asks for. -/
def placeholders (template : String) : List String :=
  (parts template).filterMap Part.key?

theorem placeholder?_suffix {cs rest : List Char} {key : String}
    (h : placeholder? cs = some (key, rest)) : rest <:+ cs := by
  unfold placeholder? at h
  split at h
  · next tail =>
    dsimp only at h
    split at h
    · next after _ hafter =>
      obtain ⟨-, rfl⟩ := Prod.mk.inj (Option.some.inj h)
      have hsuffix : '\x7d' :: '\x7d' :: after <:+ tail := hafter ▸ List.dropWhile_suffix _
      exact ((List.suffix_cons _ _).trans (List.suffix_cons _ _)).trans
        (hsuffix.trans ((List.suffix_cons _ _).trans (List.suffix_cons _ _)))
    · cases h
  · cases h

/-- The parts make up the text. -/
theorem flatMap_text_partsFrom (n : Nat) (cs : List Char) :
    (partsFrom n cs).flatMap Part.text = cs := by
  induction n generalizing cs with
  | zero =>
    rw [partsFrom, List.flatMap_map]
    exact List.flatMap_singleton' cs
  | succ n ih =>
    cases cs with
    | nil => rfl
    | cons c cs =>
      rw [partsFrom]
      split
      · next key rest hplaceholder =>
        obtain ⟨front, hfront⟩ := placeholder?_suffix hplaceholder
        rw [List.flatMap_cons, ih, Part.text, ← hfront, List.length_append, Nat.add_sub_cancel,
          List.take_left]
      · rw [List.flatMap_cons, ih, Part.text, List.singleton_append]

theorem interpolateFrom_eq (vars : List (String × String)) (n : Nat) (cs : List Char) :
    interpolateFrom vars n cs = (partsFrom n cs).flatMap (Part.fill vars) := by
  induction n generalizing cs with
  | zero =>
    rw [partsFrom, interpolateFrom, List.flatMap_map]
    exact (List.flatMap_singleton' cs).symm
  | succ n ih =>
    cases cs with
    | nil => rfl
    | cons c cs =>
      rw [partsFrom, interpolateFrom]
      cases placeholder? (c :: cs) with
      | none =>
        dsimp only
        rw [List.flatMap_cons, ← ih, Part.fill, List.singleton_append]
      | some found =>
        cases hlookup : vars.lookup found.1 <;>
          simp only [List.flatMap_cons, Part.fill, ih, hlookup]

/-- The values are put in for the placeholders of the text all at once. -/
theorem interpolate_eq (vars : List (String × String)) (template : String) :
    (interpolate vars template).toList = (parts template).flatMap (Part.fill vars) := by
  rw [interpolate, String.toList_ofList, interpolateFrom_eq]
  rfl

theorem Part.fill_congr {vars vars' : List (String × String)} {part : Part}
    (h : ∀ key ∈ part.key?, vars.lookup key = vars'.lookup key) :
    part.fill vars = part.fill vars' := by
  cases part with
  | char c => rfl
  | placeholder key text => rw [Part.fill, Part.fill, h key rfl]

/-- A text depends on the variables that it asks for. -/
theorem interpolate_congr {vars vars' : List (String × String)} {template : String}
    (h : ∀ key ∈ placeholders template, vars.lookup key = vars'.lookup key) :
    interpolate vars template = interpolate vars' template := by
  apply String.toList_injective
  rw [interpolate_eq, interpolate_eq]
  refine List.flatMap_congr fun part hpart => Part.fill_congr fun key hkey => h key ?_
  exact List.mem_filterMap.mpr ⟨part, hpart, hkey⟩

/-! ## The texts of a blueprint -/

/-- The text of a step that is interpolated. -/
def StepFields.template (step : StepFields) : Option String :=
  match step.action with
  | .goto => step.url
  | .fill | .select => step.value
  | _ => none

mutual

/-- The texts of steps, with those of all steps nested in them. -/
def templates : List BlueprintStep → List String
  | [] => []
  | step :: steps => stepTemplates step ++ templates steps

def stepTemplates : BlueprintStep → List String
  | .mk step thenSteps elseSteps =>
      step.template.toList ++ (templates thenSteps ++ templates elseSteps)

end

/-- The variables that steps ask for. -/
def stepsAsk (steps : List BlueprintStep) : List String :=
  (templates steps).flatMap placeholders

/-! ## Executions -/

section

variable {x : Outside} {executor executor' : StepExecutor}

/-- Two executors that differ in their variables only. -/
structure SameButVars (executor executor' : StepExecutor) : Prop where
  allowJsExecution : executor.allowJsExecution = executor'.allowJsExecution
  guarded : executor.guarded = executor'.guarded
  site : executor.site = executor'.site

/-- The variables of two executors agree on what a text asks for. -/
def AgreeOn (executor executor' : StepExecutor) (template : String) : Prop :=
  ∀ key ∈ placeholders template, executor.vars.lookup key = executor'.vars.lookup key

theorem map_interpolate_congr {text : Option String}
    (h : ∀ template ∈ text, AgreeOn executor executor' template) :
    text.map (interpolate executor.vars) = text.map (interpolate executor'.vars) := by
  cases text with
  | none => rfl
  | some template => exact congrArg some (interpolate_congr (h template rfl))

/-- A step depends on the variables that its text asks for. -/
theorem dispatch_congr (hsame : SameButVars executor executor') {step : StepFields}
    (h : ∀ template ∈ step.template, AgreeOn executor executor' template)
    (thenSteps elseSteps : Drive Unit) :
    dispatch x executor step thenSteps elseSteps = dispatch x executor' step thenSteps elseSteps := by
  unfold dispatch
  unfold StepFields.template at h
  split
  · next haction =>
    rw [haction] at h
    unfold stepGoto
    rw [map_interpolate_congr h]
  · next haction =>
    rw [haction] at h
    unfold stepFill
    rw [map_interpolate_congr h]
  · unfold stepClick describeClickTarget
    rw [hsame.guarded]
  · rfl
  · rfl
  · rfl
  · rfl
  · next haction =>
    rw [haction] at h
    unfold stepSelect
    rw [map_interpolate_congr h]
  · rfl
  · rfl
  · unfold stepExecuteJs
    rw [hsame.allowJsExecution, hsame.site]
  · rfl

mutual

/-- Steps depend on the variables that they and the steps nested in them ask for. -/
theorem executeSteps_congr (hsame : SameButVars executor executor') :
    ∀ steps, (∀ template ∈ templates steps, AgreeOn executor executor' template) →
      executeSteps x executor steps = executeSteps x executor' steps
  | [], _ => by rw [executeSteps, executeSteps]
  | step :: steps, h => by
      rw [templates] at h
      obtain ⟨hstep, hsteps⟩ := List.forall_mem_append.mp h
      rw [executeSteps, executeSteps, executeStep_congr hsame step hstep,
        executeSteps_congr hsame steps hsteps]

theorem executeStep_congr (hsame : SameButVars executor executor') :
    ∀ step, (∀ template ∈ stepTemplates step, AgreeOn executor executor' template) →
      executeStep x executor step = executeStep x executor' step
  | .mk step thenSteps elseSteps, h => by
      rw [stepTemplates] at h
      obtain ⟨hstep, hbranches⟩ := List.forall_mem_append.mp h
      obtain ⟨hthen, helse⟩ := List.forall_mem_append.mp hbranches
      have hpolicy : enforceStepPolicy executor step = enforceStepPolicy executor' step := by
        unfold enforceStepPolicy
        rw [hsame.guarded]
      have hdispatch := fun thenSteps elseSteps => dispatch_congr (x := x) hsame
        (fun template htemplate => hstep template (Option.mem_toList.mpr htemplate))
        thenSteps elseSteps
      rw [executeStep, executeStep, hpolicy, hdispatch, executeSteps_congr hsame thenSteps hthen,
        executeSteps_congr hsame elseSteps helse]

end

end

/-- The variables that a blueprint asks for. -/
def Blueprint.asks (blueprint : Blueprint) : List String :=
  stepsAsk (blueprint.authSteps ++ blueprint.cleanup)

theorem templates_append (steps steps' : List BlueprintStep) :
    templates (steps ++ steps') = templates steps ++ templates steps' := by
  induction steps with
  | nil => rw [templates, List.nil_append, List.nil_append]
  | cons step steps ih => rw [List.cons_append, templates, templates, ih, List.append_assoc]

theorem runCleanup_congr {x : Outside} {executor executor' : StepExecutor}
    (hsame : SameButVars executor executor') {cleanup : List BlueprintStep}
    (h : ∀ template ∈ templates cleanup, AgreeOn executor executor' template) :
    runCleanup x executor cleanup = runCleanup x executor' cleanup := by
  unfold runCleanup
  split
  · rfl
  · rw [executeSteps_congr hsame _ h]

/-- The executor of an execution. -/
def blueprintExecutor (enabled : Bool) (site username password : String) : StepExecutor where
  vars := [("username", username), ("password", password)]
  allowJsExecution := true
  guarded := enabled
  site := site

theorem runBlueprint_congr {x : Outside} {enabled : Bool} {blueprint : Blueprint}
    {site username username' password password' : String}
    (h : ∀ template ∈ templates (blueprint.authSteps ++ blueprint.cleanup),
      AgreeOn (blueprintExecutor enabled site username password)
        (blueprintExecutor enabled site username' password') template)
    (sessionId : String) (extractFields : Option (List String)) :
    runBlueprint x enabled blueprint site username password sessionId extractFields =
      runBlueprint x enabled blueprint site username' password' sessionId extractFields := by
  rw [templates_append] at h
  obtain ⟨hauth, hcleanup⟩ := List.forall_mem_append.mp h
  have hsame : SameButVars (blueprintExecutor enabled site username password)
      (blueprintExecutor enabled site username' password') := ⟨rfl, rfl, rfl⟩
  have hauthenticate : authenticate x (blueprintExecutor enabled site username password) blueprint
      site sessionId = authenticate x (blueprintExecutor enabled site username' password')
        blueprint site sessionId := by
    unfold authenticate
    rw [executeSteps_congr hsame _ hauth]
  have hclean := runCleanup_congr (x := x) hsame hcleanup
  unfold blueprintExecutor at hauthenticate hclean
  unfold runBlueprint
  dsimp only
  rw [hauthenticate, hclean]

/-- An execution does the same with other credentials, its answer and all that it calls
on the page included, if they agree on what the blueprint asks for. -/
theorem executeBlueprint_of_agreeing (x : Outside) (enabled : Bool) (blueprint : Blueprint)
    (site sessionId : String) (extractFields : Option (List String))
    {username username' password password' : String}
    (husername : "username" ∈ blueprint.asks → username = username')
    (hpassword : "password" ∈ blueprint.asks → password = password') :
    executeBlueprint x enabled blueprint site username password sessionId extractFields =
      executeBlueprint x enabled blueprint site username' password' sessionId extractFields := by
  have hagree : ∀ template ∈ templates (blueprint.authSteps ++ blueprint.cleanup),
      AgreeOn (blueprintExecutor enabled site username password)
        (blueprintExecutor enabled site username' password') template := by
    intro template htemplate key hkey
    have hasks : key ∈ blueprint.asks := List.mem_flatMap.mpr ⟨template, htemplate, hkey⟩
    unfold blueprintExecutor
    dsimp only
    by_cases hu : key = "username"
    · subst hu
      rw [husername hasks]
      rfl
    · by_cases hp : key = "password"
      · subst hp
        rw [hpassword hasks]
        rfl
      · rw [List.lookup_cons, List.lookup_cons, List.lookup_cons, List.lookup_cons,
          beq_false_of_ne hu, beq_false_of_ne hp]
  unfold executeBlueprint
  rw [runBlueprint_congr hagree]

/-- A login that fills in the name, where the page asks for it. -/
def nameOnly : Blueprint where
  authSteps := [
    .mk { action := .goto, url := some "https://bank.example/login" } [] [],
    .mk { action := .conditional, conditionSelector := some "#user" }
      [.mk {
        action := .fill
        selector := some "#user"
        value := some "\x7b\x7busername\x7d\x7d" } [] []]
      []]
  plan := { adaptive := false, domain := "bank.example", fallbackSelectors := [] }

/-- A page that is there and asks for the name. -/
def namePage : Outside where
  py := {
    lower := Text.asciiLower
    strOf _ := ""
    floatRepr s := s }
  answer _
    | .goto .. => .ok (some 200)
    | .waitForSelector .. => .ok (some 1)
    | .acquireContext | .newPage | .fill .. | .close | .releaseContext => .ok ()
    | _ => .error (.error "")
  convert _ _ text := .ok (.str text)

theorem nameOnly_of_agreeing :
    executeBlueprint namePage true nameOnly "bank" "ada" "first" "s1" none =
      executeBlueprint namePage true nameOnly "bank" "ada" "second" "s1" none :=
  executeBlueprint_of_agreeing namePage true nameOnly "bank" "s1" none (fun _ => rfl)
    fun h => absurd h (by decide)

end Plaidify.Engine
