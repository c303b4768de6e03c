import Plaidify.Engine.StructuredSteps

/-!
# Generated blueprints

`_build_blueprint_json` of `src/src/core/blueprint_generator.py` writes the steps
that `StepExecutor` runs (`src/src/core/step_executor.py`). The schema lets a step
through without the fields that its handler asks for: the last step of every
generated blueprint is a `wait` for no selector.
-/

namespace Plaidify.Blueprints

open Engine Structured

/-! ## What was discovered -/

/-- `LoginFormDiscovery`, as far as blueprints are made of it. -/
structure LoginFormDiscovery where
  usernameSelector : Option String
  passwordSelector : Option String
  submitSelector : Option String
  preLoginSteps : List (List (String × String))
  mfaLikely : Bool

/-- A field that the model suggests; `sample` is its `example`. -/
structure SuggestedField where
  name : Option String
  type : Option String
  description : Option String
  sample : Option String
  sensitive : Bool

/-- `extraction_fields`. -/
structure FieldDiscovery where
  fields : List SuggestedField
  pageContext : Option String

/-! ## The builder -/

/-- `d[key] = value`. -/
def setItem (key : String) (value : Json) : Dict → Dict
  | [] => [(key, value)]
  | (k, v) :: d => if k = key then (key, value) :: d else (k, v) :: setItem key value d

/-- The steps of the `auth` section. -/
def authSteps (url : String) (login : LoginFormDiscovery) : List Json :=
  [.obj [("action", .str "goto"), ("url", .str url)]] ++
  (login.preLoginSteps.filterMap fun step =>
    (given (step.lookup "selector")).map fun selector =>
      .obj [("action", .str ((step.lookup "action").getD "click")), ("selector", .str selector)]) ++
  (given login.usernameSelector).toList.map (fun selector =>
    .obj [("action", .str "fill"), ("selector", .str selector),
      ("value", .str "\x7b\x7busername\x7d\x7d")]) ++
  (given login.passwordSelector).toList.map (fun selector =>
    .obj [("action", .str "fill"), ("selector", .str selector),
      ("value", .str "\x7b\x7bpassword\x7d\x7d")]) ++
  (given login.submitSelector).toList.map (fun selector =>
    .obj [("action", .str "click"), ("selector", .str selector),
      ("wait_for_navigation", .bool true)]) ++
  [.obj [("action", .str "wait"), ("timeout", .int 10000)]]

/-- The entry of a field in the `extract` section. -/
def extractEntry (f : SuggestedField) : Json :=
  .obj ([("type", .str (f.type.getD "text")), ("description", .str (f.description.getD ""))] ++
    (given f.sample).toList.map (fun sample => ("example", .str sample)) ++
    if f.sensitive then [("sensitive", .bool true)] else [])

/-- The `mfa` section. -/
def mfaSection : Json :=
  .obj [("detection", .obj [
      ("selector", .str ("input[type='tel'], input[name*='otp'], input[name*='code'], " ++
        "input[name*='mfa'], [class*='mfa'], [class*='otp'], [class*='verification']")),
      ("timeout", .int 5000)]),
    ("type", .str "otp_input"),
    ("handler", .str "user_prompt"),
    ("input_selector", .str "input[type='tel'], input[name*='otp'], input[name*='code']"),
    ("submit_selector", .str "button[type='submit'], input[type='submit']")]

/-- `_build_blueprint_json`. -/
def buildBlueprintJson (url domain siteName : String) (login : LoginFormDiscovery)
    (found : FieldDiscovery) (siteType : Option String) : Dict :=
  let extract := found.fields.foldl (fun d f => setItem (f.name.getD "unnamed") (extractEntry f) d) []
  [("schema_version", .str "3.0"),
    ("name", .str siteName),
    ("domain", .str domain),
    ("tags", .arr (.str "auto_generated" :: (given siteType).toList.map .str)),
    ("extraction_strategy", .str "llm_adaptive"),
    ("page_context", .str (found.pageContext.getD ("Dashboard for " ++ siteName))),
    ("auth", .obj [("type", .str "form"), ("steps", .arr (authSteps url login))]),
    ("extract", .obj extract),
    ("rate_limit", .obj [("max_requests_per_hour", .int 10), ("min_interval_seconds", .int 30)])] ++
  if login.mfaLikely then [("mfa", mfaSection)] else []

/-! ## The schema -/

/-- The actions in the order of their class. -/
def stepActions : List StepAction :=
  [.goto, .fill, .click, .wait, .screenshot, .extract, .conditional, .scroll, .select, .iframe,
    .waitForNavigation, .executeJs]

/-- An `Optional[str]`; `none` for another type. -/
def optStr (s : Dict) (key : String) : Option (Option String) :=
  match s.lookup key with
  | none | some .null => some none
  | some (.str value) => some (some value)
  | some _ => none

/-- `BlueprintStep(**s)`. The generated steps have no branches, and the fields that
they have are of the types of the class already. -/
def blueprintStep? : Json → Option BlueprintStep
  | .obj s => do
      let action ← (← optStr s "action").bind fun value => stepActions.find? (·.value = value)
      let url ← optStr s "url"
      let selector ← optStr s "selector"
      let value ← optStr s "value"
      let timeout ← match s.lookup "timeout" with
        | none | some .null => some none
        | some (.int n) => some (some n)
        | some _ => none
      let waitForNavigation ← match s.lookup "wait_for_navigation" with
        | none | some .null => some false
        | some (.bool b) => some b
        | some _ => none
      return .mk { action, url, selector, value, timeout, waitForNavigation } [] []
  | _ => none

/-- `auth.steps` of the validated blueprint. -/
def steps? (blueprint : Dict) : Option (List BlueprintStep) :=
  match blueprint.lookup "auth" with
  | some (.obj auth) =>
      match auth.lookup "steps" with
      | some (.arr steps) => steps.mapM blueprintStep?
      | _ => none
  | _ => none

/-! ## Steps that are accepted -/

/-- A page on which every selector is present and every action succeeds. -/
structure Obliging (x : Outside) : Prop where
  answers : ∀ log call, ∃ reply, x.answer log call = .ok reply
  present : ∀ log selector timeout state,
    ∃ element, x.answer log (.waitForSelector selector timeout state) = .ok (some element)
  healthy : ∀ log url timeout status,
    x.answer log (.goto url timeout) = .ok (some status) → status < 500

/-- Such a page makes no step fail. -/
def Accepted (executor : StepExecutor) (steps : List BlueprintStep) : Prop :=
  ∀ x, Obliging x → ∀ w, (outcome (executeSteps x executor steps) w).1 = .completed

/-! ## The last step -/

/-- All steps but the last. -/
def initSteps (url : String) (login : LoginFormDiscovery) : List Json :=
  (authSteps url login).dropLast

/-- The step that is to wait for the page behind the login. -/
def waitStep : BlueprintStep :=
  .mk { action := .wait, timeout := some 10000 } [] []

theorem authSteps_eq (url : String) (login : LoginFormDiscovery) :
    authSteps url login =
      initSteps url login ++ [.obj [("action", .str "wait"), ("timeout", .int 10000)]] := by
  unfold initSteps authSteps
  rw [List.dropLast_concat]

theorem steps?_eq (url domain siteName : String) (login : LoginFormDiscovery)
    (found : FieldDiscovery) (siteType : Option String) :
    steps? (buildBlueprintJson url domain siteName login found siteType) =
      (authSteps url login).mapM blueprintStep? := by
  rfl

/-- Where the blueprint is valid, its last step is this one. -/
theorem steps?_eq_some {url domain siteName : String} {login : LoginFormDiscovery}
    {found : FieldDiscovery} {siteType : Option String} {steps : List BlueprintStep}
    (h : steps? (buildBlueprintJson url domain siteName login found siteType) = some steps) :
    ∃ init, (initSteps url login).mapM blueprintStep? = some init ∧ steps = init ++ [waitStep] := by
  rw [steps?_eq, authSteps_eq, List.mapM_append] at h
  obtain ⟨init, hinit, h⟩ := Option.bind_eq_some_iff.mp h
  obtain ⟨last, hlast, h⟩ := Option.bind_eq_some_iff.mp h
  obtain rfl := Option.some.inj h
  have hwait : [Json.obj [("action", .str "wait"), ("timeout", .int 10000)]].mapM blueprintStep? =
      some [waitStep] := rfl
  obtain rfl := Option.some.inj (hwait.symm.trans hlast)
  exact ⟨init, hinit, rfl⟩

/-- The last step fails wherever it is run. -/
theorem waitStep_fails (x : Outside) (executor : StepExecutor) (w : World) :
    ∃ w', Runs (machine x executor) (program [waitStep]) w .failed w' := by
  have hfailed : ∃ w',
      act x executor { action := .wait, timeout := some 10000 } w = (.failed, w') := by
    unfold act outcome
    rw [Raising.after_bind]
    -- the policy refuses the step, or the handler misses its selector
    rcases Raising.after (enforceStepPolicy executor _) w with ⟨refused | ⟨⟩, w'⟩
    · exact ⟨w', rfl⟩
    · exact ⟨w', rfl⟩
  rcases hfailed with ⟨w', hact⟩
  exact ⟨w', .stop (.act hact)⟩

theorem executeSteps_fails {x : Outside} {executor : StepExecutor} (init : List BlueprintStep)
    (w : World) : (outcome (executeSteps x executor (init ++ [waitStep])) w).1 = .failed := by
  have hprogram : program (init ++ [waitStep]) = program init ++ program [waitStep] := by
    simp only [program_eq_map, List.map_append]
  rcases exists_runs_append_failed (waitStep_fails x executor) (program init) w with ⟨w', hrun⟩
  rw [← hprogram] at hrun
  rw [outcome_of_runs hrun]

/-! ## The other steps -/

/-- The computation returns, with this about what it returns. -/
def Completes {α : Type} (c : Drive α) (Q : α → Prop) : Prop :=
  Raising.Triple (fun _ => True) c (fun a _ => Q a) fun _ _ => False

theorem Completes.bind {α β : Type} {c : Drive α} {f : α → Drive β} {Q : α → Prop} {R : β → Prop}
    (hc : Completes c Q) (hf : ∀ a, Q a → Completes (f a) R) : Completes (c >>= f) R := by
  apply Raising.Triple.bind hc
  intro a w ha
  exact hf a ha w trivial

theorem completes_pure {α : Type} {Q : α → Prop} {a : α} (h : Q a) :
    Completes (pure a : Drive α) Q :=
  Raising.triple_pure a fun _ _ => h

/-- A handler has nothing to do. -/
theorem Completes.tryCatch {α : Type} {c : Drive α} {Q : α → Prop} (hc : Completes c Q)
    (handler : Exc → Drive α) : Completes (tryCatch c handler) Q :=
  Raising.Triple.tryCatch hc fun _ _ h => h.elim

theorem outcome_of_completes {c : Drive Unit} {Q : Unit → Prop} (h : Completes c Q) (w : World) :
    ∃ w', outcome c w = (.completed, w') := by
  have hends := h w trivial
  unfold outcome
  rcases hafter : Raising.after c w with ⟨exc | ⟨⟩, w'⟩
  · rw [hafter] at hends
    exact False.elim hends
  · exact ⟨w', rfl⟩

section

variable {x : Outside} (hx : Obliging x) {executor : StepExecutor}

include hx

theorem completes_ask (caller : Caller) {call : Call} {Q : call.Reply → Prop}
    (hQ : ∀ log reply, x.answer log call = .ok reply → Q reply) :
    Completes (ask x caller call) Q := by
  intro w _
  unfold ask
  rw [Raising.after_bind, Raising.after_get]
  rcases hx.answers w.log call with ⟨reply, hanswer⟩
  dsimp only
  rw [hanswer]
  exact hQ w.log reply hanswer

theorem completes_call (caller : Caller) (call : Call) :
    Completes (ask x caller call) fun _ => True :=
  completes_ask hx caller fun _ _ _ => trivial

theorem stepGoto_completes {step : StepFields} {url : String}
    (hurl : given (step.url.map (interpolate executor.vars)) = some url) :
    Completes (stepGoto x executor step) fun _ => True := by
  unfold stepGoto
  rw [hurl]
  apply Completes.tryCatch
  have hask : Completes (ask x (.step .goto) (.goto url (orDefault step.timeout 30000)))
      fun response => ∀ status, response = some status → status < 500 := by
    apply completes_ask hx
    rintro log reply hanswer status rfl
    exact hx.healthy log url _ status hanswer
  apply hask.bind
  rintro (_ | status) hstatus
  · exact completes_pure trivial
  · have hlt := hstatus status rfl
    dsimp only
    rw [if_neg (by omega)]
    exact completes_pure trivial

theorem stepFill_completes {step : StepFields} {selector : String}
    (hselector : given step.selector = some selector) :
    Completes (stepFill x executor step) fun _ => True := by
  unfold stepFill
  rw [hselector]
  apply Completes.bind (completes_call hx _ _)
  intro _ _
  exact completes_call hx _ _

theorem performClick_completes (step : StepFields) (selector : String) :
    Completes (performClick x step selector) fun _ => True := by
  unfold performClick
  split
  · apply Completes.bind (completes_call hx _ _)
    intro _ _
    apply Completes.bind (completes_call hx _ _)
    intro _ _
    exact completes_call hx _ _
  · exact completes_call hx _ _

theorem stepClick_completes (hguarded : executor.guarded = false) {step : StepFields}
    {selector : String} (hselector : given step.selector = some selector) :
    Completes (stepClick x executor step) fun _ => True := by
  unfold stepClick
  rw [hselector]
  apply Completes.bind (completes_call hx _ _)
  intro _ _
  rw [hguarded]
  exact performClick_completes hx step selector

end

/-- A step that no obliging page makes fail. -/
def StepAccepted (executor : StepExecutor) (step : BlueprintStep) : Prop :=
  ∀ x, Obliging x → ∀ w, ∃ w', RunsStmt (machine x executor) (stmt step) w .completed w'

theorem accepted_of_steps {executor : StepExecutor} {steps : List BlueprintStep}
    (h : ∀ step ∈ steps, StepAccepted executor step) : Accepted executor steps := by
  intro x hx w
  have hstmts : ∀ s ∈ program steps, ∀ w, ∃ w',
      RunsStmt (machine x executor) s w .completed w' := by
    intro s hs
    rw [program_eq_map, List.mem_map] at hs
    rcases hs with ⟨step, hstep, rfl⟩
    exact h step hstep x hx
  rcases exists_runs_completed hstmts w with ⟨w', hrun⟩
  rw [outcome_of_runs hrun]

section

variable {executor : StepExecutor} (hguarded : executor.guarded = false)

include hguarded

/-- An executor without a policy runs the handler. -/
theorem stepAccepted_of_completes {step : StepFields} (haction : step.action ≠ .conditional)
    (h : ∀ x, Obliging x → Completes (dispatch x executor step (pure ()) (pure ())) fun _ => True) :
    StepAccepted executor (.mk step [] []) := by
  intro x hx w
  have hbody : Completes (do
      enforceStepPolicy executor step
      dispatch x executor step (pure ()) (pure ())) fun _ => True := by
    unfold enforceStepPolicy
    rw [hguarded]
    exact h x hx
  rcases outcome_of_completes hbody w with ⟨w', hact⟩
  refine ⟨w', ?_⟩
  unfold stmt
  rw [if_neg haction]
  exact .act hact

theorem clickStep_accepted {selector : String} (hselector : selector ≠ "") (waits : Bool) :
    StepAccepted executor
      (.mk { action := .click, selector := some selector, waitForNavigation := waits } [] []) := by
  apply stepAccepted_of_completes hguarded (by simp)
  intro x hx
  exact stepClick_completes hx hguarded (Option.filter_eq_some_iff.mpr ⟨rfl, by simpa⟩)

theorem fillStep_accepted {selector : String} (hselector : selector ≠ "") (value : String) :
    StepAccepted executor
      (.mk { action := .fill, selector := some selector, value := some value } [] []) := by
  apply stepAccepted_of_completes hguarded (by simp)
  intro x hx
  exact stepFill_completes hx (Option.filter_eq_some_iff.mpr ⟨rfl, by simpa⟩)

theorem gotoStep_accepted {url : String} (hurl : interpolate executor.vars url ≠ "") :
    StepAccepted executor (.mk { action := .goto, url := some url } [] []) := by
  apply stepAccepted_of_completes hguarded (by simp)
  intro x hx
  exact stepGoto_completes hx (Option.filter_eq_some_iff.mpr ⟨rfl, by simpa⟩)

/-- Each of the others is valid, and accepted. -/
theorem initStep_accepted {url : String} {login : LoginFormDiscovery}
    (hurl : interpolate executor.vars url ≠ "")
    (hclicks : ∀ step ∈ login.preLoginSteps, (step.lookup "action").getD "click" = "click")
    {s : Json} (hs : s ∈ initSteps url login) :
    ∃ step, blueprintStep? s = some step ∧ StepAccepted executor step := by
  have hgiven : ∀ {o : Option String} {selector : String}, given o = some selector →
      selector ≠ "" := by
    intro o selector hselector
    simpa using (Option.filter_eq_some_iff.mp hselector).2
  unfold initSteps authSteps at hs
  rw [List.dropLast_concat] at hs
  simp only [List.mem_append, List.mem_singleton, List.mem_filterMap, List.mem_map,
    Option.mem_toList, Option.map_eq_some_iff] at hs
  rcases hs with (((rfl | ⟨step, hstep, selector, hselector, rfl⟩) | ⟨selector, hselector, rfl⟩) |
    ⟨selector, hselector, rfl⟩) | ⟨selector, hselector, rfl⟩
  · exact ⟨_, rfl, gotoStep_accepted hguarded hurl⟩
  · rw [hclicks step hstep]
    exact ⟨_, rfl, clickStep_accepted hguarded (hgiven hselector) false⟩
  · exact ⟨_, rfl, fillStep_accepted hguarded (hgiven hselector) _⟩
  · exact ⟨_, rfl, fillStep_accepted hguarded (hgiven hselector) _⟩
  · exact ⟨_, rfl, clickStep_accepted hguarded (hgiven hselector) true⟩

/-- Only the last step is in the way. -/
theorem initSteps_accepted {url : String} {login : LoginFormDiscovery}
    (hurl : interpolate executor.vars url ≠ "")
    (hclicks : ∀ step ∈ login.preLoginSteps, (step.lookup "action").getD "click" = "click") :
    ∃ init, (initSteps url login).mapM blueprintStep? = some init ∧ Accepted executor init := by
  have hall : ∀ l : List Json, (∀ s ∈ l, ∃ step, blueprintStep? s = some step ∧
      StepAccepted executor step) →
      ∃ steps, l.mapM blueprintStep? = some steps ∧ ∀ step ∈ steps, StepAccepted executor step := by
    intro l
    induction l with
    | nil =>
        intro _
        exact ⟨[], rfl, fun step hstep => absurd hstep List.not_mem_nil⟩
    | cons s l ih =>
        intro h
        rcases h s List.mem_cons_self with ⟨step, hdecode, hstep⟩
        rcases ih (fun s hs => h s (List.mem_cons_of_mem _ hs)) with ⟨steps, hrest, hsteps⟩
        refine ⟨step :: steps, ?_, ?_⟩
        · rw [List.mapM_cons, hdecode, hrest]
          rfl
        · intro other hother
          rcases List.mem_cons.mp hother with rfl | hother
          · exact hstep
          · exact hsteps other hother
  rcases hall (initSteps url login) fun s hs => initStep_accepted hguarded hurl hclicks hs with
    ⟨init, hdecode, hsteps⟩
  exact ⟨init, hdecode, accepted_of_steps hsteps⟩

end

/-! ## No generated blueprint is executable -/

/-- The answers of a page that grants everything. -/
noncomputable def grant : (call : Call) → call.Reply
  | .waitForSelector .. => some 0
  | .goto .. => none
  | call => Classical.choice (by cases call <;> first | exact ⟨default⟩ | exact ⟨Json.null⟩)

theorem exists_obliging : ∃ x, Obliging x := by
  refine ⟨⟨⟨id, fun _ => "", id⟩, fun _ call => .ok (grant call), fun _ _ _ => .ok .null⟩, ?_, ?_, ?_⟩
  · intro log call
    exact ⟨_, rfl⟩
  · intro log selector timeout state
    exact ⟨0, rfl⟩
  · intro log url timeout status h
    cases h

theorem not_accepted_of_last (executor : StepExecutor) (init : List BlueprintStep) :
    ¬Accepted executor (init ++ [waitStep]) := by
  intro haccepted
  rcases exists_obliging with ⟨x, hx⟩
  have hcompleted := haccepted x hx ⟨{}, []⟩
  rw [executeSteps_fails] at hcompleted
  cases hcompleted

/-- Whatever was discovered, the steps of the blueprint are not accepted. -/
theorem generated_not_accepted (url domain siteName : String) (login : LoginFormDiscovery)
    (found : FieldDiscovery) (siteType : Option String) (executor : StepExecutor) :
    ¬∃ steps, steps? (buildBlueprintJson url domain siteName login found siteType) = some steps ∧
      Accepted executor steps := by
  rintro ⟨steps, hsteps, haccepted⟩
  rcases steps?_eq_some hsteps with ⟨init, -, rfl⟩
  exact not_accepted_of_last executor init haccepted

/-- A login form with all its selectors. -/
def bankLogin : LoginFormDiscovery where
  usernameSelector := some "#user"
  passwordSelector := some "#pass"
  submitSelector := some "#login"
  preLoginSteps := [[("action", "click"), ("selector", "#accept-cookies")]]
  mfaLikely := false

def bankExecutor : StepExecutor where
  vars := [("username", "ada"), ("password", "secret")]
  allowJsExecution := false
  guarded := false
  site := "bank"

theorem bankLogin_not_accepted :
    ∃ steps, steps? (buildBlueprintJson "https://bank.example/login" "bank.example" "Bank" bankLogin
        ⟨[], none⟩ none) = some steps ∧ ¬Accepted bankExecutor steps := by
  have hinit := @initSteps_accepted bankExecutor rfl "https://bank.example/login" bankLogin
    (by decide) (by decide)
  rcases hinit with ⟨init, hinit, -⟩
  refine ⟨init ++ [waitStep], ?_, not_accepted_of_last bankExecutor init⟩
  rw [steps?_eq, authSteps_eq, List.mapM_append, hinit]
  rfl

end Plaidify.Blueprints
