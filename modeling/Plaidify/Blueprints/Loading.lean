import Plaidify.Blueprints.Generator
import Plaidify.Engine.Execution
import Plaidify.HostedLink.AllowedOrigins

/-!
# Loading blueprints

`load_blueprint`, `convert_v1_to_v2` and `blueprint_is_discoverable` of
`src/src/core/blueprint.py`, and the templates that
`src/src/organization_catalog.py` makes of the connectors.

One legacy key sends the whole document through the conversion of V1 blueprints,
which knows of no tags. `loadBlueprint_keeps_iff` says which documents lose nothing
by it. What `BlueprintV2.model_validate` accepts is a parameter.
-/

namespace Plaidify.Blueprints

open Engine
open HostedLink.AllowedOrigins (urlparse)

/-! ## Blueprints -/

/-- `BlueprintV2`, as far as loading and the catalog read it. -/
structure BlueprintV2 where
  schemaVersion : String := "2.0"
  name : String
  domain : String
  tags : List String := []
  authSteps : List BlueprintStep
  mfa : Option MFAConfig := none
  extract : FieldDefs := []
  cleanup : Option (List BlueprintStep) := none

def hiddenConnectorTags : List String :=
  ["internal", "fixture"]

def sandboxConnectorTags : List String :=
  ["sandbox", "demo"]

/-- `blueprint_is_discoverable`; `lower` is `str.lower`. -/
def blueprintIsDiscoverable (lower : String → String) (tags : Option (List String))
    (demoMode : Bool := false) : Bool :=
  let tagSet := (tags.getD []).map lower
  if tagSet.any (· ∈ hiddenConnectorTags) then false
  else if tagSet.any (· ∈ sandboxConnectorTags) && !demoMode then false
  else true

/-! ## The V1 conversion -/

/-- A value that has a `get`; `none` for an `AttributeError`. -/
def asDict : Json → Option Dict
  | .obj d => some d
  | _ => none

/-- A value for a `str`; `none` for a validation error. -/
def asText : Json → Option String
  | .str s => some s
  | _ => none

/-- A value for an `Optional[str]`; `none` for a validation error. -/
def optText : Json → Option (Option String)
  | .null => some none
  | .str s => some (some s)
  | _ => none

/-- The step for one of the V1 fields, where its selector is truthy. -/
def fieldStep (fields : Dict) (key : String) (step : StepFields) : Option (List BlueprintStep) :=
  let selector := (fields.lookup key).getD .null
  if selector.truthy then
    (optText selector).map fun selector => [.mk { step with selector } [] []]
  else some []

/-- What a `for` goes over; `none` for a `TypeError`. -/
def iterate : Json → Option (List Json)
  | .arr xs => some xs
  | .obj kvs => some (kvs.map fun kv => .str kv.1)
  | .str s => some (s.toList.map fun c => .str (String.singleton c))
  | _ => none

/-- `step[key]` where `key in step`; `none` for a `TypeError`, which a text raises too
that has the key in it. -/
def member (step : Json) (key : String) : Option (Option Json) :=
  match step with
  | .obj d => some (d.lookup key)
  | .arr xs =>
      if xs.any fun | .str s => s == key | _ => false then none else some none
  | .str s => if key.toList <:+: s.toList then none else some none
  | _ => none

/-- The selectors of `step["extract"].items()`. -/
def items : Option Json → Option Dict
  | none => some []
  | some (.obj selectors) => some selectors
  | some _ => none

/-- One turn of the loop over `post_login`: the waits and the selectors so far. -/
def postLoginStep (acc : List Json × Dict) (step : Json) : Option (List Json × Dict) := do
  let wait ← member step "wait"
  let selectors ← items (← member step "extract")
  return (acc.1 ++ wait.toList,
    selectors.foldl (fun fields entry => setItem entry.1 entry.2 fields) acc.2)

/-- `ExtractionField(selector=selector, type="text")`. -/
def extractionField (entry : String × Json) : Option (String × FieldDef) :=
  (optText entry.2).map fun _ => (entry.1, .scalar { selector := entry.2, type := .str "text" })

section

variable (refused : List Char → Bool)

/-- The domain of a `login_url`. -/
def loginDomain : Json → Option String
  | .str url =>
      if url = "" then some ""
      else (urlparse refused url.toList).map fun parsed => String.ofList parsed.netloc
  | loginUrl => if loginUrl.truthy then none else some ""

/-- `convert_v1_to_v2`; `none` where it raises. -/
def convertV1ToV2 (v1Data : Dict) : Option BlueprintV2 := do
  let fields ← asDict ((v1Data.lookup "fields").getD (.obj []))
  let loginUrl := (v1Data.lookup "login_url").getD (.str "")
  let username ← fieldStep fields "username"
    { action := .fill, value := some "\x7b\x7busername\x7d\x7d" }
  let password ← fieldStep fields "password"
    { action := .fill, value := some "\x7b\x7bpassword\x7d\x7d" }
  let submit ← fieldStep fields "submit" { action := .click, waitForNavigation := true }
  let steps ← iterate ((v1Data.lookup "post_login").getD (.arr []))
  let (waits, selectors) ← steps.foldlM postLoginStep ([], [])
  let domain ← loginDomain refused loginUrl
  let name ← asText ((v1Data.lookup "name").getD (.str "Unknown Site"))
  let url ← optText loginUrl
  let waits ← waits.mapM optText
  let extract ← selectors.mapM extractionField
  return {
    schemaVersion := "2.0"
    name, domain
    tags := []
    authSteps := [.mk { action := .goto, url } [] []] ++ username ++ password ++ submit ++
      waits.map fun selector => .mk { action := .wait, selector } [] []
    extract }

/-! ## Loading -/

variable (modelValidate : Dict → Option BlueprintV2)

/-- The documents that are taken for V1 blueprints. -/
def Legacy (data : Dict) : Prop :=
  (data.lookup "schema_version").getD (.str "1.0") = .str "1.0" ∨ data.lookup "login_url" ≠ none

/-- Whether a value is this text. -/
def isText (text : String) : Json → Bool
  | .str s => s == text
  | _ => false

theorem isText_iff {text : String} {j : Json} : isText text j = true ↔ j = .str text := by
  cases j with
  | str s => simp [isText]
  | _ => simp [isText]

instance (data : Dict) : Decidable (Legacy data) :=
  decidable_of_iff
    (isText "1.0" ((data.lookup "schema_version").getD (.str "1.0")) = true ∨
      (data.lookup "login_url").isSome = true)
    (or_congr isText_iff Option.isSome_iff_ne_none)

/-- `load_blueprint_from_dict`. -/
def loadBlueprintFromDict (data : Dict) : Option BlueprintV2 :=
  if Legacy data then convertV1ToV2 refused data else modelValidate data

/-- `load_blueprint`, of a file with this content. -/
def loadBlueprint : Json → Option BlueprintV2
  | .obj data => loadBlueprintFromDict refused modelValidate data
  | _ => none

/-- `_load_connector_templates`, over the stems and contents of the files. -/
def loadConnectorTemplates (lower : String → String) (files : List (String × Json)) :
    List (String × BlueprintV2) :=
  files.filterMap fun file =>
    ((loadBlueprint refused modelValidate file.2).filter fun blueprint =>
      blueprintIsDiscoverable lower (some blueprint.tags)).map fun blueprint =>
        (file.1, blueprint)

end

/-! ## What a document lists -/

/-- The tags that a document lists. -/
def docTags (data : Dict) : List String :=
  match data.lookup "tags" with
  | some (.arr tags) => tags.filterMap fun | .str tag => some tag | _ => none
  | _ => []

/-- The document asks to be hidden. -/
def Hidden (lower : String → String) (data : Dict) : Prop :=
  ∃ tag ∈ docTags data, lower tag ∈ hiddenConnectorTags

/-- The document declares the schema of `BlueprintV2`. -/
def Declares (data : Dict) : Prop :=
  data.lookup "schema_version" = some (.str "2.0") ∨
    data.lookup "schema_version" = some (.str "3.0")

/-- The selectors that a step of `post_login` lists. -/
def stepSelectors : Json → Dict
  | .obj step =>
      match step.lookup "extract" with
      | some (.obj selectors) => selectors
      | _ => []
  | _ => []

/-- The steps of `post_login`. -/
def postLogin (data : Dict) : List Json :=
  (iterate ((data.lookup "post_login").getD (.arr []))).getD []

/-- The selectors of all steps, of which a later one takes the place of an earlier. -/
def v1Selectors (data : Dict) : Dict :=
  ((postLogin data).flatMap stepSelectors).foldl (fun d entry => setItem entry.1 entry.2 d) []

/-- The section `extract` of a V1 document. -/
def v1Extract (data : Dict) : FieldDefs :=
  (v1Selectors data).map fun entry =>
    (entry.1, .scalar { selector := entry.2, type := .str "text" })

/-- A text or null. -/
def IsOptText (j : Json) : Prop :=
  j = .null ∨ ∃ s, j = .str s

/-- The selector that a step of `post_login` waits for. -/
def stepWaits (step : Json) : List Json :=
  ((member step "wait").getD none).toList

/-- A step of `post_login` that the conversion can read. -/
structure V1Step (step : Json) : Prop where
  wait : ∃ wait, member step "wait" = some wait
  waits : ∀ selector ∈ stepWaits step, IsOptText selector
  extract : ∃ extract selectors, member step "extract" = some extract ∧
    items extract = some selectors

/-- A document that the conversion can read. -/
structure V1Shape (refused : List Char → Bool) (data : Dict) : Prop where
  name : ∃ name, (data.lookup "name").getD (.str "Unknown Site") = .str name
  loginUrl : (data.lookup "login_url").getD (.str "") = .null ∨
    ∃ url, (data.lookup "login_url").getD (.str "") = .str url ∧
      (url ≠ "" → ∃ parsed, urlparse refused url.toList = some parsed)
  fields : ∃ fields, (data.lookup "fields").getD (.obj []) = .obj fields ∧
    ∀ key ∈ ["username", "password", "submit"],
      ((fields.lookup key).getD .null).truthy = true →
        ∃ selector, (fields.lookup key).getD .null = .str selector
  iterable : (iterate ((data.lookup "post_login").getD (.arr []))).isSome = true
  steps : ∀ step ∈ postLogin data, V1Step step
  selectors : ∀ entry ∈ v1Selectors data, IsOptText entry.2

/-! ## The conversion reads just these -/

theorem optText_eq_some {j : Json} : (∃ value, optText j = some value) ↔ IsOptText j := by
  cases j with
  | null => simp [optText, IsOptText]
  | str s => simp [optText, IsOptText]
  | _ => simp [optText, IsOptText]

theorem fieldStep_eq_some {fields : Dict} {key : String} {step : StepFields} :
    (∃ steps, fieldStep fields key step = some steps) ↔
      (((fields.lookup key).getD .null).truthy = true →
        ∃ selector, (fields.lookup key).getD .null = .str selector) := by
  unfold fieldStep
  dsimp only
  cases htruthy : ((fields.lookup key).getD .null).truthy with
  | false => simp
  | true =>
    cases hselector : (fields.lookup key).getD .null with
    | null => simp [hselector, Json.truthy] at htruthy
    | str s => simp [optText]
    | _ => simp [optText]

theorem loginDomain_eq_some {refused : List Char → Bool} {loginUrl : Json} :
    ((∃ domain, loginDomain refused loginUrl = some domain) ∧
        ∃ url, optText loginUrl = some url) ↔
      (loginUrl = .null ∨ ∃ url, loginUrl = .str url ∧
        (url ≠ "" → ∃ parsed, urlparse refused url.toList = some parsed)) := by
  cases loginUrl with
  | null => simp [loginDomain, optText, Json.truthy]
  | str url =>
    by_cases hurl : url = ""
    · simp [loginDomain, optText, hurl]
    · simp [loginDomain, optText, hurl, Option.map_eq_some_iff]
  | _ => simp [optText]

/-- The selectors that the loop adds for a step are those that the step lists. -/
theorem items_eq_stepSelectors {step : Json} {extract : Option Json} {selectors : Dict}
    (hmember : member step "extract" = some extract) (hitems : items extract = some selectors) :
    selectors = stepSelectors step := by
  cases step with
  | obj d =>
    obtain rfl : d.lookup "extract" = extract := Option.some.inj hmember
    unfold stepSelectors
    unfold items at hitems
    dsimp only
    split at hitems
    · next hnone =>
      rw [hnone]
      exact (Option.some.inj hitems).symm
    · next hsome =>
      rw [hsome]
      exact (Option.some.inj hitems).symm
    · cases hitems
  | arr xs =>
    unfold member at hmember
    dsimp only at hmember
    split at hmember
    · cases hmember
    · obtain rfl := Option.some.inj hmember
      exact (Option.some.inj hitems).symm
  | str s =>
    unfold member at hmember
    dsimp only at hmember
    split at hmember
    · cases hmember
    · obtain rfl := Option.some.inj hmember
      exact (Option.some.inj hitems).symm
  | _ => cases hmember

/-- One turn of the loop. -/
theorem postLoginStep_eq_some {acc acc' : List Json × Dict} {step : Json} :
    postLoginStep acc step = some acc' ↔
      (∃ wait, member step "wait" = some wait) ∧
        (∃ extract selectors, member step "extract" = some extract ∧
          items extract = some selectors) ∧
        acc' = (acc.1 ++ stepWaits step,
          (stepSelectors step).foldl (fun d entry => setItem entry.1 entry.2 d) acc.2) := by
  unfold postLoginStep
  constructor
  · intro h
    obtain ⟨wait, hwait, h⟩ := Option.bind_eq_some_iff.mp h
    obtain ⟨extract, hextract, h⟩ := Option.bind_eq_some_iff.mp h
    obtain ⟨selectors, hselectors, h⟩ := Option.bind_eq_some_iff.mp h
    refine ⟨⟨wait, hwait⟩, ⟨extract, selectors, hextract, hselectors⟩, ?_⟩
    rw [← items_eq_stepSelectors hextract hselectors]
    unfold stepWaits
    rw [hwait]
    exact (Option.some.inj h).symm
  · rintro ⟨⟨wait, hwait⟩, ⟨extract, selectors, hextract, hselectors⟩, rfl⟩
    rw [← items_eq_stepSelectors hextract hselectors]
    unfold stepWaits
    rw [hwait, hextract]
    dsimp only [bind, Option.bind]
    rw [hselectors]
    rfl

/-- The whole loop. -/
theorem foldlM_postLoginStep {steps : List Json} : ∀ {acc acc' : List Json × Dict},
    steps.foldlM postLoginStep acc = some acc' ↔
      (∀ step ∈ steps, (∃ wait, member step "wait" = some wait) ∧
        ∃ extract selectors, member step "extract" = some extract ∧
          items extract = some selectors) ∧
        acc' = (acc.1 ++ steps.flatMap stepWaits,
          (steps.flatMap stepSelectors).foldl (fun d entry => setItem entry.1 entry.2 d)
            acc.2) := by
  induction steps with
  | nil =>
    intro acc acc'
    constructor
    · intro h
      obtain rfl := Option.some.inj h
      simp
    · rintro ⟨-, rfl⟩
      simp
  | cons step steps ih =>
    intro acc acc'
    rw [List.foldlM_cons]
    constructor
    · intro h
      obtain ⟨mid, hstep, h⟩ := Option.bind_eq_some_iff.mp h
      obtain ⟨hwait, hextract, rfl⟩ := postLoginStep_eq_some.mp hstep
      obtain ⟨hsteps, rfl⟩ := ih.mp h
      refine ⟨List.forall_mem_cons.mpr ⟨⟨hwait, hextract⟩, hsteps⟩, ?_⟩
      simp only [List.flatMap_cons, List.foldl_append, List.append_assoc]
    · rintro ⟨hall, rfl⟩
      obtain ⟨⟨hwait, hextract⟩, hsteps⟩ := List.forall_mem_cons.mp hall
      refine Option.bind_eq_some_iff.mpr
        ⟨_, postLoginStep_eq_some.mpr ⟨hwait, hextract, rfl⟩, ih.mpr ⟨hsteps, ?_⟩⟩
      simp only [List.flatMap_cons, List.foldl_append, List.append_assoc]

theorem asDict_eq_some {j : Json} {d : Dict} : asDict j = some d ↔ j = .obj d := by
  cases j <;> simp [asDict]

theorem asText_eq_some {j : Json} {s : String} : asText j = some s ↔ j = .str s := by
  cases j <;> simp [asText]

theorem extractionField_eq_some {entry : String × Json} {field : String × FieldDef} :
    extractionField entry = some field ↔ IsOptText entry.2 ∧
      field = (entry.1, .scalar { selector := entry.2, type := .str "text" }) := by
  rw [extractionField, Option.map_eq_some_iff, ← optText_eq_some]
  constructor
  · rintro ⟨value, hvalue, rfl⟩
    exact ⟨⟨value, hvalue⟩, rfl⟩
  · rintro ⟨⟨value, hvalue⟩, rfl⟩
    exact ⟨value, hvalue, rfl⟩

/-- A `mapM` of a function that is `g` on what it accepts. -/
theorem mapM_eq_some_iff {α β : Type} {f : α → Option β} {P : α → Prop} {g : α → β}
    (hf : ∀ a b, f a = some b ↔ P a ∧ b = g a) {l : List α} : ∀ {out : List β},
    l.mapM f = some out ↔ (∀ a ∈ l, P a) ∧ out = l.map g := by
  induction l with
  | nil =>
    intro out
    simp [eq_comm]
  | cons a l ih =>
    intro out
    rw [List.mapM_cons]
    constructor
    · intro h
      obtain ⟨b, hb, h⟩ := Option.bind_eq_some_iff.mp h
      obtain ⟨bs, hbs, h⟩ := Option.bind_eq_some_iff.mp h
      obtain rfl := Option.some.inj h
      obtain ⟨ha, hga⟩ := (hf a b).mp hb
      obtain ⟨hl, hgl⟩ := ih.mp hbs
      refine ⟨List.forall_mem_cons.mpr ⟨ha, hl⟩, ?_⟩
      rw [hga, hgl, List.map_cons]
    · rintro ⟨hall, rfl⟩
      obtain ⟨ha, hl⟩ := List.forall_mem_cons.mp hall
      exact Option.bind_eq_some_iff.mpr ⟨g a, (hf a _).mpr ⟨ha, rfl⟩,
        Option.bind_eq_some_iff.mpr ⟨l.map g, ih.mpr ⟨hl, rfl⟩, rfl⟩⟩

theorem mapM_optText {l : List Json} :
    (∃ out, l.mapM optText = some out) ↔ ∀ j ∈ l, IsOptText j := by
  have hf : ∀ j out, optText j = some out ↔ IsOptText j ∧ out = (optText j).getD none := by
    intro j out
    rw [← optText_eq_some]
    constructor
    · intro h
      exact ⟨⟨out, h⟩, by rw [h]; rfl⟩
    · rintro ⟨⟨value, h⟩, rfl⟩
      rw [h]
      rfl
  constructor
  · rintro ⟨out, h⟩
    exact ((mapM_eq_some_iff hf).mp h).1
  · intro h
    exact ⟨_, (mapM_eq_some_iff hf).mpr ⟨h, rfl⟩⟩

theorem mapM_extractionField {entries : Dict} {extract : FieldDefs} :
    entries.mapM extractionField = some extract ↔ (∀ entry ∈ entries, IsOptText entry.2) ∧
      extract = entries.map fun entry =>
        (entry.1, .scalar { selector := entry.2, type := .str "text" }) :=
  mapM_eq_some_iff fun _ _ => extractionField_eq_some

theorem exists_bind {α β : Type} {o : Option α} {f : α → Option β} (ho : ∃ a, o = some a)
    (hf : ∀ a, ∃ b, f a = some b) : ∃ b, (o >>= f) = some b := by
  obtain ⟨a, rfl⟩ := ho
  exact hf a

/-- What the conversion makes, where it makes something. -/
theorem convertV1ToV2_eq_some {refused : List Char → Bool} {data : Dict} {b : BlueprintV2}
    (h : convertV1ToV2 refused data = some b) :
    V1Shape refused data ∧ b.tags = [] ∧ b.mfa = none ∧ b.extract = v1Extract data ∧
      b.cleanup = none := by
  unfold convertV1ToV2 at h
  dsimp only at h
  obtain ⟨fields, hfields, h⟩ := Option.bind_eq_some_iff.mp h
  obtain ⟨username, husername, h⟩ := Option.bind_eq_some_iff.mp h
  obtain ⟨password, hpassword, h⟩ := Option.bind_eq_some_iff.mp h
  obtain ⟨submit, hsubmit, h⟩ := Option.bind_eq_some_iff.mp h
  obtain ⟨steps, hiterate, h⟩ := Option.bind_eq_some_iff.mp h
  obtain ⟨⟨waits, selectors⟩, hloop, h⟩ := Option.bind_eq_some_iff.mp h
  obtain ⟨domain, hdomain, h⟩ := Option.bind_eq_some_iff.mp h
  obtain ⟨name, hname, h⟩ := Option.bind_eq_some_iff.mp h
  obtain ⟨url, hurl, h⟩ := Option.bind_eq_some_iff.mp h
  obtain ⟨waited, hwaited, h⟩ := Option.bind_eq_some_iff.mp h
  obtain ⟨extract, hextract, h⟩ := Option.bind_eq_some_iff.mp h
  obtain rfl := Option.some.inj h
  have hsteps : postLogin data = steps := by
    unfold postLogin
    rw [hiterate]
    rfl
  obtain ⟨hreadable, hloop⟩ := foldlM_postLoginStep.mp hloop
  obtain ⟨rfl, rfl⟩ := Prod.mk.inj hloop
  obtain ⟨hselectors, rfl⟩ := mapM_extractionField.mp hextract
  have hwaits := mapM_optText.mp ⟨waited, hwaited⟩
  have hfold : v1Selectors data =
      (steps.flatMap stepSelectors).foldl (fun d entry => setItem entry.1 entry.2 d) [] := by
    unfold v1Selectors
    rw [hsteps]
  refine ⟨⟨⟨name, asText_eq_some.mp hname⟩, loginDomain_eq_some.mp ⟨⟨domain, hdomain⟩, url, hurl⟩,
    ⟨fields, asDict_eq_some.mp hfields, ?_⟩, ?_, ?_, ?_⟩, rfl, rfl, ?_, rfl⟩
  · simp only [List.forall_mem_cons, List.not_mem_nil, false_imp_iff, implies_true, and_true]
    exact ⟨fieldStep_eq_some.mp ⟨username, husername⟩, fieldStep_eq_some.mp ⟨password, hpassword⟩,
      fieldStep_eq_some.mp ⟨submit, hsubmit⟩⟩
  · rw [hiterate]
    rfl
  · intro step hstep
    rw [hsteps] at hstep
    obtain ⟨hwait, hextract⟩ := hreadable step hstep
    exact ⟨hwait, fun selector hselector =>
      hwaits selector (List.mem_flatMap.mpr ⟨step, hstep, hselector⟩), hextract⟩
  · rw [hfold]
    exact hselectors
  · unfold v1Extract
    rw [hfold]

/-- A document of the shape is converted. -/
theorem convertV1ToV2_of_shape {refused : List Char → Bool} {data : Dict}
    (h : V1Shape refused data) : ∃ b, convertV1ToV2 refused data = some b := by
  obtain ⟨name, hname⟩ := h.name
  obtain ⟨⟨domain, hdomain⟩, url, hurl⟩ := loginDomain_eq_some.mpr h.loginUrl
  obtain ⟨fields, hfields, hkeys⟩ := h.fields
  simp only [List.forall_mem_cons, List.not_mem_nil, false_imp_iff, implies_true, and_true]
    at hkeys
  obtain ⟨husername, hpassword, hsubmit⟩ := hkeys
  have hiterate : iterate ((data.lookup "post_login").getD (.arr [])) = some (postLogin data) := by
    obtain ⟨steps, hsteps⟩ := Option.isSome_iff_exists.mp h.iterable
    unfold postLogin
    rw [hsteps]
    rfl
  have hloop : (postLogin data).foldlM postLoginStep ([], []) =
      some ([] ++ (postLogin data).flatMap stepWaits, v1Selectors data) :=
    foldlM_postLoginStep.mpr
      ⟨fun step hstep => ⟨(h.steps step hstep).wait, (h.steps step hstep).extract⟩, rfl⟩
  obtain ⟨waited, hwaited⟩ :
      ∃ out, ([] ++ (postLogin data).flatMap stepWaits).mapM optText = some out := by
    rw [mapM_optText, List.nil_append]
    intro selector hselector
    obtain ⟨step, hstep, hselector⟩ := List.mem_flatMap.mp hselector
    exact (h.steps step hstep).waits selector hselector
  have hextract := mapM_extractionField.mpr ⟨h.selectors, rfl⟩
  unfold convertV1ToV2
  dsimp only
  rw [asDict_eq_some.mpr hfields, hiterate, asText_eq_some.mpr hname, hdomain, hurl,
    Option.bind_eq_bind, Option.bind_some]
  refine exists_bind (fieldStep_eq_some.mpr husername) fun username => ?_
  refine exists_bind (fieldStep_eq_some.mpr hpassword) fun password => ?_
  refine exists_bind (fieldStep_eq_some.mpr hsubmit) fun submit => ?_
  simp only [Option.bind_eq_bind, Option.bind_some, hloop, hwaited, hextract]
  exact ⟨_, rfl⟩

/-! ## What loading keeps -/

theorem loadBlueprint_legacy (refused : List Char → Bool)
    (modelValidate : Dict → Option BlueprintV2) {data : Dict} (h : Legacy data) :
    loadBlueprint refused modelValidate (.obj data) = convertV1ToV2 refused data :=
  if_pos h

theorem loadBlueprint_validated (refused : List Char → Bool)
    (modelValidate : Dict → Option BlueprintV2) {data : Dict} (h : ¬ Legacy data) :
    loadBlueprint refused modelValidate (.obj data) = modelValidate data :=
  if_neg h

theorem discoverable_hidden {lower : String → String} {tags : List String}
    (h : ∃ tag ∈ tags, lower tag ∈ hiddenConnectorTags) (demoMode : Bool) :
    blueprintIsDiscoverable lower (some tags) demoMode = false := by
  obtain ⟨tag, htag, hhidden⟩ := h
  have hany : ((tags.map lower).any (· ∈ hiddenConnectorTags)) = true :=
    List.any_eq_true.mpr ⟨lower tag, List.mem_map_of_mem htag, decide_eq_true hhidden⟩
  unfold blueprintIsDiscoverable
  dsimp only [Option.getD_some]
  rw [if_pos hany]

theorem discoverable_untagged (lower : String → String) (demoMode : Bool) :
    blueprintIsDiscoverable lower (some []) demoMode = true := by
  rfl

/-! ## Connectors -/

/-- A connector that is to be hidden backs no template, unless the conversion takes it. -/
theorem not_template_of_hidden {modelValidate : Dict → Option BlueprintV2}
    (hvalidate : ∀ data v, modelValidate data = some v → v.tags = docTags data)
    {refused : List Char → Bool} {lower : String → String} {data : Dict}
    (hhidden : Hidden lower data) (hkept : Legacy data → ¬ V1Shape refused data)
    (before after : List (String × Json)) (stem : String) :
    loadConnectorTemplates refused modelValidate lower (before ++ (stem, .obj data) :: after) =
      loadConnectorTemplates refused modelValidate lower (before ++ after) := by
  have hloaded : ∀ b, loadBlueprint refused modelValidate (.obj data) = some b →
      blueprintIsDiscoverable lower (some b.tags) = false := by
    intro b hb
    by_cases hlegacy : Legacy data
    · rw [loadBlueprint_legacy refused modelValidate hlegacy] at hb
      exact absurd (convertV1ToV2_eq_some hb).1 (hkept hlegacy)
    · rw [loadBlueprint_validated refused modelValidate hlegacy] at hb
      rw [hvalidate data b hb]
      exact discoverable_hidden hhidden false
  have hfilter : ((loadBlueprint refused modelValidate (.obj data)).filter fun blueprint =>
      blueprintIsDiscoverable lower (some blueprint.tags)) = none := by
    rw [Option.filter_eq_none_iff]
    intro b hb
    rw [hloaded b hb]
    exact Bool.false_ne_true
  unfold loadConnectorTemplates
  rw [List.filterMap_append, List.filterMap_append, List.filterMap_cons]
  dsimp only
  rw [hfilter]
  rfl

/-! ## The two promises -/

/-- No loaded blueprint shows a connector that is to be hidden, and a document of
the current schema keeps its sections. -/
structure Keeps (refused : List Char → Bool) (modelValidate : Dict → Option BlueprintV2)
    (lower : String → String) (data : Dict) : Prop where
  hidden : Hidden lower data → ∀ b, loadBlueprint refused modelValidate (.obj data) = some b →
    ∀ demoMode, blueprintIsDiscoverable lower (some b.tags) demoMode = false
  intact : Declares data → ∀ v, modelValidate data = some v →
    ∃ b, loadBlueprint refused modelValidate (.obj data) = some b ∧ b.tags = v.tags ∧
      b.mfa = v.mfa ∧ b.extract = v.extract ∧ b.cleanup = v.cleanup

/-- The conversion finds nothing to lose in the document. -/
structure NothingToLose (refused : List Char → Bool) (modelValidate : Dict → Option BlueprintV2)
    (lower : String → String) (data : Dict) : Prop where
  hidden : Hidden lower data → ¬ V1Shape refused data
  intact : Declares data → ∀ v, modelValidate data = some v → V1Shape refused data ∧
    v.tags = [] ∧ v.mfa = none ∧ v.extract = v1Extract data ∧ v.cleanup = none

/-- Loading keeps what it is to keep of just the documents that are not taken for V1
blueprints and of those that the conversion takes nothing from. -/
theorem loadBlueprint_keeps_iff {modelValidate : Dict → Option BlueprintV2}
    (hvalidate : ∀ data v, modelValidate data = some v → v.tags = docTags data)
    (refused : List Char → Bool) (lower : String → String) (data : Dict) :
    Keeps refused modelValidate lower data ↔
      (Legacy data → NothingToLose refused modelValidate lower data) := by
  constructor
  · intro h hlegacy
    have hload := loadBlueprint_legacy refused modelValidate hlegacy
    refine ⟨fun hhidden hshape => ?_, fun hdeclares v hv => ?_⟩
    · -- a document that is converted has lost its tags
      obtain ⟨b, hb⟩ := convertV1ToV2_of_shape hshape
      have hfalse := h.hidden hhidden b (hload.trans hb) false
      rw [(convertV1ToV2_eq_some hb).2.1, discoverable_untagged] at hfalse
      cases hfalse
    · obtain ⟨b, hb, htags, hmfa, hextract, hcleanup⟩ := h.intact hdeclares v hv
      obtain ⟨hshape, hb⟩ := convertV1ToV2_eq_some (hload.symm.trans hb)
      exact ⟨hshape, htags.symm.trans hb.1, hmfa.symm.trans hb.2.1, hextract.symm.trans hb.2.2.1,
        hcleanup.symm.trans hb.2.2.2⟩
  · intro h
    by_cases hlegacy : Legacy data
    · have hload :=
        loadBlueprint_legacy refused modelValidate hlegacy
      have hnothing := h hlegacy
      refine ⟨fun hhidden b hb => ?_, fun hdeclares v hv => ?_⟩
      · exact absurd (convertV1ToV2_eq_some (hload.symm.trans hb)).1 (hnothing.hidden hhidden)
      · obtain ⟨hshape, htags, hmfa, hextract, hcleanup⟩ := hnothing.intact hdeclares v hv
        obtain ⟨b, hb⟩ := convertV1ToV2_of_shape hshape
        obtain ⟨-, hb'⟩ := convertV1ToV2_eq_some hb
        exact ⟨b, hload.trans hb, hb'.1.trans htags.symm, hb'.2.1.trans hmfa.symm,
          hb'.2.2.1.trans hextract.symm, hb'.2.2.2.trans hcleanup.symm⟩
    · have hload :=
        loadBlueprint_validated refused modelValidate hlegacy
      refine ⟨fun hhidden b hb demoMode => ?_, fun _ v hv => ?_⟩
      · rw [hvalidate data b (hload.symm.trans hb)]
        exact discoverable_hidden hhidden demoMode
      · exact ⟨v, hload.trans hv, rfl, rfl, rfl, rfl⟩

/-! ## Two documents -/

/-- A value for a `List[str]`. -/
def asTexts : Json → Option (List String)
  | .arr texts => texts.mapM asText
  | _ => none

/-- What `model_validate` makes of a document without the optional sections. -/
def plainValidate (data : Dict) : Option BlueprintV2 := do
  let schemaVersion ← asText ((data.lookup "schema_version").getD (.str "2.0"))
  let name ← asText (← data.lookup "name")
  let domain ← asText (← data.lookup "domain")
  let tags ← asTexts ((data.lookup "tags").getD (.arr []))
  let authSteps ← steps? data
  if schemaVersion ∈ ["1.0", "2.0", "3.0"] ∧
      ["mfa", "extract", "cleanup"].all (fun key => (data.lookup key).isNone) then
    some { schemaVersion, name, domain, tags, authSteps }
  else none

theorem asTexts_eq_filterMap {texts : List Json} : ∀ {tags : List String},
    texts.mapM asText = some tags →
      (texts.filterMap fun | .str tag => some tag | _ => none) = tags := by
  induction texts with
  | nil =>
    intro tags h
    exact Option.some.inj h
  | cons text texts ih =>
    intro tags h
    rw [List.mapM_cons] at h
    obtain ⟨tag, htag, h⟩ := Option.bind_eq_some_iff.mp h
    obtain ⟨rest, hrest, h⟩ := Option.bind_eq_some_iff.mp h
    obtain rfl := Option.some.inj h
    obtain rfl := asText_eq_some.mp htag
    rw [List.filterMap_cons, ih hrest]

theorem plainValidate_tags {data : Dict} {v : BlueprintV2} (h : plainValidate data = some v) :
    v.tags = docTags data := by
  unfold plainValidate at h
  obtain ⟨schemaVersion, -, h⟩ := Option.bind_eq_some_iff.mp h
  obtain ⟨nameValue, -, h⟩ := Option.bind_eq_some_iff.mp h
  obtain ⟨name, -, h⟩ := Option.bind_eq_some_iff.mp h
  obtain ⟨domainValue, -, h⟩ := Option.bind_eq_some_iff.mp h
  obtain ⟨domain, -, h⟩ := Option.bind_eq_some_iff.mp h
  obtain ⟨tags, htags, h⟩ := Option.bind_eq_some_iff.mp h
  obtain ⟨authSteps, -, h⟩ := Option.bind_eq_some_iff.mp h
  split at h
  · obtain rfl := Option.some.inj h
    unfold docTags
    cases hlookup : data.lookup "tags" with
    | none =>
      rw [hlookup] at htags
      exact (Option.some.inj htags).symm
    | some value =>
      rw [hlookup] at htags
      cases value with
      | arr texts => exact (asTexts_eq_filterMap htags).symm
      | _ => cases htags
  · cases h

/-- A fixture of the current schema. -/
def fixtureBlueprint : Dict :=
  [("schema_version", .str "3.0"),
    ("name", .str "Greenfield"),
    ("domain", .str "greenfield.test"),
    ("tags", .arr [.str "Internal", .str "fixture"]),
    ("auth", .obj [("steps", .arr [
      .obj [("action", .str "goto"), ("url", .str "https://greenfield.test/login")]])])]

/-- The same with one more key. -/
def legacyFixture : Dict :=
  fixtureBlueprint ++ [("login_url", .str "https://greenfield.test/login")]

theorem fixtureBlueprint_keeps :
    Keeps (fun _ => false) plainValidate Text.asciiLower fixtureBlueprint :=
  (loadBlueprint_keeps_iff (fun _ _ => plainValidate_tags) (fun _ => false) Text.asciiLower
    fixtureBlueprint).mpr fun hlegacy => absurd hlegacy (by decide)

theorem legacyFixture_not_keeps :
    ¬ Keeps (fun _ => false) plainValidate Text.asciiLower legacyFixture := by
  intro h
  have hhidden : Hidden Text.asciiLower legacyFixture :=
    ⟨"Internal", by decide, by decide⟩
  have hfalse := h.hidden hhidden _ rfl false
  revert hfalse
  decide

end Plaidify.Blueprints
