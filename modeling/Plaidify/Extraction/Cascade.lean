import Plaidify.Extraction.SelectorCache
import Plaidify.Lib.Text
import Plaidify.Resilience.FallbackChain

/-!
# The four stages of adaptive extraction

`_extract_llm_adaptive` of `src/src/core/engine.py` with its stages, down to the
text that a language model answers and to the exceptions of everything a stage
calls. A failed stage should count as one without data, so that the next one is
tried; `cascades_iff` says when this is so.

The stages differ in what they catch. The two that read the page by selectors
catch every `Exception`, once they have made their definitions. The two that ask a
model catch `LLMProviderError` only, and they close the provider whatever happens.
-/

namespace Plaidify.Extraction.Cascade

open Rounding Resilience

/-! ## Exceptions -/

/-- The exceptions that some handler tells apart. -/
inductive Exc where
  /-- `LLMProviderError` and the classes under it. -/
  | llmProvider (message : String)
  /-- `ValueError`, of which `JSONDecodeError` is one. -/
  | value (message : String)
  | other (message : String)
deriving DecidableEq

/-- What a call of a provider raises. -/
def Exc.ofCall : CallError → Exc
  | .rateLimit message _ | .auth message | .provider message => .llmProvider message
  | .other message => .other message

/-! ## The provider -/

/-- The `content` of an `LLMResponse`: whatever JSON value the provider sent. -/
structure LLMResponse where
  content : Json

/-- What the HTTP client makes of a request. -/
inductive HttpOutcome where
  | raised (message : String)
  | response (status : Nat) (retryAfter : Option String) (text : String)

section

variable (floatRepr : String → String) (float : String → Option Number)

/-- `data["choices"][0]["message"]["content"]`, where `data.get("usage", {})` has a
`get` of its own. -/
def chatContent : Json → Option Json
  | .obj data =>
      match data.lookup "choices", (data.lookup "usage").getD (.obj []) with
      | some (.arr (.obj choice :: _)), .obj _ =>
          match choice.lookup "message" with
          | some (.obj message) => message.lookup "content"
          | _ => none
      | _, _ => none
  | _ => none

/-- `OpenAIProvider._call`; `float` reads a text as Python does. -/
def openAICall : HttpOutcome → Except CallError LLMResponse
  | .raised message => .error (.other message)
  | .response status retryAfter text =>
      if status = 429 then
        match retryAfter.filter (· ≠ "") with
        | none => .error (.rateLimit "OpenAI rate limit exceeded" none)
        | some header =>
            match float header with
            | none => .error (.other ("could not convert string to float: " ++ header))
            | some delay => .error (.rateLimit "OpenAI rate limit exceeded" (some delay))
      else if status = 401 ∨ status = 403 then
        .error (.auth ("OpenAI authentication failed: " ++ toString status))
      else if status ≠ 200 then
        .error (.provider ("OpenAI API error " ++ toString status ++ ": " ++
          String.ofList (text.toList.take 500)))
      else
        match Json.loads floatRepr text with
        | none => .error (.other "Expecting value")
        | some data =>
            match chatContent data with
            | none => .error (.other "'choices'")
            | some content => .ok ⟨content⟩

/-! ## Reading an answer -/

/-- The text without a fence of three backquotes around it. -/
def stripFence (text : String) : String :=
  let text := Text.strip text
  if "```".toList.isPrefixOf text.toList then
    let lines := text.toList.splitOn '\n'
    let inner :=
      if Text.strip (String.ofList (lines.getLastD [])) = "```" then lines.tail.dropLast
      else lines.tail
    String.ofList (['\n'].intercalate inner)
  else text

/-- `LLMResponse.parse_json`. -/
def parseJson : Json → Except Exc Json
  | .str content =>
      match Json.loads floatRepr (stripFence content) with
      | some data => .ok data
      | none => .error (.value "Expecting value")
  | _ => .error (.other "object has no attribute 'strip'")

/-- Too large for a float, rounded to the nearest. -/
def overflows (n : Int) : Bool :=
  2 ^ 1024 - 2 ^ 970 ≤ n.natAbs

/-- `max(0.0, min(1.0, x))`. -/
def clamp (x : Number) : Number :=
  Number.max (.finite 0) (Number.min (.finite 1) x)

/-- `confidence`: `TypeError` and `ValueError` of `float` come to 0. -/
def confidenceOf : Json → Except Exc Number
  | .null | .arr _ | .obj _ => .ok (.finite 0)
  | .bool b => .ok (.finite (if b then 1 else 0))
  | .int n =>
      if overflows n then .error (.other "int too large to convert to float")
      else .ok (clamp (.finite n))
  | .float repr | .str repr => .ok ((float repr).elim (.finite 0) clamp)

/-- What `parse_extraction_json` returns. -/
structure Answer where
  data : Json
  selectors : Json
  confidence : Number

/-- `parse_extraction_json`, of a response. -/
def parseExtractionJson (content : Json) : Except Exc Answer := do
  let parsed ← parseJson floatRepr content
  match parsed with
  | .obj members => do
      let confidence ← confidenceOf float ((members.lookup "confidence").getD (.float "0.0"))
      return {
        data := (members.lookup "data").getD (.obj [])
        selectors := (members.lookup "selectors").getD (.obj [])
        confidence }
  | _ => .error (.value "Expected dict from LLM")

end

/-- `len`, which the log records of both model stages call. -/
def len : Json → Except Exc Nat
  | .str s => .ok s.length
  | .arr xs => .ok xs.length
  | .obj kvs => .ok kvs.length
  | _ => .error (.other "object has no len()")

/-- `confidence >= bound`. -/
def Number.atLeast (confidence : Number) (bound : ℚ) : Bool :=
  !confidence.lt (.finite bound)

/-! ## The stages -/

/-- What the calls of an extraction come to. -/
structure World where
  site : String
  blueprint : Blueprint
  defs : FieldDefs
  /-- The selectors of the entry of the cache, which is made on its first use. -/
  lookup : Except Exc (Option Json)
  cachedPage : Page
  /-- Writing the cache to its file. -/
  recordSuccess : Except Exc Unit := .ok ()
  recordFailure : Except Exc Unit := .ok ()
  put : Except String Unit := .ok ()
  /-- An API key is set. -/
  configured : Bool
  /-- `DOMSimplifier.simplify`. -/
  simplify : Except Exc String
  llmCall : Except CallError LLMResponse
  llmClose : Except Exc Unit := .ok ()
  /-- `_capture_screenshot`. -/
  screenshot : Except Exc Unit
  visionCall : Except CallError LLMResponse
  visionClose : Except Exc Unit := .ok ()
  fallbackPage : Page

/-- The `try` of `_extract_with_cached_selectors`. -/
def extractCached (w : World) (defs : FieldDefs) : Option Json :=
  match extract w.cachedPage defs, w.recordSuccess with
  | some data, .ok _ => some (.obj data)
  -- `except (DataExtractionError, Exception)`
  | _, _ => none

/-- `_extract_with_cached_selectors`. -/
def extractWithCachedSelectors (w : World) (selectors : Json) : Except Exc (Option Json) :=
  match selectors with
  | .obj selectors =>
      match tempDefs w.defs selectors with
      | .error _ => .error (.other "object has no attribute 'get'")
      | .ok [] => .ok none
      | .ok defs =>
          match extractCached w defs with
          | some data => .ok (some data)
          | none => w.recordFailure.map fun _ => none
  | _ => .error (.other "object has no attribute 'items'")

/-- The `try` of the two stages that ask a model. -/
def withProvider (w : World) (close : Except Exc Unit) (body : Except Exc (Option Json)) :
    Except Exc (Option Json) :=
  if w.configured then
    let result :=
      match body with
      | .error (.llmProvider _) => .ok none
      | result => result
    -- `finally`: an exception of `close` takes the place of the result
    close.bind fun _ => result
  else .ok none

section

variable (floatRepr : String → String) (float : String → Option Number)

/-- What `_extract_with_llm` does with an answer. -/
def llmAnswer (w : World) (content : Json) : Except Exc (Option Json) := do
  let answer ← parseExtractionJson floatRepr float content
  -- the log record is the first to look at the data
  let _ ← len answer.data
  let _ ← len answer.selectors
  if answer.selectors.truthy && Number.atLeast answer.confidence (1 / 2) then
    w.put.mapError Exc.other
  return some answer.data

/-- `_extract_with_llm`. -/
def extractWithLlm (w : World) : Except Exc (Option Json) :=
  withProvider w w.llmClose do
    let _ ← w.simplify
    let response ← w.llmCall.mapError Exc.ofCall
    llmAnswer floatRepr float w response.content

/-- `_parse_vision_response`. -/
def parseVisionResponse (content : Json) : Except Exc Answer :=
  match parseExtractionJson floatRepr float content with
  | .error (.value message) =>
      .error (.llmProvider ("Vision model returned invalid JSON: " ++ message))
  | result => result

/-- What `_extract_with_multimodal` does with an answer. -/
def visionAnswer (content : Json) : Except Exc (Option Json) := do
  let answer ← parseVisionResponse floatRepr float content
  let _ ← len answer.data
  return if Number.atLeast answer.confidence (3 / 10) then some answer.data else none

/-- `_extract_with_multimodal`. -/
def extractWithMultimodal (w : World) : Except Exc (Option Json) :=
  withProvider w w.visionClose do
    let _ ← w.screenshot
    let response ← w.visionCall.mapError Exc.ofCall
    visionAnswer floatRepr float response.content

/-- `_extract_with_fallback_selectors`. -/
def extractWithFallbackSelectors (w : World) : Option Json :=
  match fallbackDefs w.defs w.blueprint.fallbackSelectors with
  | [] => none
  | defs => (extract w.fallbackPage defs).map .obj

/-- How an extraction ends. -/
inductive Result where
  | found (data : Json) (method : Method)
  /-- `DataExtractionError`. -/
  | failed (site detail : String)
  | raised (exc : Exc)

/-- `if data: return data, method`. -/
def orElse (data : Option Json) (method : Method) (next : Result) : Result :=
  match data.filter Json.truthy with
  | some data => .found data method
  | none => next

/-- A stage whose exceptions nothing catches. -/
def attempt (stage : Except Exc (Option Json)) (method : Method) (next : Result) : Result :=
  match stage with
  | .error exc => .raised exc
  | .ok data => orElse data method next

def allFailed (site : String) : Result :=
  .failed site ("All extraction methods failed " ++
    "(cached selectors, LLM, multimodal, fallback selectors).")

/-- `_extract_llm_adaptive`. -/
def extractLlmAdaptive (w : World) : Result :=
  let fallback := orElse (extractWithFallbackSelectors w) .fallbackSelectors (allFailed w.site)
  let models :=
    attempt (extractWithLlm floatRepr float w) .llm
      (attempt (extractWithMultimodal floatRepr float w) .multimodal fallback)
  match w.lookup with
  | .error exc => .raised exc
  | .ok none => models
  | .ok (some selectors) => attempt (extractWithCachedSelectors w selectors) .cachedSelectors models

end

/-! ## The reference -/

variable (floatRepr : String → String) (float : String → Option Number)

/-- The JSON object in an answer. -/
def answerObject : Json → Option Dict
  | .str content =>
      match Json.loads floatRepr (stripFence content) with
      | some (.obj members) => some members
      | _ => none
  | _ => none

/-- What the cached selectors find. -/
def cachedData (w : World) : Option Json :=
  match w.lookup with
  | .ok (some (.obj selectors)) =>
      match tempDefs w.defs selectors with
      | .ok (m :: defs) => extractCached w (m :: defs)
      | _ => none
  | _ => none

/-- What the language model answers. -/
def llmData (w : World) : Option Json :=
  if w.configured then
    match w.simplify, w.llmCall with
    | .ok _, .ok response =>
        (answerObject floatRepr response.content).map fun members =>
          (members.lookup "data").getD (.obj [])
    | _, _ => none
  else none

/-- The confidence that an answer states, where it fits a float. -/
def confidence? (members : Dict) : Option Number :=
  (confidenceOf float ((members.lookup "confidence").getD (.float "0.0"))).toOption

/-- What the vision model answers with some confidence. -/
def visionData (w : World) : Option Json :=
  if w.configured then
    match w.screenshot, w.visionCall with
    | .ok _, .ok response =>
        ((answerObject floatRepr response.content).filter fun members =>
          (confidence? float members).any (Number.atLeast · (3 / 10))).map fun members =>
            (members.lookup "data").getD (.obj [])
    | _, _ => none
  else none

/-- The data of the first stage that has some, with the name of the stage. -/
def reference (w : World) : Result :=
  orElse (cachedData w) .cachedSelectors <|
  orElse (llmData floatRepr w) .llm <|
  orElse (visionData floatRepr float w) .multimodal <|
  orElse (extractWithFallbackSelectors w) .fallbackSelectors <|
  allFailed w.site

/-! ## What a stage catches -/

def HasLen : Json → Prop
  | .str _ | .arr _ | .obj _ => True
  | _ => False

/-- `except LLMProviderError` has it, or there is nothing to catch. -/
def Caught {α : Type} (result : Except Exc α) : Prop :=
  ∀ exc, result = .error exc → ∃ message, exc = .llmProvider message

def CallCaught (result : Except CallError LLMResponse) : Prop :=
  ∀ message, result ≠ .error (.other message)

def ConfidenceFits (members : Dict) : Prop :=
  ∀ n, members.lookup "confidence" = some (.int n) → overflows n = false

/-- The columns of a cached list field are a dictionary, where they are needed. -/
def ColumnsReadable (defs : FieldDefs) (selectors : Dict) : Prop :=
  ∀ m ∈ selectors, ∀ field info row columns, defs.lookup m.1 = some (.list field) →
    m.2 = .obj info → info.lookup "row" = some row → info.lookup "fields" = some columns →
      field.fields = [] ∨ ∃ kvs, columns = .obj kvs

/-- The cache can be read, what is in it is a dictionary, and a failed extraction
can be recorded. -/
def CachedQuiet (w : World) : Prop :=
  match w.lookup with
  | .error _ => False
  | .ok none => True
  | .ok (some (.obj selectors)) =>
      ColumnsReadable w.defs selectors ∧
        (tempDefs w.defs selectors ≠ .ok [] → cachedData w = none →
          ∃ u, w.recordFailure = .ok u)
  | .ok (some _) => False

/-- The answer is the text of a JSON object, the log record can be written, and so
can the cache. -/
def LlmReadable (w : World) (content : Json) : Prop :=
  ∃ members, answerObject floatRepr content = some members ∧ ConfidenceFits members ∧
    HasLen ((members.lookup "data").getD (.obj [])) ∧
    HasLen ((members.lookup "selectors").getD (.obj [])) ∧
    (((members.lookup "selectors").getD (.obj [])).truthy = true →
      (confidence? float members).any (Number.atLeast · (1 / 2)) = true → ∃ u, w.put = .ok u)

def LlmQuiet (w : World) : Prop :=
  w.configured = true →
    (∃ u, w.llmClose = .ok u) ∧ Caught w.simplify ∧
      ∀ html, w.simplify = .ok html → CallCaught w.llmCall ∧
        ∀ response, w.llmCall = .ok response → LlmReadable floatRepr float w response.content

/-- The answer is a text; it need not be JSON here. -/
def VisionReadable (content : Json) : Prop :=
  (∃ text, content = .str text) ∧
    ∀ members, answerObject floatRepr content = some members →
      ConfidenceFits members ∧ HasLen ((members.lookup "data").getD (.obj []))

def VisionQuiet (w : World) : Prop :=
  w.configured = true →
    (∃ u, w.visionClose = .ok u) ∧ Caught w.screenshot ∧
      ∀ u, w.screenshot = .ok u → CallCaught w.visionCall ∧
        ∀ response, w.visionCall = .ok response → VisionReadable floatRepr response.content

/-- No stage that is reached lets an exception through. -/
def Quiet (w : World) : Prop :=
  CachedQuiet w ∧
    ((cachedData w).filter Json.truthy = none →
      LlmQuiet floatRepr float w ∧
        ((llmData floatRepr w).filter Json.truthy = none → VisionQuiet floatRepr w))

/-! ## Cached selectors -/

theorem listDef_ok_iff {row : Json} {fields : Option Json} {original : ListExtractionField} :
    (∃ field, listDef row fields original = .ok field) ↔
      ∀ columns, fields = some columns → original.fields = [] ∨ ∃ kvs, columns = .obj kvs := by
  rcases fields with _ | columns
  · simp [listDef]
  · cases columns with
    | obj kvs => simp [listDef]
    | null | bool _ | int _ | float _ | str _ | arr _ =>
        cases hfields : original.fields with
        | nil => simp [listDef, hfields]
        | cons column columns => simp [listDef, hfields]

/-- `sel_info["row"]` and the columns next to it, of a dictionary that has a row. -/
def cachedRow : Json → Option (Json × Option Json)
  | .obj info => (info.lookup "row").map fun row => (row, info.lookup "fields")
  | _ => none

theorem tempDef_eq (selInfo : Json) (original : FieldDef) :
    tempDef selInfo original =
      match cachedRow selInfo, original with
      | some (row, fields), .list original =>
          (listDef row fields original).map fun field => some (FieldDef.list field)
      | none, .scalar original => .ok (some (FieldDef.scalar { original with selector := selInfo }))
      | _, _ => .ok none := by
  unfold tempDef cachedRow
  cases selInfo with
  | obj info =>
      cases hrow : info.lookup "row" <;> cases original <;> simp only [hrow] <;> rfl
  | null | bool _ | int _ | float _ | str _ | arr _ => cases original <;> rfl

theorem tempDef_ok_iff {selInfo : Json} {original : FieldDef} :
    (∃ made, tempDef selInfo original = .ok made) ↔
      ∀ field info row columns, original = .list field → selInfo = .obj info →
        info.lookup "row" = some row → info.lookup "fields" = some columns →
          field.fields = [] ∨ ∃ kvs, columns = .obj kvs := by
  cases original with
  | scalar original =>
      refine iff_of_true ?_ nofun
      rw [tempDef_eq]
      cases cachedRow selInfo with
      | none => exact ⟨_, rfl⟩
      | some cached => exact ⟨none, rfl⟩
  | list original =>
      rw [tempDef_eq]
      cases hrow : cachedRow selInfo with
      | none =>
          -- without a row the selector is one for a scalar field
          refine iff_of_true ⟨none, rfl⟩ ?_
          rintro field info row columns - rfl hlookup -
          simp [cachedRow, hlookup] at hrow
      | some cached =>
          rcases cached with ⟨row, fields⟩
          have hok : (∃ made, (listDef row fields original).map
              (fun field => some (FieldDef.list field)) = .ok made) ↔
              ∃ field, listDef row fields original = .ok field := by
            cases listDef row fields original with
            | error e => simp [Except.map]
            | ok field => simp [Except.map]
          rw [hok, listDef_ok_iff]
          constructor
          · rintro h field info row' columns heq rfl hlookup hcolumns
            obtain rfl := FieldDef.list.inj heq
            apply h columns
            simp only [cachedRow, hlookup, Option.map_some, Option.some.injEq,
              Prod.mk.injEq] at hrow
            rw [← hrow.2, hcolumns]
          · intro h columns hcolumns
            cases selInfo with
            | obj info =>
                rcases Option.map_eq_some_iff.mp hrow with ⟨row', hlookup, heq⟩
                obtain ⟨-, hfields⟩ := Prod.mk.inj heq
                exact h original info row' columns rfl rfl hlookup (hfields.trans hcolumns)
            | null | bool _ | int _ | float _ | str _ | arr _ => cases hrow

theorem tempDefs_ok_iff {defs : FieldDefs} {selectors : Dict} :
    (∃ made, tempDefs defs selectors = .ok made) ↔ ColumnsReadable defs selectors := by
  induction selectors with
  | nil => exact iff_of_true ⟨[], rfl⟩ nofun
  | cons m rest ih =>
      rcases m with ⟨name, selInfo⟩
      have hsplit : ColumnsReadable defs ((name, selInfo) :: rest) ↔
          (∀ original, defs.lookup name = some original →
            ∃ made, tempDef selInfo original = .ok made) ∧ ColumnsReadable defs rest := by
        unfold ColumnsReadable
        rw [List.forall_mem_cons]
        refine and_congr_left fun _ => ?_
        constructor
        · intro h original hlookup
          rw [tempDef_ok_iff]
          rintro field info row columns rfl hinfo hrow hcolumns
          exact h field info row columns hlookup hinfo hrow hcolumns
        · intro h field info row columns hlookup hinfo hrow hcolumns
          exact tempDef_ok_iff.mp (h _ hlookup) field info row columns rfl hinfo hrow hcolumns
      rw [hsplit, ← ih]
      cases hlookup : defs.lookup name with
      | none => simp [tempDefs, hlookup]
      | some original =>
          simp only [tempDefs, hlookup, Option.some.injEq, forall_eq']
          cases tempDef selInfo original with
          | error e => simp [bind, Except.bind]
          | ok made =>
              cases tempDefs defs rest with
              | error e => simp [bind, Except.bind]
              | ok more => simp [bind, Except.bind, pure, Except.pure]

/-- The first stage, with the reading of the cache. -/
def cachedStage (w : World) : Except Exc (Option Json) :=
  match w.lookup with
  | .error exc => .error exc
  | .ok none => .ok none
  | .ok (some selectors) => extractWithCachedSelectors w selectors

/-- The first stage either comes to its data or raises, which it does exactly if
it is not quiet. -/
theorem cachedStage_cases (w : World) :
    (CachedQuiet w ∧ cachedStage w = .ok (cachedData w)) ∨
      (¬CachedQuiet w ∧ ∃ exc, cachedStage w = .error exc) := by
  unfold CachedQuiet cachedStage cachedData
  rcases hlookup : w.lookup with exc | _ | selectors
  · exact .inr ⟨id, exc, rfl⟩
  · exact .inl ⟨trivial, rfl⟩
  · cases selectors with
    | null | bool _ | int _ | float _ | str _ | arr _ => exact .inr ⟨id, _, rfl⟩
    | obj selectors =>
        dsimp only
        rw [← tempDefs_ok_iff]
        simp only [extractWithCachedSelectors]
        rcases hdefs : tempDefs w.defs selectors with e | _ | ⟨m, defs⟩
        · refine .inr ⟨?_, _, rfl⟩
          rintro ⟨⟨made, hmade⟩, -⟩
          cases hmade
        · exact .inl ⟨⟨⟨[], rfl⟩, fun hne => absurd rfl hne⟩, rfl⟩
        · have hne : Except.ok (ε := Unit) (m :: defs) ≠ .ok [] := by simp
          dsimp only
          cases htried : extractCached w (m :: defs) with
          | some data => exact .inl ⟨⟨⟨_, rfl⟩, fun _ hnone => by cases hnone⟩, rfl⟩
          | none =>
              -- the failure is recorded outside of the `try`
              cases hrecord : w.recordFailure with
              | ok u => exact .inl ⟨⟨⟨_, rfl⟩, fun _ _ => ⟨u, rfl⟩⟩, rfl⟩
              | error exc =>
                  refine .inr ⟨?_, exc, rfl⟩
                  rintro ⟨-, h⟩
                  rcases h hne rfl with ⟨u, hu⟩
                  cases hu

/-! ## Answers -/

variable {floatRepr : String → String} {float : String → Option Number}

theorem len_cases (v : Json) :
    (HasLen v ∧ ∃ n, len v = .ok n) ∨ (¬HasLen v ∧ ∃ message, len v = .error (.other message)) := by
  cases v with
  | str _ | arr _ | obj _ => exact .inl ⟨trivial, _, rfl⟩
  | null | bool _ | int _ | float _ => exact .inr ⟨id, _, rfl⟩

theorem confidence_cases (float : String → Option Number) (members : Dict) :
    (ConfidenceFits members ∧ ∃ c, confidence? float members = some c ∧
      confidenceOf float ((members.lookup "confidence").getD (.float "0.0")) = .ok c) ∨
    (¬ConfidenceFits members ∧ ∃ message,
      confidenceOf float ((members.lookup "confidence").getD (.float "0.0")) =
        .error (.other message)) := by
  unfold ConfidenceFits confidence?
  cases hlookup : members.lookup "confidence" with
  | none => exact .inl ⟨nofun, _, rfl, rfl⟩
  | some v =>
      cases v with
      | int n =>
          cases hover : overflows n with
          | true =>
              refine .inr ⟨?_, "int too large to convert to float", ?_⟩
              · intro h
                have hfits := h n rfl
                rw [hover] at hfits
                cases hfits
              · simp only [Option.getD_some, confidenceOf, hover, if_true]
          | false =>
              refine .inl ⟨?_, clamp (.finite n), ?_, ?_⟩
              · rintro k hk
                obtain rfl := Json.int.inj (Option.some.inj hk)
                exact hover
              · simp only [Option.getD_some, confidenceOf, hover, Bool.false_eq_true, if_false]
                rfl
              · simp only [Option.getD_some, confidenceOf, hover, Bool.false_eq_true, if_false]
      | null | bool _ | float _ | str _ | arr _ | obj _ => exact .inl ⟨nofun, _, rfl, rfl⟩

/-- An answer with an object in it is read as far as its confidence allows. -/
theorem parse_object {content : Json} {members : Dict}
    (h : answerObject floatRepr content = some members) :
    parseExtractionJson floatRepr float content =
      (confidenceOf float ((members.lookup "confidence").getD (.float "0.0"))).map fun confidence =>
        { data := (members.lookup "data").getD (.obj [])
          selectors := (members.lookup "selectors").getD (.obj [])
          confidence } := by
  unfold answerObject at h
  split at h
  · rename_i text
    split at h
    · rename_i hloads
      obtain rfl := Option.some.inj h
      simp only [parseExtractionJson, parseJson, hloads, bind, Except.bind]
      rfl
    · cases h
  · cases h

/-- A text without an object in it is a `ValueError`. -/
theorem parse_text (float : String → Option Number) {text : String}
    (h : answerObject floatRepr (.str text) = none) :
    ∃ message, parseExtractionJson floatRepr float (.str text) = .error (.value message) := by
  unfold answerObject at h
  simp only at h
  cases hloads : Json.loads floatRepr (stripFence text) with
  | none => exact ⟨"Expecting value", by simp only [parseExtractionJson, parseJson, hloads]; rfl⟩
  | some data =>
      rw [hloads] at h
      cases data with
      | obj members => cases h
      | null | bool _ | int _ | float _ | str _ | arr _ =>
          refine ⟨"Expected dict from LLM", ?_⟩
          simp only [parseExtractionJson, parseJson, hloads]
          rfl

theorem parse_not_text (float : String → Option Number) {content : Json}
    (h : ¬∃ text, content = .str text) :
    answerObject floatRepr content = none ∧
      ∃ message, parseExtractionJson floatRepr float content = .error (.other message) := by
  cases content with
  | str text => exact absurd ⟨text, rfl⟩ h
  | null | bool _ | int _ | float _ | arr _ | obj _ => exact ⟨rfl, _, rfl⟩

/-! ## The stages that ask a model -/

/-- A body either comes to the data, perhaps through a provider's error, or raises
something else, which it does exactly if it is not quiet. -/
def BodyCases (quiet : Prop) (body : Except Exc (Option Json)) (data : Option Json) : Prop :=
  (quiet ∧ (body = .ok data ∨ data = none ∧ ∃ message, body = .error (.llmProvider message))) ∨
    (¬quiet ∧ ∃ exc, body = .error exc ∧ ∀ message, exc ≠ .llmProvider message)

theorem withProvider_cases {w : World} {close : Except Exc Unit} {quiet : Prop}
    {body : Except Exc (Option Json)} {data : Option Json}
    (hconfigured : w.configured = true) (h : BodyCases quiet body data) :
    (((∃ u, close = .ok u) ∧ quiet) ∧ withProvider w close body = .ok data) ∨
      (¬((∃ u, close = .ok u) ∧ quiet) ∧ ∃ exc, withProvider w close body = .error exc) := by
  unfold withProvider
  rw [if_pos hconfigured]
  cases close with
  | error exc =>
      refine .inr ⟨?_, exc, rfl⟩
      rintro ⟨⟨u, hu⟩, -⟩
      cases hu
  | ok u =>
      rcases h with ⟨hquiet, rfl | ⟨rfl, message, rfl⟩⟩ | ⟨hnot, exc, rfl, hescapes⟩
      · exact .inl ⟨⟨⟨u, rfl⟩, hquiet⟩, rfl⟩
      · exact .inl ⟨⟨⟨u, rfl⟩, hquiet⟩, rfl⟩
      · refine .inr ⟨fun hquiet => hnot hquiet.2, exc, ?_⟩
        cases exc with
        | llmProvider message => exact absurd rfl (hescapes message)
        | value message | other message => rfl

/-- Something that may raise, before the rest of a body. -/
theorem BodyCases.bind {α : Type} {first : Except Exc α} {rest : α → Except Exc (Option Json)}
    {quiet : α → Prop} {data : Option Json}
    (herror : ∀ message, first = .error (.llmProvider message) → data = none)
    (hrest : ∀ a, first = .ok a → BodyCases (quiet a) (rest a) data) :
    BodyCases (Caught first ∧ ∀ a, first = .ok a → quiet a) (first >>= rest) data := by
  cases first with
  | error exc =>
      cases exc with
      | llmProvider message =>
          refine .inl ⟨⟨?_, nofun⟩, .inr ⟨herror message rfl, message, rfl⟩⟩
          intro exc heq
          exact ⟨message, (Except.error.inj heq).symm⟩
      | value message | other message =>
          refine .inr ⟨?_, _, rfl, nofun⟩
          rintro ⟨hcaught, -⟩
          rcases hcaught _ rfl with ⟨message', heq⟩
          cases heq
  | ok a =>
      have hquiet : (Caught (Except.ok (ε := Exc) a) ∧
          ∀ b, Except.ok (ε := Exc) a = .ok b → quiet b) ↔ quiet a := by
        constructor
        · intro h
          exact h.2 a rfl
        · intro h
          refine ⟨nofun, ?_⟩
          rintro b hb
          obtain rfl := Except.ok.inj hb
          exact h
      have hcases := hrest a rfl
      unfold BodyCases at hcases ⊢
      rw [hquiet]
      exact hcases

theorem caught_call {call : Except CallError LLMResponse} :
    Caught (call.mapError Exc.ofCall) ↔ CallCaught call := by
  cases call with
  | ok response => exact iff_of_true nofun nofun
  | error e =>
      cases e with
      | rateLimit message _ | auth message | provider message =>
          refine iff_of_true ?_ nofun
          rintro exc heq
          exact ⟨message, (Except.error.inj heq).symm⟩
      | other message =>
          refine iff_of_false ?_ fun h => h message rfl
          intro h
          rcases h _ rfl with ⟨message', heq⟩
          cases heq

theorem mapError_ok {call : Except CallError LLMResponse} {response : LLMResponse} :
    call.mapError Exc.ofCall = .ok response ↔ call = .ok response := by
  cases call with
  | ok response' => simp [Except.mapError]
  | error e => exact iff_of_false nofun nofun

/-- Without an object in it an answer cannot be read. -/
theorem parse_none (float : String → Option Number) {content : Json}
    (h : answerObject floatRepr content = none) :
    ∃ exc, parseExtractionJson floatRepr float content = .error exc ∧
      ∀ message, exc ≠ .llmProvider message := by
  by_cases htext : ∃ text, content = .str text
  · rcases htext with ⟨text, rfl⟩
    rcases parse_text float h with ⟨message, hparse⟩
    exact ⟨_, hparse, nofun⟩
  · rcases (parse_not_text float htext).2 with ⟨message, hparse⟩
    exact ⟨_, hparse, nofun⟩

theorem llmAnswer_cases (w : World) (content : Json) :
    BodyCases (LlmReadable floatRepr float w content) (llmAnswer floatRepr float w content)
      ((answerObject floatRepr content).map fun members =>
        (members.lookup "data").getD (.obj [])) := by
  unfold llmAnswer
  cases hobject : answerObject floatRepr content with
  | none =>
      -- the answer is no object, so that it cannot be parsed
      rcases parse_none float hobject with ⟨exc, hparse, hescapes⟩
      refine .inr ⟨?_, exc, by rw [hparse]; rfl, hescapes⟩
      rintro ⟨members, hmembers, -⟩
      rw [hobject] at hmembers
      cases hmembers
  | some members =>
      -- the object is readable if its parts are
      have hreadable : LlmReadable floatRepr float w content ↔
          ConfidenceFits members ∧ HasLen ((members.lookup "data").getD (.obj [])) ∧
          HasLen ((members.lookup "selectors").getD (.obj [])) ∧
          (((members.lookup "selectors").getD (.obj [])).truthy = true →
            (confidence? float members).any (Number.atLeast · (1 / 2)) = true →
              ∃ u, w.put = .ok u) := by
        unfold LlmReadable
        simp only [hobject, Option.some.injEq, exists_eq_left']
      rw [hreadable, parse_object hobject]
      rcases confidence_cases float members with
        ⟨hfits, c, hconfidence, hc⟩ | ⟨hnot, message, hc⟩
      · rw [hc, hconfidence]
        -- the confidence is a number
        rcases len_cases ((members.lookup "data").getD (.obj [])) with
          ⟨hdata, n, hn⟩ | ⟨hdata, message, hn⟩
        · -- the data has a length
          rcases len_cases ((members.lookup "selectors").getD (.obj [])) with
            ⟨hselectors, k, hk⟩ | ⟨hselectors, message, hk⟩
          · -- so have the selectors
            simp only [Except.map, bind, Except.bind, hn, hk, Option.any_some]
            by_cases hwrites : ((members.lookup "selectors").getD (.obj [])).truthy = true ∧
                Number.atLeast c (1 / 2) = true
            · -- the cache is written
              rw [hwrites.1, hwrites.2]
              cases hput : w.put with
              | ok u => exact .inl ⟨⟨hfits, hdata, hselectors, fun _ _ => ⟨u, rfl⟩⟩, .inl rfl⟩
              | error message =>
                  refine .inr ⟨?_, .other message, rfl, nofun⟩
                  rintro ⟨-, -, -, h⟩
                  rcases h rfl rfl with ⟨u, hu⟩
                  cases hu
            · -- nothing is written to the cache
              have hskip : (((members.lookup "selectors").getD (.obj [])).truthy &&
                  Number.atLeast c (1 / 2)) = false := by
                rw [Bool.eq_false_iff]
                intro h
                exact hwrites (Bool.and_eq_true_iff.mp h)
              rw [hskip]
              refine .inl ⟨⟨hfits, hdata, hselectors, fun htruthy hsure => ?_⟩, .inl rfl⟩
              exact absurd ⟨htruthy, hsure⟩ hwrites
          · -- the selectors have none
            refine .inr ⟨fun h => hselectors h.2.2.1, .other message, ?_, nofun⟩
            simp only [Except.map, bind, Except.bind, hn, hk]
        · -- the data has none
          refine .inr ⟨fun h => hdata h.2.1, .other message, ?_, nofun⟩
          simp only [Except.map, bind, Except.bind, hn]
      · -- the confidence is no number
        refine .inr ⟨fun h => hnot h.1, .other message, ?_, nofun⟩
        rw [hc]
        rfl

theorem visionAnswer_cases (content : Json) :
    BodyCases (VisionReadable floatRepr content) (visionAnswer floatRepr float content)
      (((answerObject floatRepr content).filter fun members =>
        (confidence? float members).any (Number.atLeast · (3 / 10))).map fun members =>
          (members.lookup "data").getD (.obj [])) := by
  unfold visionAnswer parseVisionResponse
  by_cases htext : ∃ text, content = .str text
  · rcases htext with ⟨text, rfl⟩
    cases hobject : answerObject floatRepr (.str text) with
    | none =>
        -- what is no JSON object is a provider's error here
        rcases parse_text float hobject with ⟨message, hparse⟩
        refine .inl ⟨⟨⟨text, rfl⟩, ?_⟩, .inr ⟨rfl, _, by rw [hparse]; rfl⟩⟩
        intro members hmembers
        rw [hobject] at hmembers
        cases hmembers
    | some members =>
        have hreadable : VisionReadable floatRepr (.str text) ↔
            ConfidenceFits members ∧ HasLen ((members.lookup "data").getD (.obj [])) := by
          unfold VisionReadable
          simp only [hobject, Json.str.injEq, exists_eq', true_and, Option.some.injEq, forall_eq']
        rw [hreadable, parse_object hobject]
        rcases confidence_cases float members with
          ⟨hfits, c, hconfidence, hc⟩ | ⟨hnot, message, hc⟩
        · rw [hc]
          simp only [Option.filter, hconfidence, Option.any_some]
          rcases len_cases ((members.lookup "data").getD (.obj [])) with
            ⟨hdata, n, hn⟩ | ⟨hdata, message, hn⟩
          · refine .inl ⟨⟨hfits, hdata⟩, .inl ?_⟩
            simp only [Except.map, bind, Except.bind, hn]
            cases Number.atLeast c (3 / 10) with
            | true => rfl
            | false => rfl
          · refine .inr ⟨fun h => hdata h.2, .other message, ?_, nofun⟩
            simp only [Except.map, bind, Except.bind, hn]
        · refine .inr ⟨fun h => hnot h.1, .other message, ?_, nofun⟩
          rw [hc]
          rfl
  · rcases parse_not_text float htext with ⟨-, message, hparse⟩
    refine .inr ⟨fun h => htext h.1, .other message, ?_, nofun⟩
    rw [hparse]
    rfl

theorem extractWithLlm_cases (w : World) :
    (LlmQuiet floatRepr float w ∧
      extractWithLlm floatRepr float w = .ok (llmData floatRepr w)) ∨
    (¬LlmQuiet floatRepr float w ∧ ∃ exc, extractWithLlm floatRepr float w = .error exc) := by
  cases hconfigured : w.configured with
  | false =>
      refine .inl ⟨?_, ?_⟩
      · intro h
        rw [hconfigured] at h
        cases h
      · simp [extractWithLlm, withProvider, llmData, hconfigured]
  | true =>
      have hquiet : LlmQuiet floatRepr float w ↔ (∃ u, w.llmClose = .ok u) ∧ Caught w.simplify ∧
          ∀ html, w.simplify = .ok html → Caught (w.llmCall.mapError Exc.ofCall) ∧
            ∀ response, w.llmCall.mapError Exc.ofCall = .ok response →
              LlmReadable floatRepr float w response.content := by
        unfold LlmQuiet
        simp only [hconfigured, true_imp_iff, caught_call, mapError_ok]
      rw [hquiet]
      apply withProvider_cases hconfigured
      apply BodyCases.bind
      · intro message hsimplify
        simp [llmData, hsimplify]
      · intro html hsimplify
        apply BodyCases.bind
        · intro message hcall
          cases hllm : w.llmCall with
          | ok response =>
              rw [hllm] at hcall
              cases hcall
          | error e => simp [llmData, hllm]
        · intro response hcall
          rw [mapError_ok] at hcall
          have hdata : llmData floatRepr w =
              (answerObject floatRepr response.content).map fun members =>
                (members.lookup "data").getD (.obj []) := by
            simp only [llmData, hconfigured, if_true, hsimplify, hcall]
          rw [hdata]
          exact llmAnswer_cases w response.content

theorem extractWithMultimodal_cases (w : World) :
    (VisionQuiet floatRepr w ∧
      extractWithMultimodal floatRepr float w = .ok (visionData floatRepr float w)) ∨
    (¬VisionQuiet floatRepr w ∧ ∃ exc, extractWithMultimodal floatRepr float w = .error exc) := by
  cases hconfigured : w.configured with
  | false =>
      refine .inl ⟨?_, ?_⟩
      · intro h
        rw [hconfigured] at h
        cases h
      · simp [extractWithMultimodal, withProvider, visionData, hconfigured]
  | true =>
      have hquiet : VisionQuiet floatRepr w ↔
          (∃ u, w.visionClose = .ok u) ∧ Caught w.screenshot ∧
          ∀ u, w.screenshot = .ok u → Caught (w.visionCall.mapError Exc.ofCall) ∧
            ∀ response, w.visionCall.mapError Exc.ofCall = .ok response →
              VisionReadable floatRepr response.content := by
        unfold VisionQuiet
        simp only [hconfigured, true_imp_iff, caught_call, mapError_ok]
      rw [hquiet]
      apply withProvider_cases hconfigured
      apply BodyCases.bind
      · intro message hscreenshot
        simp [visionData, hscreenshot]
      · intro u hscreenshot
        apply BodyCases.bind
        · intro message hcall
          cases hvision : w.visionCall with
          | ok response =>
              rw [hvision] at hcall
              cases hcall
          | error e => simp [visionData, hvision]
        · intro response hcall
          rw [mapError_ok] at hcall
          have hdata : visionData floatRepr float w =
              ((answerObject floatRepr response.content).filter fun members =>
                (confidence? float members).any (Number.atLeast · (3 / 10))).map fun members =>
                  (members.lookup "data").getD (.obj []) := by
            simp only [visionData, hconfigured, if_true, hscreenshot, hcall]
          rw [hdata]
          exact visionAnswer_cases response.content

/-! ## The cascade -/

/-- `OpenAIProvider._call` keeps to `LLMProviderError` for the responses it knows. -/
theorem openAICall_caught_iff {outcome : HttpOutcome} :
    CallCaught (openAICall floatRepr float outcome) ↔
      ∃ status retryAfter text, outcome = .response status retryAfter text ∧
        (status = 429 → ∀ header, retryAfter.filter (· ≠ "") = some header →
          ∃ delay, float header = some delay) ∧
        (status = 200 → ∃ data content, Json.loads floatRepr text = some data ∧
          chatContent data = some content) := by
  cases outcome with
  | raised message =>
      -- a request that raises is not caught
      refine iff_of_false (fun h => h message rfl) ?_
      rintro ⟨status, retryAfter, text, heq, -⟩
      cases heq
  | response status retryAfter text =>
      -- the response of the statement is this one
      have hexists : (∃ status' retryAfter' text',
          HttpOutcome.response status retryAfter text = .response status' retryAfter' text' ∧
          (status' = 429 → ∀ header, retryAfter'.filter (· ≠ "") = some header →
            ∃ delay, float header = some delay) ∧
          (status' = 200 → ∃ data content, Json.loads floatRepr text' = some data ∧
            chatContent data = some content)) ↔
          (status = 429 → ∀ header, retryAfter.filter (· ≠ "") = some header →
            ∃ delay, float header = some delay) ∧
          (status = 200 → ∃ data content, Json.loads floatRepr text = some data ∧
            chatContent data = some content) := by
        constructor
        · rintro ⟨_, _, _, heq, h⟩
          cases heq
          exact h
        · intro h
          exact ⟨status, retryAfter, text, rfl, h⟩
      rw [hexists]
      unfold CallCaught openAICall
      dsimp only
      by_cases hlimited : status = 429
      · -- too many requests: the header has to be a number of seconds
        subst hlimited
        simp only [if_true]
        cases hheader : retryAfter.filter (· ≠ "") with
        | none => simp
        | some header =>
            cases hfloat : float header with
            | none => simp [hfloat]
            | some delay => simp [hfloat]
      · rw [if_neg hlimited]
        by_cases hauth : status = 401 ∨ status = 403
        · -- not authorised, which is an `LLMProviderError`
          have hbad : status ≠ 200 := by omega
          simp [hauth, hlimited, hbad]
        · rw [if_neg hauth]
          by_cases hok : status = 200
          · -- the answer has to be a chat completion
            subst hok
            cases hloads : Json.loads floatRepr text with
            | none => simp
            | some data =>
                cases hcontent : chatContent data with
                | none => simp [hcontent]
                | some content => simp [hcontent]
          · -- any other status is an `LLMProviderError`
            simp [hok, hlimited]

theorem reference_not_raised {w : World} {exc : Exc} :
    reference floatRepr float w ≠ .raised exc := by
  intro h
  unfold reference orElse allFailed at h
  repeat' (split at h)
  all_goals cases h

/-- Two ways to go on agree where they are reached. -/
theorem orElse_congr {data : Option Json} {method : Method} {next next' : Result}
    (h : data.filter Json.truthy = none → next = next') :
    orElse data method next = orElse data method next' := by
  unfold orElse
  cases hdata : data.filter Json.truthy with
  | some found => rfl
  | none => exact h hdata

/-- A stage and what follows it keep to the reference exactly if the stage is
quiet and, where it finds nothing, so is the rest. -/
theorem attempt_eq_iff {quiet : Prop} {stage : Except Exc (Option Json)} {data : Option Json}
    {method : Method} {next reference : Result}
    (hstage : (quiet ∧ stage = .ok data) ∨ (¬quiet ∧ ∃ exc, stage = .error exc))
    (hreference : ∀ exc, orElse data method reference ≠ .raised exc) :
    attempt stage method next = orElse data method reference ↔
      quiet ∧ (data.filter Json.truthy = none → next = reference) := by
  rcases hstage with ⟨hquiet, rfl⟩ | ⟨hnot, exc, rfl⟩
  · constructor
    · intro h
      refine ⟨hquiet, fun hdata => ?_⟩
      simpa only [attempt, orElse, hdata] using h
    · rintro ⟨-, h⟩
      exact orElse_congr h
  · refine iff_of_false ?_ fun h => hnot h.1
    intro h
    exact hreference exc h.symm

theorem extractLlmAdaptive_eq (w : World) :
    extractLlmAdaptive floatRepr float w =
      attempt (cachedStage w) .cachedSelectors
        (attempt (extractWithLlm floatRepr float w) .llm
          (attempt (extractWithMultimodal floatRepr float w) .multimodal
            (orElse (extractWithFallbackSelectors w) .fallbackSelectors (allFailed w.site)))) := by
  unfold extractLlmAdaptive cachedStage
  rcases w.lookup with exc | _ | selectors <;> rfl

/-- No cached selectors, a language model that cannot be reached, and a fallback
selector that finds the balance. -/
def unreachable : World where
  site := "bank"
  blueprint := {
    extract := [("balance", .scalar { selector := .str ".amount" })]
    fallbackSelectors := [("balance", .str ".balance")] }
  defs := [("balance", .scalar { selector := .str ".amount" })]
  lookup := .ok none
  cachedPage := fun _ _ => .extractionError
  configured := true
  simplify := .ok "<main></main>"
  llmCall := openAICall id (fun _ => none) (.raised "All connection attempts failed")
  screenshot := .ok ()
  visionCall := openAICall id (fun _ => none) (.raised "All connection attempts failed")
  fallbackPage := fun _ _ => .value (.str "10.00")

end Plaidify.Extraction.Cascade
