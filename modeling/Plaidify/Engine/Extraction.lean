import Plaidify.Engine.Page

/-!
# Extraction from the page

`DataExtractor` of `src/src/core/data_extractor.py`, with its lists and their pages,
and the cascade of `_extract_llm_adaptive` of `src/src/core/engine.py`: cached
selectors, the language model, a screenshot, the selectors of the blueprint. What a
text is converted to is left to `Outside`.
-/

namespace Plaidify.Engine

/-! ## Definitions -/

/-- `default` is null for `None`; `attr` is `attribute`. -/
structure ExtractionField where
  selector : Json := .null
  type : Json := .str "text"
  transform : Json := .null
  attr : Option String := none
  default : Json := .null
  timeout : Option Int := none

structure PaginationConfig where
  nextSelector : String
  maxPages : Int := 5
  waitAfterClick : Int := 2000

structure ListExtractionField where
  selector : Json := .null
  fields : List (String × ExtractionField)
  maxItems : Option Int := none
  pagination : Option PaginationConfig := none

inductive FieldDef where
  | scalar (field : ExtractionField)
  | list (field : ListExtractionField)

abbrev FieldDefs := List (String × FieldDef)

/-- `{k: v for k, v in extract.items() if k in extract_fields}`: the definitions
of the fields that are asked for. -/
def extractionDefs {α : Type} (extract : List (String × α)) (extractFields : Option (List String)) :
    List (String × α) :=
  match extractFields with
  | none => extract
  | some fields => extract.filter fun m => fields.contains m.1

/-! ## DataExtractor -/

variable (x : Outside)

/-- The text of an element, or an attribute of it. -/
def readText (element : Element) (field : ExtractionField) : Drive String :=
  match field.attr.filter (· ≠ "") with
  | some attr => do
      let value : Option String ← ask x .extractor (.getAttribute element attr)
      pure (value.getD "")
  | none => ask x .extractor (.innerText element)

/-- What the text is converted to. -/
def readValue (element : Element) (field : ExtractionField) : Drive Json := do
  let raw ← readText x element field
  match x.convert field.transform field.type raw with
  | .ok value => pure value
  | .error message => throw (.fault (.error message))

/-- The element of a field; a field with a default may lack one. -/
def fieldElement (field : ExtractionField) (name site : String) : Drive (Option Element) :=
  let timeout := match field.timeout with
    | none | some 0 => 15000
    | some timeout => timeout
  tryCatch (ask x .extractor (.waitForSelector field.selector timeout "attached"))
    fun
      | .fault (.timeout _) =>
          match field.default with
          | .null => throw (.dataExtraction site
              s!"Selector '{x.py.str field.selector}' not found for field '{name}'.")
          | _ => pure none
      | exc => throw exc

/-- `_extract_field`. -/
def extractField (field : ExtractionField) (name site : String) : Drive Json := do
  let element ← fieldElement x field name site
  match element with
  | none => pure field.default
  | some element => readValue x element field

/-- A cell of a row. -/
def extractColumn (row : Element) (column : ExtractionField) : Drive Json :=
  tryCatch
    (do
      let cell : Option Element ← ask x .extractor (.elementQuerySelector row column.selector)
      match cell with
      | some cell => readValue x cell column
      | none => pure column.default)
    fun exc => if exc.isException then pure column.default else throw exc

def extractRow (row : Element) : List (String × ExtractionField) → Drive Dict
  | [] => pure []
  | (name, column) :: columns => do
      let value ← extractColumn x row column
      let rest ← extractRow row columns
      pure ((name, value) :: rest)

/-- The rows of a page, as long as there are not `max_items` items. -/
def extractRows (field : ListExtractionField) : List Element → List Json → Drive (List Json)
  | [], items => pure items
  | row :: rows, items => do
      let maxItems := field.maxItems.getD 0
      if maxItems ≠ 0 ∧ maxItems ≤ items.length then pure items
      else
        let rowData ← extractRow x row field.fields
        extractRows field rows (items ++ [.obj rowData])

/-- Go to the next page, unless the button for it is missing or disabled. -/
def clickNext (pagination : PaginationConfig) : Drive Bool := do
  let nextBtn : Option Element ← ask x .pagination (.querySelector (.str pagination.nextSelector))
  match nextBtn with
  | none => pure false
  | some nextBtn => do
      let isDisabled : Option String ← ask x .pagination (.getAttribute nextBtn "disabled")
      if isDisabled.getD "" ≠ "" then pure false
      else
        ask x .pagination (.elementClick nextBtn)
        ask x .pagination (.waitForTimeout pagination.waitAfterClick)
        pure true

/-- Whether the list goes on: with an exception it does not. -/
def nextPage (pagination : PaginationConfig) : Drive Bool :=
  tryCatch (clickNext x pagination)
    fun exc => if exc.isException then pure false else throw exc

/-- The loop of `_extract_list`, with the number of pages that it may still take. -/
def extractPages (field : ListExtractionField) : Nat → List Json → Drive (List Json)
  | 0, items => pure items
  | pages + 1, items => do
      let rows : List Element ← ask x .extractor (.querySelectorAll field.selector)
      match rows with
      | [] => pure items
      | row :: rows => do
          let items ← extractRows x field (row :: rows) items
          match field.pagination with
          | none => extractPages field pages items
          | some pagination =>
              if pages = 0 then pure items
              else
                let goesOn ← nextPage x pagination
                if goesOn then extractPages field pages items else pure items

/-- `_extract_list`. -/
def extractList (field : ListExtractionField) : Drive Json := do
  let maxPages := (field.pagination.map (·.maxPages)).getD 1
  let items ← extractPages x field maxPages.toNat []
  pure (.arr items)

def extractOne (site : String) (name : String) : FieldDef → Drive Json
  | .scalar field => extractField x field name site
  | .list field => extractList x field

/-- What takes the place of a field that raised. -/
def FieldDef.fallback : FieldDef → Json
  | .scalar field => field.default
  | .list _ => .null

/-- `extract`. -/
def extract (site : String) : FieldDefs → Drive Dict
  | [] => pure []
  | (name, field) :: fields => do
      let value ← tryCatch (extractOne x site name field)
        fun
          | .dataExtraction site detail => throw (.dataExtraction site detail)
          | exc => if exc.isException then pure field.fallback else throw exc
      let rest ← extract site fields
      pure ((name, value) :: rest)

/-! ## Adaptive extraction -/

/-- The parts of a blueprint that extraction reads. -/
structure ExtractionPlan where
  adaptive : Bool
  domain : String
  fallbackSelectors : List (String × String)

/-- `sel_info.get("fields", {})`; it is no dictionary that raises. -/
def cachedFields (selInfo : Dict) : Except Exc Dict :=
  match selInfo.lookup "fields" with
  | none => .ok []
  | some (.obj fields) => .ok fields
  | some _ => .error (.fault (.error "object has no attribute 'get'"))

/-- A column with its cached selector. -/
def cachedColumn (fields : Dict) (name : String) (column : ExtractionField) : ExtractionField :=
  match fields.lookup name with
  | some selector => if selector.truthy then { column with selector } else column
  | none => column

/-- The definition that a cached selector makes of the original one, if they are of
one kind. -/
def cachedDef (selInfo : Json) (original : FieldDef) : Except Exc (Option FieldDef) :=
  match selInfo with
  | .obj info =>
      match info.lookup "row", original with
      | some row, .list field => do
          let columns ← match field.fields with
            | [] => .ok []
            | _ => do
                let fields ← cachedFields info
                pure (field.fields.map fun m => (m.1, cachedColumn fields m.1 m.2))
          return some (.list { field with selector := row, fields := columns })
      | some _, .scalar _ => .ok none
      | none, .scalar field => .ok (some (.scalar { field with selector := selInfo }))
      | none, .list _ => .ok none
  | selector =>
      match original with
      | .scalar field => .ok (some (.scalar { field with selector }))
      | .list _ => .ok none

/-- `temp_defs` of `_extract_with_cached_selectors`. -/
def cachedDefs (defs : FieldDefs) : Dict → Except Exc FieldDefs
  | [] => .ok []
  | (name, selInfo) :: selectors =>
      match defs.lookup name with
      | none => cachedDefs defs selectors
      | some original => do
          let made ← cachedDef selInfo original
          let rest ← cachedDefs defs selectors
          return match made with
            | some made => (name, made) :: rest
            | none => rest

/-- `_extract_with_cached_selectors`. -/
def extractWithCachedSelectors (selectors : Dict) (defs : FieldDefs)
    (site domain pagePath : String) : Drive (Option Dict) := do
  match cachedDefs defs selectors with
  | .error exc => throw exc
  | .ok [] => pure none
  | .ok tempDefs =>
      tryCatch
        (do
          let result ← extract x site tempDefs
          ask x .adaptive (.recordSuccess domain pagePath)
          pure (some result))
        fun exc =>
          if exc.isException then do
            ask x .adaptive (.recordFailure domain pagePath)
            pure none
          else throw exc

/-- The `try` of the calls of a language model: a provider's error is an answer, and
the provider is closed. -/
def withProvider (body : Drive (Option Dict)) : Drive (Option Dict) := do
  let configured : Bool ← ask x .adaptive .createProvider
  if configured then
    tryFinally
      (tryCatch body fun
        | .fault (.llmProvider _) => pure none
        | exc => throw exc)
      (ask x .adaptive .closeProvider)
  else pure none

/-- `_extract_with_llm`. -/
def extractWithLlm : Drive (Option Dict) :=
  withProvider x do
    let html : String ← ask x .adaptive .content
    let data ← ask x .adaptive (.llmExtract html)
    pure (some data)

/-- The viewport at a size that the vision model takes. -/
def fitViewport : Drive Unit := do
  let exceeds : Bool ← ask x .adaptive .viewportExceeds
  if exceeds then ask x .adaptive .setViewportSize else pure ()

/-- `_extract_with_multimodal`. -/
def extractWithMultimodal : Drive (Option Dict) :=
  withProvider x do
    fitViewport x
    ask x .adaptive .captureScreenshot
    ask x .adaptive .visionExtract

/-- `temp_defs` of `_extract_with_fallback_selectors`. -/
def fallbackDefs (defs : FieldDefs) (selectors : List (String × String)) : FieldDefs :=
  selectors.filterMap fun m =>
    match defs.lookup m.1 with
    | some (.scalar field) => some (m.1, .scalar { field with selector := .str m.2 })
    | _ => none

/-- `_extract_with_fallback_selectors`. -/
def extractWithFallbackSelectors (plan : ExtractionPlan) (defs : FieldDefs) (site : String) :
    Drive (Option Dict) :=
  match fallbackDefs defs plan.fallbackSelectors with
  | [] => pure none
  | tempDefs =>
      tryCatch
        (do
          let result ← extract x site tempDefs
          pure (some result))
        fun exc => if exc.isException then pure none else throw exc

/-- Data that is there and not empty. -/
def found (data : Option Dict) : Option Dict :=
  data.filter fun data => !data.isEmpty

/-- The first method that has data, with its name. -/
def firstFound (site : String) : List (String × Drive (Option Dict)) → Drive (Dict × String)
  | [] => throw (.dataExtraction site ("All extraction methods failed " ++
      "(cached selectors, LLM, multimodal, fallback selectors)."))
  | (method, attempt) :: methods => do
      let data ← attempt
      match found data with
      | some data => pure (data, method)
      | none => firstFound site methods

/-- `_get_page_path`. -/
def getPagePath : Drive String :=
  tryCatch
    (do
      let path : String ← ask x .adaptive .urlPath
      pure (if path = "" then "/" else path))
    fun exc => if exc.isException then pure "/" else throw exc

/-- `_extract_llm_adaptive`. -/
def extractLlmAdaptive (plan : ExtractionPlan) (defs : FieldDefs) (site : String) :
    Drive (Dict × String) := do
  let pagePath ← getPagePath x
  let entry : Option Dict ← ask x .adaptive (.cachedSelectors plan.domain pagePath)
  let cached := match entry with
    | some selectors => extractWithCachedSelectors x selectors defs site plan.domain pagePath
    | none => pure none
  firstFound site
    [("cached_selectors", cached),
      ("llm", extractWithLlm x),
      ("multimodal", extractWithMultimodal x),
      ("fallback_selectors", extractWithFallbackSelectors x plan defs site)]

end Plaidify.Engine
