import Mathlib.Data.Rat.Defs
import Mathlib.Algebra.Order.Ring.Rat
import Plaidify.Engine.Extraction
import Plaidify.Lib.Json
import Plaidify.Lib.Parties
import Plaidify.Lib.Runs

/-!
# Adaptive extraction and its selector cache

`_extract_llm_adaptive` of `src/src/core/engine.py` over the `SelectorCache` of
`src/src/core/selector_cache.py`: requests for fields of one blueprint on one
page, any number of them under way at once. A request first tries the selectors
that the last LLM answer left in the cache, then the LLM, then a screenshot, then
the selectors of the blueprint.

The model follows one cache key. What the page has and what the models answer is
in the labels. A request that is answered from the cache has every field that was
asked for exactly when the cached selectors cover them, whoever asked for them
(`complete_iff`).
-/

namespace Plaidify.Extraction

/-- A Python dictionary with string keys. -/
abbrev Dict := List (String × Json)

/-! ## Extraction definitions -/

/-- What `ExtractionField` says about where a value comes from; null for `None`. -/
structure ExtractionField where
  selector : Json := .null
  default : Json := .null

structure ListExtractionField where
  selector : Json := .null
  fields : List (String × ExtractionField)

inductive FieldDef where
  | scalar (field : ExtractionField)
  | list (field : ListExtractionField)

abbrev FieldDefs := List (String × FieldDef)

/-- The parts of a blueprint that extraction reads. -/
structure Blueprint where
  extract : FieldDefs
  fallbackSelectors : Dict

/-- What a field of the page comes to: a value, a `DataExtractionError`, or any
other exception. -/
inductive FieldOutcome where
  | value (v : Json)
  | extractionError
  | raised

/-- The page, asked for a field by its definition. -/
abbrev Page := String → FieldDef → FieldOutcome

/-- The value that takes the place of one whose extraction raised. -/
def FieldDef.fallback : FieldDef → Json
  | .scalar field => field.default
  | .list _ => .null

/-- `DataExtractor.extract`; `none` for `DataExtractionError`. -/
def extract (page : Page) : FieldDefs → Option Dict
  | [] => some []
  | (name, fieldDef) :: rest =>
      match page name fieldDef with
      | .value v => (extract page rest).map ((name, v) :: ·)
      | .extractionError => none
      | .raised => (extract page rest).map ((name, fieldDef.fallback) :: ·)

/-! ## Cached selectors -/

/-- A column takes its cached selector when there is one. -/
def columnDef (columns : Dict) (column : String × ExtractionField) : String × ExtractionField :=
  match columns.lookup column.1 with
  | some selector =>
      if selector.truthy then (column.1, { column.2 with selector }) else column
  | none => column

/-- A list field with its cached selectors. `sel_info["fields"]` has to be a
dictionary when there is a column to look up. -/
def listDef (row : Json) (fields : Option Json) (original : ListExtractionField) :
    Except Unit ListExtractionField :=
  match fields with
  | none => .ok { original with selector := row }
  | some (.obj columns) =>
      .ok { selector := row, fields := original.fields.map (columnDef columns) }
  | some _ =>
      if original.fields.isEmpty then .ok { original with selector := row } else .error ()

/-- The temporary definition of a field; `none` when the cached selector is one
for a field of the other kind. -/
def tempDef (selInfo : Json) (original : FieldDef) : Except Unit (Option FieldDef) :=
  let row :=
    match selInfo with
    | .obj info => (info.lookup "row").map fun row => (row, info.lookup "fields")
    | _ => none
  match row, original with
  | some (row, fields), .list original => do
      let field ← listDef row fields original
      return some (.list field)
  | some _, .scalar _ => .ok none
  | none, .scalar original => .ok (some (.scalar { original with selector := selInfo }))
  | none, .list _ => .ok none

/-- The temporary definitions of the fields that are asked for. -/
def tempDefs (defs : FieldDefs) : Dict → Except Unit FieldDefs
  | [] => .ok []
  | (name, selInfo) :: rest =>
      match defs.lookup name with
      | none => tempDefs defs rest
      | some original => do
          let fieldDef ← tempDef selInfo original
          let more ← tempDefs defs rest
          return match fieldDef with
            | some fieldDef => (name, fieldDef) :: more
            | none => more

structure CacheEntry where
  selectors : Dict
  confidence : ℚ
  createdAt : Nat
  ttl : Nat
  failureCount : Nat := 0
  lastFailureAt : Option Nat := none
  lastSuccessAt : Option Nat := none
  hitCount : Nat := 0

/-- `DEFAULT_TTL`. -/
def defaultTtl : Nat := 86400 * 7

/-- `MAX_FAILURES`. -/
def maxFailures : Nat := 3

/-- `CacheEntry.is_usable`. -/
def CacheEntry.isUsable (now : Nat) (entry : CacheEntry) : Bool :=
  !decide (entry.createdAt + entry.ttl < now) && !decide (maxFailures ≤ entry.failureCount)

def CacheEntry.recordSuccess (now : Nat) (entry : CacheEntry) : CacheEntry :=
  { entry with failureCount := 0, lastSuccessAt := some now, hitCount := entry.hitCount + 1 }

def CacheEntry.recordFailure (now : Nat) (entry : CacheEntry) : CacheEntry :=
  { entry with failureCount := entry.failureCount + 1, lastFailureAt := some now }

/-! ## The system -/

/-- What a request tries next. -/
inductive Phase where
  /-- The cached selectors, as `cache.get` found them. -/
  | cached (selectors : Dict)
  | llm
  | multimodal
  | fallback

structure Request where
  id : Nat
  defs : FieldDefs
  phase : Phase

/-- `extraction_method`. -/
inductive Method where
  | cachedSelectors
  | llm
  | multimodal
  | fallbackSelectors
deriving DecidableEq

/-- Data for the fields that were asked for. -/
structure Extracted where
  requested : List String
  data : Dict

structure State where
  now : Nat
  entry : Option CacheEntry
  requests : List Request
  /-- History variable: what the requests were answered. -/
  answers : List (Method × Extracted)
  /-- History variable: what the cache was told to be a success. -/
  successes : List Extracted

/-- What `_extract_with_llm` meets. -/
inductive LlmOutcome where
  /-- No provider, or `LLMProviderError`. -/
  | unavailable
  /-- Any other exception. -/
  | raised
  | answered (data selectors : Dict) (confidence : ℚ)

inductive Label where
  | request (id : Nat) (extractFields : Option (List String))
  | tryCached (id : Nat) (page : Page)
  | tryLlm (id : Nat) (outcome : LlmOutcome)
  /-- The data and the confidence that the screenshot gave. -/
  | tryMultimodal (id : Nat) (outcome : Option (Dict × ℚ))
  | tryFallback (id : Nat) (page : Page)
  | invalidate
  | wait (seconds : Nat)

/-- A request that goes on. -/
def State.go (s : State) (r : Request) (others : List Request) (phase : Phase) : State :=
  { s with requests := { r with phase } :: others }

/-- A request that is answered. -/
def State.answer (s : State) (r : Request) (others : List Request) (method : Method)
    (data : Dict) : State :=
  { s with
    requests := others
    answers := (method, ⟨r.defs.map Prod.fst, data⟩) :: s.answers }

/-- `_extract_with_cached_selectors`. -/
def extractWithCachedSelectors (s : State) (r : Request) (others : List Request)
    (selectors : Dict) (page : Page) : State :=
  match tempDefs r.defs selectors with
  | .error () => { s with requests := others }
  | .ok [] => s.go r others .llm
  | .ok (fieldDef :: rest) =>
      match extract page (fieldDef :: rest) with
      | some data =>
          { s.answer r others .cachedSelectors data with
            entry := s.entry.map (CacheEntry.recordSuccess s.now)
            successes := ⟨r.defs.map Prod.fst, data⟩ :: s.successes }
      | none =>
          { s.go r others .llm with entry := s.entry.map (CacheEntry.recordFailure s.now) }

/-- `_extract_with_llm`. -/
def extractWithLlm (s : State) (r : Request) (others : List Request) : LlmOutcome → State
  | .unavailable => s.go r others .multimodal
  | .raised => { s with requests := others }
  | .answered data selectors confidence =>
      let s :=
        if !selectors.isEmpty && decide (1 / 2 ≤ confidence) then
          { s with entry := some { selectors, confidence, createdAt := s.now, ttl := defaultTtl } }
        else s
      if data.isEmpty then s.go r others .multimodal else s.answer r others .llm data

/-- `_extract_with_multimodal`. -/
def extractWithMultimodal (s : State) (r : Request) (others : List Request) :
    Option (Dict × ℚ) → State
  | some (data, confidence) =>
      if decide (3 / 10 ≤ confidence) && !data.isEmpty then s.answer r others .multimodal data
      else s.go r others .fallback
  | none => s.go r others .fallback

/-- The definitions of the scalar fields that the blueprint has a selector for. -/
def fallbackDefs (defs : FieldDefs) (fallbackSelectors : Dict) : FieldDefs :=
  fallbackSelectors.filterMap fun m =>
    match defs.lookup m.1 with
    | some (.scalar field) => some (m.1, .scalar { field with selector := m.2 })
    | _ => none

/-- `_extract_with_fallback_selectors`; without data the request raises. -/
def extractWithFallbackSelectors (blueprint : Blueprint) (s : State) (r : Request)
    (others : List Request) (page : Page) : State :=
  match extract page (fallbackDefs r.defs blueprint.fallbackSelectors) with
  | some (m :: data) => s.answer r others .fallbackSelectors (m :: data)
  | _ => { s with requests := others }

variable (blueprint : Blueprint)

def step (s : State) : Label → Option State
  | .request id extractFields =>
      match Engine.extractionDefs blueprint.extract extractFields with
      | [] => none
      | fieldDef :: rest =>
          let phase :=
            match s.entry.filter (CacheEntry.isUsable s.now) with
            | some entry => .cached entry.selectors
            | none => .llm
          some { s with requests := ⟨id, fieldDef :: rest, phase⟩ :: s.requests }
  | .tryCached id page =>
      match Parties.pick (fun r : Request => r.id == id) s.requests with
      | some (⟨id, defs, .cached selectors⟩, others) =>
          some (extractWithCachedSelectors s ⟨id, defs, .cached selectors⟩ others selectors page)
      | _ => none
  | .tryLlm id outcome =>
      match Parties.pick (fun r : Request => r.id == id) s.requests with
      | some (⟨id, defs, .llm⟩, others) =>
          some (extractWithLlm s ⟨id, defs, .llm⟩ others outcome)
      | _ => none
  | .tryMultimodal id outcome =>
      match Parties.pick (fun r : Request => r.id == id) s.requests with
      | some (⟨id, defs, .multimodal⟩, others) =>
          some (extractWithMultimodal s ⟨id, defs, .multimodal⟩ others outcome)
      | _ => none
  | .tryFallback id page =>
      match Parties.pick (fun r : Request => r.id == id) s.requests with
      | some (⟨id, defs, .fallback⟩, others) =>
          some (extractWithFallbackSelectors blueprint s ⟨id, defs, .fallback⟩ others page)
      | _ => none
  | .invalidate => some { s with entry := none }
  | .wait seconds => some { s with now := s.now + seconds }

/-- An empty cache. -/
def init (now : Nat) : State where
  now := now
  entry := none
  requests := []
  answers := []
  successes := []

/-! ## The property and the condition -/

/-- There is an entry for every field that was asked for. -/
def Extracted.Complete (e : Extracted) : Prop :=
  ∀ name ∈ e.requested, name ∈ e.data.map Prod.fst

/-- Every answer from the cache is complete, and nothing else counts as a
success of the cache. -/
structure Complete (s : State) : Prop where
  answered : ∀ a ∈ s.answers, a.1 = .cachedSelectors → a.2.Complete
  recorded : ∀ e ∈ s.successes, e.Complete

/-- Whether a cached selector is one of a list, with a row. -/
def namesRow : Json → Bool
  | .obj info => (info.lookup "row").isSome
  | _ => false

/-- Whether a cached selector is one for a field of this kind. -/
def selects (selInfo : Json) : FieldDef → Bool
  | .list _ => namesRow selInfo
  | .scalar _ => !namesRow selInfo

/-- Every field has a cached selector of its kind. -/
def covers (defs : FieldDefs) (selectors : Dict) : Bool :=
  (defs.map Prod.fst).all fun name =>
    selectors.any fun c => c.1 == name && (defs.lookup name).any (selects c.2)

/-- Where some fields have a cached selector and the page has what these name,
all fields have one. -/
def Safe (s : State) : Label → Prop
  | .tryCached id page =>
      match Parties.pick (fun r : Request => r.id == id) s.requests with
      | some (⟨_, defs, .cached selectors⟩, _) =>
          match tempDefs defs selectors with
          | .ok (fieldDef :: rest) =>
              (extract page (fieldDef :: rest)).isSome = true → covers defs selectors = true
          | _ => True
      | _ => True
  | _ => True

instance (s : State) (l : Label) : Decidable (Safe s l) := by
  cases l with
  | tryCached id page =>
      simp only [Safe]
      split
      · split <;> infer_instance
      · infer_instance
  | _ => exact isTrue trivial

/-! ## What the cached selectors give -/

/-- A temporary definition is made exactly where the selector is one for the kind of
the field. -/
theorem tempDef_isSome {selInfo : Json} {original : FieldDef} {d : Option FieldDef}
    (h : tempDef selInfo original = .ok d) : d.isSome = selects selInfo original := by
  have hrow : (match selInfo with
      | .obj info => (info.lookup "row").map fun row => (row, info.lookup "fields")
      | _ => none).isSome = namesRow selInfo := by
    cases selInfo <;> simp [namesRow]
  unfold tempDef at h
  rw [selects.eq_def, ← hrow]
  revert h
  generalize (match selInfo with
      | .obj info => (info.lookup "row").map fun row => (row, info.lookup "fields")
      | _ => none) = row
  intro h
  rcases row with _ | ⟨row, fields⟩
  · cases original with
    | scalar field => exact Except.ok.inj h ▸ rfl
    | list field => exact Except.ok.inj h ▸ rfl
  · cases original with
    | scalar field => exact Except.ok.inj h ▸ rfl
    | list field =>
        cases hlist : listDef row fields field with
        | error e => simp [hlist, bind, Except.bind] at h
        | ok field' =>
            simp only [hlist] at h
            exact Except.ok.inj h ▸ rfl

theorem mem_tempDefs_iff {defs : FieldDefs} {selectors : Dict} {temp : FieldDefs}
    (h : tempDefs defs selectors = .ok temp) (name : String) :
    name ∈ temp.map Prod.fst ↔
      ∃ c ∈ selectors, c.1 = name ∧ (defs.lookup name).any (selects c.2) = true := by
  induction selectors generalizing temp with
  | nil =>
      obtain rfl := Except.ok.inj h
      simp
  | cons c selectors ih =>
      obtain ⟨name', selInfo⟩ := c
      unfold tempDefs at h
      rw [List.exists_mem_cons_iff]
      cases hlookup : defs.lookup name' with
      | none =>
          rw [hlookup] at h
          rw [ih h]
          refine (or_iff_right ?_).symm
          rintro ⟨rfl, hany⟩
          simp [hlookup] at hany
      | some original =>
          simp only [hlookup] at h
          cases hdef : tempDef selInfo original with
          | error e => simp [hdef, bind, Except.bind] at h
          | ok fieldDef =>
              cases hmore : tempDefs defs selectors with
              | error e => simp [hdef, hmore, bind, Except.bind] at h
              | ok more =>
                  have hsome := tempDef_isSome hdef
                  simp only [hdef, hmore, bind, Except.bind, pure, Except.pure,
                    Except.ok.injEq] at h
                  subst h
                  rw [← ih hmore]
                  cases fieldDef with
                  | none =>
                      refine (or_iff_right ?_).symm
                      rintro ⟨rfl, hany⟩
                      rw [hlookup, Option.any_some, ← hsome] at hany
                      cases hany
                  | some fieldDef =>
                      rw [List.map_cons, List.mem_cons]
                      refine or_congr_left ⟨?_, fun hname => hname.1.symm⟩
                      rintro rfl
                      refine ⟨rfl, ?_⟩
                      rw [hlookup, Option.any_some, ← hsome]
                      rfl

theorem covers_iff {defs : FieldDefs} {selectors : Dict} {temp : FieldDefs}
    (h : tempDefs defs selectors = .ok temp) :
    covers defs selectors = true ↔ ∀ name ∈ defs.map Prod.fst, name ∈ temp.map Prod.fst := by
  simp only [covers, List.all_eq_true, List.any_eq_true, Bool.and_eq_true, beq_iff_eq,
    mem_tempDefs_iff h]

theorem extract_keys {page : Page} {defs : FieldDefs} {data : Dict}
    (h : extract page defs = some data) : data.map Prod.fst = defs.map Prod.fst := by
  induction defs generalizing data with
  | nil =>
      obtain rfl := Option.some.inj h
      rfl
  | cons m defs ih =>
      obtain ⟨name, fieldDef⟩ := m
      unfold extract at h
      cases hpage : page name fieldDef with
      | value v =>
          rw [hpage] at h
          obtain ⟨rest, hrest, rfl⟩ := Option.map_eq_some_iff.mp h
          simp [ih hrest]
      | extractionError =>
          rw [hpage] at h
          cases h
      | raised =>
          rw [hpage] at h
          obtain ⟨rest, hrest, rfl⟩ := Option.map_eq_some_iff.mp h
          simp [ih hrest]

/-! ## Every step -/

variable {blueprint} {s t : State} {r : Request} {others : List Request}

/-- Nothing is lost where nothing is answered from the cache. -/
theorem Complete.frame (hs : Complete s)
    (hanswers : ∀ a ∈ t.answers, a ∈ s.answers ∨ a.1 ≠ .cachedSelectors)
    (hsuccesses : t.successes = s.successes) : Complete t := by
  refine ⟨fun a ha hmethod => ?_, fun e he => hs.recorded e (hsuccesses ▸ he)⟩
  rcases hanswers a ha with h | h
  · exact hs.answered a h hmethod
  · exact absurd hmethod h

/-- An answer that is not from the cache. -/
theorem Complete.answer (hs : Complete s) {method : Method} (hmethod : method ≠ .cachedSelectors)
    (data : Dict) : Complete (s.answer r others method data) := by
  refine hs.frame ?_ rfl
  intro a ha
  rcases List.mem_cons.mp ha with rfl | ha
  · exact .inr hmethod
  · exact .inl ha

theorem Complete.go (hs : Complete s) (phase : Phase) : Complete (s.go r others phase) :=
  ⟨hs.answered, hs.recorded⟩

/-- An attempt with cached selectors loses nothing exactly when these cover the
fields that were asked for, or when it is not answered. -/
theorem extractWithCachedSelectors_complete_iff (hs : Complete s) (selectors : Dict)
    (page : Page) :
    Complete (extractWithCachedSelectors s r others selectors page) ↔
      match tempDefs r.defs selectors with
      | .ok (fieldDef :: rest) =>
          (extract page (fieldDef :: rest)).isSome = true → covers r.defs selectors = true
      | _ => True := by
  unfold extractWithCachedSelectors
  cases htemp : tempDefs r.defs selectors with
  | error e => exact iff_of_true ⟨hs.answered, hs.recorded⟩ trivial
  | ok temp =>
      cases temp with
      | nil => exact iff_of_true (hs.go .llm) trivial
      | cons fieldDef rest =>
          simp only []
          cases hextract : extract page (fieldDef :: rest) with
          | none => exact iff_of_true ⟨hs.answered, hs.recorded⟩ (by simp)
          | some data =>
              have hkeys : Extracted.Complete ⟨r.defs.map Prod.fst, data⟩ ↔
                  covers r.defs selectors = true := by
                rw [covers_iff htemp, ← extract_keys hextract]
                rfl
              simp only [Option.isSome_some, true_imp_iff]
              rw [← hkeys]
              constructor
              · intro h
                exact h.recorded _ (List.mem_cons_self ..)
              · intro h
                refine ⟨?_, ?_⟩
                · intro a ha hmethod
                  rcases List.mem_cons.mp ha with rfl | ha
                  · exact h
                  · exact hs.answered a ha hmethod
                · intro e he
                  rcases List.mem_cons.mp he with rfl | he
                  · exact h
                  · exact hs.recorded e he

theorem extractWithLlm_complete (hs : Complete s) (outcome : LlmOutcome) :
    Complete (extractWithLlm s r others outcome) := by
  cases outcome with
  | unavailable => exact hs.go _
  | raised => exact ⟨hs.answered, hs.recorded⟩
  | answered data selectors confidence =>
      simp only [extractWithLlm]
      split
      · split
        · exact ⟨hs.answered, hs.recorded⟩
        · exact hs.go _
      · have hcached : Complete
            (if (!selectors.isEmpty && decide (1 / 2 ≤ confidence)) = true then
              { s with entry := some { selectors, confidence, createdAt := s.now, ttl := defaultTtl } }
            else s) := by
          split
          · exact ⟨hs.answered, hs.recorded⟩
          · exact hs
        exact hcached.answer (by decide) data

theorem extractWithMultimodal_complete (hs : Complete s) (outcome : Option (Dict × ℚ)) :
    Complete (extractWithMultimodal s r others outcome) := by
  rcases outcome with _ | ⟨data, confidence⟩
  · exact hs.go _
  · simp only [extractWithMultimodal]
    split
    · exact hs.answer (by decide) data
    · exact hs.go _

theorem extractWithFallbackSelectors_complete (hs : Complete s) (page : Page) :
    Complete (extractWithFallbackSelectors blueprint s r others page) := by
  unfold extractWithFallbackSelectors
  split
  · exact hs.answer (by decide) _
  · exact ⟨hs.answered, hs.recorded⟩

/-- A step keeps every answer complete exactly when it is safe. -/
theorem complete_step_iff {l : Label} (hs : Complete s) (h : step blueprint s l = some t) :
    Complete t ↔ Safe s l := by
  cases l with
  | request id extractFields =>
      simp only [step] at h
      split at h
      · cases h
      · obtain rfl := Option.some.inj h
        exact iff_of_true ⟨hs.answered, hs.recorded⟩ trivial
  | tryCached id page =>
      simp only [step] at h
      split at h
      · rename_i hpick
        obtain rfl := Option.some.inj h
        rw [extractWithCachedSelectors_complete_iff hs]
        simp only [Safe, hpick]
      · cases h
  | tryLlm id outcome =>
      simp only [step] at h
      split at h
      · obtain rfl := Option.some.inj h
        exact iff_of_true (extractWithLlm_complete hs outcome) trivial
      · cases h
  | tryMultimodal id outcome =>
      simp only [step] at h
      split at h
      · obtain rfl := Option.some.inj h
        exact iff_of_true (extractWithMultimodal_complete hs outcome) trivial
      · cases h
  | tryFallback id page =>
      simp only [step] at h
      split at h
      · obtain rfl := Option.some.inj h
        exact iff_of_true (extractWithFallbackSelectors_complete hs page) trivial
      · cases h
  | invalidate =>
      obtain rfl := Option.some.inj h
      exact iff_of_true ⟨hs.answered, hs.recorded⟩ trivial
  | wait seconds =>
      obtain rfl := Option.some.inj h
      exact iff_of_true ⟨hs.answered, hs.recorded⟩ trivial

theorem init_complete (now : Nat) : Complete (init now) :=
  ⟨by simp [init], by simp [init]⟩

/-- **Agreement of the two paths.** In every state of a history the answers from
the cache have every field that was asked for, exactly when every attempt of the
history that is answered uses selectors that cover the fields. -/
theorem complete_iff (blueprint : Blueprint) {now : Nat} {u : State} {run : List Label}
    (h : Runs.exec (step blueprint) (init now) run = some u) :
    (∀ before after t, run = before ++ after →
      Runs.exec (step blueprint) (init now) before = some t → Complete t) ↔
      Runs.Along (step blueprint) Safe (init now) run :=
  Runs.always_iff_along (I := fun _ => True) (fun _ _ _ _ _ => trivial)
    (fun _ _ _ _ hs h => complete_step_iff hs h) trivial (init_complete now) h

/-! ### Two histories -/

/-- A bill with two fields. -/
def bill : Blueprint where
  extract := [("balance", .scalar {}), ("due_date", .scalar {})]
  fallbackSelectors := []

/-- A page that has everything. -/
def fullPage : Page := fun name _ => .value (.str name)

/-- A request for the balance alone is answered by the LLM. -/
def balanceAsked : List Label :=
  [.request 1 (some ["balance"]),
    .tryLlm 1 (.answered [("balance", .str "$10")] [("balance", .str "#balance")] 1)]

/-- The state after one more request, which is answered from the cache. -/
def answeredAgain (requested : List String) : State where
  now := 0
  entry := some
    { selectors := [("balance", .str "#balance")]
      confidence := 1
      createdAt := 0
      ttl := defaultTtl
      lastSuccessAt := some 0
      hitCount := 1 }
  requests := []
  answers :=
    [(.cachedSelectors, ⟨requested, [("balance", .str "balance")]⟩),
      (.llm, ⟨["balance"], [("balance", .str "$10")]⟩)]
  successes := [⟨requested, [("balance", .str "balance")]⟩]

/-- The balance again, from the cache. -/
theorem balanceAgain_complete :
    ∃ u, Runs.exec (step bill) (init 0)
        (balanceAsked ++ [.request 2 (some ["balance"]), .tryCached 2 fullPage]) = some u ∧
      ∀ before after t,
        balanceAsked ++ [.request 2 (some ["balance"]), .tryCached 2 fullPage] =
          before ++ after →
        Runs.exec (step bill) (init 0) before = some t → Complete t := by
  have hrun : Runs.exec (step bill) (init 0)
      (balanceAsked ++ [.request 2 (some ["balance"]), .tryCached 2 fullPage]) =
        some (answeredAgain ["balance"]) := by with_unfolding_all rfl
  exact ⟨_, hrun, (complete_iff bill hrun).mpr (by decide +kernel)⟩

/-- Then both fields: the answer from the cache has the balance only. -/
theorem bothFields_not_complete :
    ¬ ∀ (blueprint : Blueprint) (now : Nat) (run : List Label) (u : State),
      Runs.exec (step blueprint) (init now) run = some u → Complete u := by
  intro hall
  have hrun : Runs.exec (step bill) (init 0)
      (balanceAsked ++ [.request 2 none, .tryCached 2 fullPage]) =
        some (answeredAgain ["balance", "due_date"]) := by with_unfolding_all rfl
  have hcomplete := hall bill 0 _ _ hrun
  have hmem := hcomplete.answered _ (List.mem_cons_self ..) rfl "due_date" (by decide)
  exact absurd hmem (by decide)

end Plaidify.Extraction
