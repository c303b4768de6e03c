import Plaidify.Lib.Json
import Plaidify.Lib.Text
import Mathlib.Data.Finset.Basic

/-!
# Scope and site sets

How `src/src/dependencies.py` reads the scope and site restrictions of API keys
and agents back from the text columns that store them.
-/

namespace Plaidify.Principals

/-- What the model takes from Python as parameters: `str.lower`, `str` on JSON
values other than strings, and how the float that a JSON number denotes is
printed. -/
structure PyText where
  lower : String → String
  strOf : Json → String
  floatRepr : String → String

variable (py : PyText)

/-- `str(value)`. -/
def PyText.str : Json → String
  | .str s => s
  | value => py.strOf value

/-! ## Reading -/

/-- `_normalize_scope_name`. -/
def normalizeScopeName (scope : String) : String :=
  Text.strip (Text.afterFirst ':' (Text.strip scope))

/-- The set that `_load_scope_set` makes of a list. -/
def normalizeScopes (scopes : List String) : Finset String :=
  ((scopes.map normalizeScopeName).filter (· ≠ "")).toFinset

/-- `str(value).strip().lower()`. -/
def normalizeSite (site : String) : String :=
  py.lower (Text.strip site)

/-- The set that `_load_site_set` makes of a list. -/
def normalizeSites (sites : List String) : Finset String :=
  ((sites.filter fun site => Text.strip site ≠ "").map (normalizeSite py)).toFinset

/-- The list that a stored text denotes, each value as `str` prints it; `none`
where the loaders return `None`. -/
def loadList : Option String → Option (List String)
  | none => none
  | some text =>
      if text = "" then none
      else
        match Json.loads py.floatRepr text with
        | some (.arr values) => some (values.map py.str)
        | _ => none

/-- `_load_scope_set`. -/
def loadScopeSet (scopesJson : Option String) : Option (Finset String) :=
  (loadList py scopesJson).map normalizeScopes

/-- `_load_site_set`. -/
def loadSiteSet (sitesJson : Option String) : Option (Finset String) :=
  (loadList py sitesJson).map (normalizeSites py)

/-- `_combine_scope_sets`: `None` stands for everything. -/
def combineScopeSets : Option (Finset String) → Option (Finset String) → Option (Finset String)
  | none, right => right
  | left, none => left
  | some left, some right => some (left ∩ right)

/-! ## Writing -/

/-- `json.dumps(value) if value else None`, for the value of a request body's
field when there is one. -/
def dumpsIfTruthy : Option Json → Option String
  | none => none
  | some value => if value.truthy then some (Json.dumps value) else none

/-! ## What is written and read back -/

variable {py}

theorem dumps_arr_ne_empty (xs : List Json) : Json.dumps (.arr xs) ≠ "" := by
  intro h
  have hlist := congrArg String.toList h
  simp [Json.dumps, Json.dumpsChars] at hlist

/-- A list of strings is read back as it was written. -/
theorem loadList_dumps (l : List String) :
    loadList py (some (Json.dumps (.arr (l.map .str)))) = some l := by
  simp only [loadList, if_neg (dumps_arr_ne_empty _),
    Json.loads_dumps (Json.writable_strings py.floatRepr l)]
  simp [Function.comp_def, PyText.str]

/-- What the restriction in a request, `null` or a list of strings, is read
back as: the empty list is lost. -/
theorem loadList_dumpsIfTruthy (l : List String) :
    loadList py (dumpsIfTruthy (some (.arr (l.map .str)))) = if l = [] then none else some l := by
  cases l with
  | nil => rfl
  | cons s l =>
      have htruthy : Json.truthy (.arr ((s :: l).map .str)) = true := rfl
      simp only [dumpsIfTruthy, htruthy, if_true]
      rw [loadList_dumps]
      simp

@[simp] theorem combineScopeSets_none_left (right : Option (Finset String)) :
    combineScopeSets none right = right := by
  cases right <;> rfl

@[simp] theorem combineScopeSets_none_right (left : Option (Finset String)) :
    combineScopeSets left none = left := by
  cases left <;> rfl

@[simp] theorem combineScopeSets_some (left right : Finset String) :
    combineScopeSets (some left) (some right) = some (left ∩ right) := rfl

end Plaidify.Principals
