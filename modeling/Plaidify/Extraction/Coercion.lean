import Plaidify.Lib.DateFormats
import Mathlib.Data.Bool.AllAny

/-!
# Values of extracted fields

`apply_transform` and `coerce_type` of `src/src/core/data_extractor.py`. A value that
has its type should stay as it is when it is coerced to the type again, and a field
should get the same value whether its blueprint names the transform or not;
`stable_iff` says when this is so.

The numbers are exact decimals, written like a `float`. Of a number that is written
with an exponent the filter in front of `float` takes the `e` and the plus sign.
-/

namespace Plaidify.Extraction.Coercion

open Decimals DateFormats

/-! ## Texts and values -/

/-- `str.strip()`. -/
def strip (s : List Char) : List Char :=
  (s.dropWhile Text.isSpace).rdropWhile Text.isSpace

/-- `FieldType`. -/
inductive FieldType where
  | text | currency | date | number | email | phone | list | table | boolean
deriving DecidableEq

/-- What a field is extracted as. -/
inductive Value where
  | none
  | text (s : List Char)
  | number (v : Decimal)
  | boolean (b : Bool)
deriving DecidableEq

/-- `str` of a value. -/
def Value.str : Value → List Char
  | none => "None".toList
  | text s => s
  | number v => Decimals.repr v
  | boolean true => "True".toList
  | boolean false => "False".toList

/-! ## Transforms -/

def transformStripWhitespace (value : List Char) : List Char :=
  [' '].intercalate ((value.splitOnP Text.isSpace).filter (· ≠ []))

def transformStripDollarSign (value : List Char) : List Char :=
  strip (value.filter (· ≠ '$'))

def transformStripCommas (value : List Char) : List Char :=
  value.filter (· ≠ ',')

/-- `[\d.\-]`. -/
def inNumber (c : Char) : Bool :=
  (digitValue c).isSome || c == '.' || c == '-'

/-- The decimal number that a text denotes. -/
def denoted (value : List Char) : Option Decimal :=
  read (value.filter inNumber)

def transformToNumber (value : List Char) : Decimal :=
  (denoted value).getD (zero false)

/-- `up` is where a number half way between two is rounded to. -/
def transformToCurrency (up : Decimal → Bool) (value : List Char) : Decimal :=
  ((denoted value).map (roundPlaces up 2)).getD (zero false)

/-- The formats that are tried in turn. -/
def formats : List (List Item) :=
  [[dirM, .literal '/', dirD, .literal '/', dirY],
    [dirY, .literal '-', dirM, .literal '-', dirD],
    [dirM, .literal '-', dirD, .literal '-', dirY],
    [dirD, .literal '/', dirM, .literal '/', dirY],
    [.monthName monthNames, .space, dirD, .literal ',', .space, dirY],
    [.monthName shortMonthNames, .space, dirD, .literal ',', .space, dirY],
    isoItems,
    isoItems ++ [.literal 'Z'],
    [dirM, .literal '/', dirD, .literal '/', dirShortY]]

/-- The first format that a text has. -/
def commonDate (value : List Char) : Option DateTime :=
  formats.findSome? fun format => strptime format value

/-- `custom` reads the format that is given, if one is. -/
def transformParseDate (custom : Option (List Char → Option DateTime)) (value : List Char) :
    List Char :=
  match (custom.bind fun parse => parse (strip value)).or (commonDate (strip value)) with
  | some date => isoformat date
  | none => strip value

/-- A transform of a blueprint. The ones with an argument have it read already: a
`search` gives the text of the first group, or of the whole match. -/
inductive Transform where
  | stripWhitespace | stripDollarSign | stripCommas | toLowercase | toUppercase | toNumber
  | toCurrency
  | parseDate (custom : Option (List Char → Option DateTime))
  | regexExtract (search : List Char → Option (List Char))
  /-- No transform of the table. -/
  | unknown

section

variable (lower upper : List Char → List Char) (up : Decimal → Bool)

def applyTransform (value : List Char) : Option Transform → Value
  | none => .text value
  | some .stripWhitespace => .text (transformStripWhitespace value)
  | some .stripDollarSign => .text (transformStripDollarSign value)
  | some .stripCommas => .text (transformStripCommas value)
  | some .toLowercase => .text (lower value)
  | some .toUppercase => .text (upper value)
  | some .toNumber => .number (transformToNumber value)
  | some .toCurrency => .number (transformToCurrency up value)
  | some (.parseDate custom) => .text (transformParseDate custom value)
  | some (.regexExtract search) => .text ((search value).getD value)
  | some .unknown => .text value

/-! ## Types -/

/-- `[\d+\-() ]`. -/
def inPhone (c : Char) : Bool :=
  (digitValue c).isSome || c == '+' || c == '-' || c == '(' || c == ')' || c == ' '

/-- The texts of a boolean that holds. -/
def trueTexts : List (List Char) :=
  ["true".toList, "yes".toList, "1".toList, "on".toList, "active".toList]

def coerceType (value : Value) (fieldType : FieldType) : Value :=
  if value = .none then .none
  else
    let strVal := strip value.str
    match fieldType with
    | .text => .text strVal
    | .currency => .number (transformToCurrency up strVal)
    | .number => .number (transformToNumber strVal)
    | .date => .text (transformParseDate none strVal)
    | .email => .text (strip (lower strVal))
    | .phone => .text (strVal.filter inPhone)
    | .boolean => .boolean (decide (lower strVal ∈ trueTexts))
    | .list | .table => .text strVal

/-- What `_extract_field` makes of the text it reads. -/
def fieldValue (raw : List Char) (transform : Option Transform) (fieldType : FieldType) : Value :=
  coerceType lower up (applyTransform lower upper up raw transform) fieldType

/-- What is known of `str.lower`: it lowers the letters of ASCII, the letters that it
gives are in lower case, and a text of such letters stays as it is. -/
structure Lowers : Prop where
  ascii : ∀ s : List Char, (∀ c ∈ s, c.toNat < 128) → lower s = s.map Char.toLower
  lowered : ∀ s, ∀ c ∈ lower s, lower [c] = [c]
  fixed : ∀ s, (∀ c ∈ s, lower [c] = [c]) → lower s = s

/-- The transform that makes what a type coerces to. -/
def sameTransform : FieldType → Option Transform
  | .number => some .toNumber
  | .currency => some .toCurrency
  | _ => none

/-- A second coercion changes nothing, nor does the transform of the same name
before the first. -/
structure Stable (fieldType : FieldType) (s : List Char) : Prop where
  again : coerceType lower up (coerceType lower up (.text s) fieldType) fieldType =
    coerceType lower up (.text s) fieldType
  transformed : fieldValue lower upper up s (sameTransform fieldType) fieldType =
    fieldValue lower upper up s none fieldType

/-- A number is of at most fifteen digits, so that a `float` holds it. -/
def Short (fieldType : FieldType) (s : List Char) : Prop :=
  fieldType = .number ∨ fieldType = .currency → ∀ v, denoted s = some v → v.digits.length ≤ 15

/-- A number is written without an exponent, an amount of money is less than `10 ^ 16`,
a phone number has no blank at its ends. -/
def Readable (fieldType : FieldType) (s : List Char) : Prop :=
  match fieldType with
  | .number => ∀ v, denoted s = some v → v.digits = [] ∨ Plain v
  | .currency => ∀ v, denoted s = some v → v.point ≤ 16
  | .phone => (strip s).find? inPhone ≠ some ' ' ∧ (strip s).reverse.find? inPhone ≠ some ' '
  | _ => True

end

/-! ## Blanks -/

/-- Stripping twice is stripping once. -/
theorem strip_strip (s : List Char) : strip (strip s) = strip s := by
  unfold strip
  rw [Text.dropWhile_rdropWhile, List.dropWhile_idempotent, List.rdropWhile_idempotent]

/-- A text is stripped if neither end of it is blank. -/
theorem strip_eq_self_iff {s : List Char} :
    strip s = s ↔ (∀ c, s.head? = some c → Text.isSpace c = false) ∧
      ∀ c, s.getLast? = some c → Text.isSpace c = false := by
  constructor
  · intro h
    -- dropping at either end has not changed the length
    have hdrop : s.dropWhile Text.isSpace = s := by
      refine (List.dropWhile_suffix _).eq_of_length_le ?_
      have hle := (List.rdropWhile_prefix Text.isSpace (s.dropWhile Text.isSpace)).length_le
      have hlength := congrArg List.length h
      unfold strip at hlength
      omega
    have hrdrop : s.rdropWhile Text.isSpace = s := by
      unfold strip at h
      rwa [hdrop] at h
    constructor
    · intro c hc
      have hlast := List.dropWhile_eq_self_iff.mp hdrop
      cases s with
      | nil => cases hc
      | cons d s =>
        obtain rfl := Option.some.inj hc
        exact Bool.eq_false_of_not_eq_true (hlast (Nat.zero_lt_succ _))
    · intro c hc
      have hne : s ≠ [] := by
        rintro rfl
        cases hc
      rw [List.getLast?_eq_getLast_of_ne_nil hne] at hc
      obtain rfl := Option.some.inj hc
      exact Bool.eq_false_of_not_eq_true (List.rdropWhile_eq_self_iff.mp hrdrop hne)
  · rintro ⟨hhead, hlast⟩
    have hdrop : s.dropWhile Text.isSpace = s := by
      refine List.dropWhile_eq_self_iff.mpr fun hl => ?_
      rw [hhead s[0] (List.head?_eq_getElem?.trans (List.getElem?_eq_getElem hl))]
      exact Bool.false_ne_true
    unfold strip
    rw [hdrop]
    refine List.rdropWhile_eq_self_iff.mpr fun hne => ?_
    rw [hlast _ (List.getLast?_eq_getLast_of_ne_nil hne)]
    exact Bool.false_ne_true

theorem filter_dropWhile {p q : Char → Bool} (h : ∀ c, q c = true → p c = false) (s : List Char) :
    (s.dropWhile q).filter p = s.filter p := by
  induction s with
  | nil => rfl
  | cons c s ih =>
    by_cases hc : q c = true
    · rw [List.dropWhile_cons_of_pos hc, ih, List.filter_cons_of_neg (by simp [h c hc])]
    · rw [List.dropWhile_cons_of_neg hc]

/-- Stripping is lost on a filter that keeps no blanks. -/
theorem filter_strip {p : Char → Bool} (h : ∀ c, Text.isSpace c = true → p c = false)
    (s : List Char) : (strip s).filter p = s.filter p := by
  unfold strip List.rdropWhile
  rw [List.filter_reverse, filter_dropWhile h, ← List.filter_reverse, List.reverse_reverse,
    filter_dropWhile h]

/-- A blank is no digit of any script. -/
theorem digitValue_space {c : Char} (h : Text.isSpace c = true) : digitValue c = none := by
  have hzeros : ∀ z ∈ scriptZeros,
      z = 0x30 ∨ 0x660 ≤ z ∧ z ≤ 0x1090 ∨ 0x17e0 ≤ z ∧ z ≤ 0x1c50 ∨ 0xa000 ≤ z := by decide
  unfold digitValue
  rw [Option.map_eq_none_iff, List.find?_eq_none]
  intro z hz hin
  have hz := hzeros z hz
  simp only [Text.isSpace, Bool.or_eq_true, Bool.and_eq_true, decide_eq_true_eq, beq_iff_eq]
    at h hin
  omega

theorem inNumber_space {c : Char} (h : Text.isSpace c = true) : inNumber c = false := by
  have hpoint : c ≠ '.' := by
    rintro rfl
    exact absurd h (by decide)
  have hminus : c ≠ '-' := by
    rintro rfl
    exact absurd h (by decide)
  simp [inNumber, digitValue_space h, hpoint, hminus]

/-- The only blank in a phone number is the space. -/
theorem inPhone_space {c : Char} (hspace : Text.isSpace c = true) (h : inPhone c = true) :
    c = ' ' := by
  by_contra hne
  have hsigns : ∀ d ∈ ['+', '-', '(', ')'], c ≠ d := by
    rintro d hd rfl
    have hnone : ∀ e ∈ ['+', '-', '(', ')'], Text.isSpace e = false :=
      List.all_iff_forall_prop.mp (by decide)
    rw [hnone c hd] at hspace
    cases hspace
  simp [inPhone, digitValue_space hspace, hne, hsigns '+', hsigns '-', hsigns '(', hsigns ')'] at h

/-- White space at the ends is no part of the number that is read. -/
theorem denoted_strip (s : List Char) : denoted (strip s) = denoted s := by
  unfold denoted
  rw [filter_strip fun c => inNumber_space]

/-! ## Numbers -/

theorem filter_digits (ds : List Digit) :
    (ds.map digitChar).filter inNumber = ds.map digitChar := by
  refine List.filter_eq_self.mpr fun c hc => ?_
  obtain ⟨d, -, rfl⟩ := List.mem_map.mp hc
  simp [inNumber, digitValue_digitChar]

theorem filter_sign (neg : Bool) :
    (if neg then ['-'] else []).filter inNumber = if neg then ['-'] else [] := by
  cases neg <;> rfl

/-- A plain number is written in characters of numbers only. -/
theorem filter_plain (v : Decimal) : (plain v).filter inNumber = plain v := by
  have hzeros : ∀ n, (zeros n).filter inNumber = zeros n := by
    intro n
    rw [zeros_eq, filter_digits]
  have hpoint : inNumber '.' = true := by decide
  have hzero : inNumber '0' = true := by decide
  unfold plain
  split
  · rw [List.filter_cons_of_pos hzero, List.filter_cons_of_pos hpoint, List.filter_append, hzeros,
      filter_digits]
  · split
    · rw [List.filter_append, List.filter_append, filter_digits, hzeros]
      rfl
    · rw [List.filter_append, filter_digits, List.filter_cons_of_pos hpoint, filter_digits]

/-- The filter takes the exponent apart. -/
theorem filter_scientific (v : Decimal) : (scientific v).filter inNumber = mangled v := by
  have hfraction : (if v.digits.length ≤ 1 then [] else
      '.' :: (v.digits.drop 1).map digitChar).filter inNumber =
      if v.digits.length ≤ 1 then [] else '.' :: (v.digits.drop 1).map digitChar := by
    split
    · rfl
    · rw [List.filter_cons_of_pos (by decide), filter_digits]
  have hsign : ∀ exponent : Int, ((if exponent < 0 then '-' else '+') ::
      (exponentDigits exponent.natAbs).map digitChar).filter inNumber =
      (if exponent < 0 then ['-'] else []) ++ (exponentDigits exponent.natAbs).map digitChar := by
    intro exponent
    by_cases hneg : exponent < 0
    · rw [if_pos hneg, if_pos hneg, List.filter_cons_of_pos (by decide), filter_digits]
      rfl
    · rw [if_neg hneg, if_neg hneg, List.filter_cons_of_neg (by decide), filter_digits]
      rfl
  unfold scientific mangled
  dsimp only
  rw [List.filter_append, List.filter_append, filter_digits, hfraction,
    List.filter_cons_of_neg (by decide), hsign, List.append_assoc _ _ (List.map _ _)]

/-- A number that is printed plainly is read back. -/
theorem denoted_repr_plain {v : Decimal} (h : v.digits = [] ∨ Plain v) :
    denoted (Decimals.repr v) = some v := by
  have hfilter : (Decimals.repr v).filter inNumber = Decimals.repr v := by
    unfold Decimals.repr
    rw [List.filter_append, filter_sign]
    by_cases hdigits : v.digits = []
    · rw [if_pos hdigits]
      rfl
    · rw [if_neg hdigits, if_pos (h.resolve_left hdigits), filter_plain]
  unfold denoted
  rw [hfilter, read_repr h]

/-- Of one that is printed with an exponent the letter is lost. -/
theorem denoted_repr_scientific {v : Decimal} (hdigits : v.digits ≠ []) (hplain : ¬ Plain v) :
    denoted (Decimals.repr v) = read ((if v.neg then ['-'] else []) ++ mangled v) := by
  unfold denoted Decimals.repr
  rw [if_neg hdigits, if_neg hplain, List.filter_append, filter_sign, filter_scientific]

/-- What is written with an exponent is read as another number or none. -/
theorem denoted_repr_ne {v : Decimal} (hdigits : v.digits ≠ []) (hplain : ¬ Plain v) :
    denoted (Decimals.repr v) = none ∧ v.point ≤ 0 ∨
      ∃ w, denoted (Decimals.repr v) = some w ∧ 16 < v.point ∧ w.point + 1 < v.point := by
  rw [denoted_repr_scientific hdigits hplain]
  by_cases hsmall : v.point ≤ 0
  · exact .inl ⟨read_mangled_small hdigits hsmall, hsmall⟩
  · have hlarge : 16 < v.point := by
      unfold Plain at hplain
      omega
    obtain ⟨w, hread, hpoint⟩ := read_mangled_large hdigits hlarge
    exact .inr ⟨w, hread, hlarge, hpoint⟩

/-- `to_number` does not see white space at the ends. -/
theorem transformToNumber_strip (s : List Char) :
    transformToNumber (strip s) = transformToNumber s := by
  unfold transformToNumber
  rw [denoted_strip]

/-- Neither does `to_currency`. -/
theorem transformToCurrency_strip (up : Decimal → Bool) (s : List Char) :
    transformToCurrency up (strip s) = transformToCurrency up s := by
  unfold transformToCurrency
  rw [denoted_strip]

/-- Printing and reading is the identity on what is printed plainly, and only there. -/
theorem transformToNumber_repr_iff (v : Decimal) :
    transformToNumber (Decimals.repr v) = v ↔ v.digits = [] ∨ Plain v := by
  constructor
  · intro h
    by_contra hnot
    obtain ⟨hdigits, hplain⟩ := not_or.mp hnot
    unfold transformToNumber at h
    rcases denoted_repr_ne hdigits hplain with ⟨hnone, -⟩ | ⟨w, hsome, -, hpoint⟩
    · rw [hnone] at h
      exact hdigits (h ▸ rfl)
    · rw [hsome] at h
      obtain rfl : w = v := h
      omega
  · intro h
    unfold transformToNumber
    rw [denoted_repr_plain h]
    rfl

/-- An amount of at most two places stays itself where it is less than `10 ^ 16`. -/
theorem transformToCurrency_repr_iff (up : Decimal → Bool) {v : Decimal}
    (hfits : (v.digits.length : Int) ≤ v.point + (2 : Nat)) :
    transformToCurrency up (Decimals.repr v) = v ↔ v.point ≤ 16 := by
  constructor
  · intro h
    by_contra hlarge
    have hdigits : v.digits ≠ [] := by
      intro hnil
      have hzero := v.zero hnil
      omega
    have hplain : ¬ Plain v := fun hplain => hlarge hplain.2
    unfold transformToCurrency at h
    rcases denoted_repr_ne hdigits hplain with ⟨-, hsmall⟩ | ⟨w, hsome, -, hpoint⟩
    · omega
    · rw [hsome] at h
      have hround : roundPlaces up 2 w = v := h
      by_cases hw : (w.digits.length : Int) ≤ w.point + (2 : Nat)
      · rw [roundPlaces_of_fits up hw] at hround
        rw [hround] at hpoint
        omega
      · have hle := roundPlaces_point_le up hw
        rw [hround] at hle
        omega
  · intro h
    have hread : v.digits = [] ∨ Plain v := by
      by_cases hdigits : v.digits = []
      · exact .inl hdigits
      · have hlength := List.length_pos_of_ne_nil hdigits
        refine .inr ⟨?_, h⟩
        omega
    unfold transformToCurrency
    rw [denoted_repr_plain hread]
    exact roundPlaces_of_fits up hfits

/-! ## Dates -/

theorem isSpace_digitChar (d : Digit) : Text.isSpace (digitChar d) = false := by
  revert d
  decide

/-- A date has no white space at its ends. -/
theorem strip_isoformat (d : DateTime) : strip (isoformat d) = isoformat d := by
  refine strip_eq_self_iff.mpr ⟨?_, ?_⟩
  · intro c hc
    obtain rfl := Option.some.inj hc
    exact isSpace_digitChar _
  · intro c hc
    have hlast : (isoformat d).getLast? =
        some (digitChar (Fin.ofNat 10 (d.val.second / 10 ^ 0))) := by
      simp [isoformat, pad, List.range_succ, List.getLast?_cons]
    rw [hlast] at hc
    obtain rfl := Option.some.inj hc
    exact isSpace_digitChar _

/-- It has a `T` and hyphens, and no format that is tried takes both. -/
theorem mem_isoformat (d : DateTime) : 'T' ∈ isoformat d ∧ '-' ∈ isoformat d := by
  simp [isoformat]

/-- The formats before `%Y-%m-%dT%H:%M:%S` leave a part of a date as it prints. -/
theorem commonDate_isoformat (d : DateTime) : commonDate (isoformat d) = some d := by
  obtain ⟨htime, hminus⟩ := mem_isoformat d
  have hnone : ∀ format ∈ formats.take 6, strptime format (isoformat d) = none := by
    intro format hformat
    -- no numeric format has a `T`, and none with the name of a month has a `-`
    have htakes : ∀ format ∈ formats.take 6, format.all (fun item => !item.accepts 'T') = true ∨
        format.all (fun item => !item.accepts '-') = true := by decide
    rcases htakes format hformat with hnot | hnot
    · exact strptime_eq_none hnot htime
    · exact strptime_eq_none hnot hminus
  have hsplit : formats = formats.take 6 ++ isoItems :: formats.drop 7 := rfl
  unfold commonDate
  rw [hsplit, List.findSome?_append, List.findSome?_eq_none_iff.mpr hnone, Option.none_or,
    List.findSome?_cons, strptime_isoformat]

/-- A date that was parsed is left as it is. -/
theorem transformParseDate_again (s : List Char) :
    transformParseDate none (strip (transformParseDate none s)) = transformParseDate none s := by
  have hparse : ∀ s, transformParseDate none s =
      match commonDate (strip s) with
      | some date => isoformat date
      | none => strip s := fun s => rfl
  rw [hparse s]
  cases hdate : commonDate (strip s) with
  | none =>
    dsimp only
    rw [hparse, strip_strip, strip_strip, hdate]
  | some date =>
    dsimp only
    rw [hparse, strip_isoformat, strip_isoformat, commonDate_isoformat]

/-! ## Stability -/

section

variable {lower upper : List Char → List Char} {up : Decimal → Bool}

/-- What each type makes of a text. -/
theorem coerceType_text (s : List Char) (fieldType : FieldType) :
    coerceType lower up (.text s) fieldType =
      match fieldType with
      | .text => .text (strip s)
      | .currency => .number (transformToCurrency up s)
      | .number => .number (transformToNumber s)
      | .date => .text (transformParseDate none (strip s))
      | .email => .text (strip (lower (strip s)))
      | .phone => .text ((strip s).filter inPhone)
      | .boolean => .boolean (decide (lower (strip s) ∈ trueTexts))
      | .list | .table => .text (strip s) := by
  unfold coerceType
  rw [if_neg (by simp)]
  cases fieldType
  case currency => exact congrArg Value.number (transformToCurrency_strip up s)
  case number => exact congrArg Value.number (transformToNumber_strip s)
  all_goals rfl

/-- What the types of numbers make of a number, which they print first. -/
theorem coerceType_number (v : Decimal) :
    coerceType lower up (.number v) .number = .number (transformToNumber (Decimals.repr v)) ∧
      coerceType lower up (.number v) .currency =
        .number (transformToCurrency up (Decimals.repr v)) :=
  ⟨congrArg Value.number (transformToNumber_strip _),
    congrArg Value.number (transformToCurrency_strip up _)⟩

/-- For a number both parts of stability say the same. -/
theorem stable_iff_repr {fieldType : FieldType} {toValue : List Char → Decimal} {s : List Char}
    (htext : coerceType lower up (.text s) fieldType = .number (toValue s))
    (hnumber : ∀ v, coerceType lower up (.number v) fieldType =
      .number (toValue (Decimals.repr v)))
    (htransform : applyTransform lower upper up s (sameTransform fieldType) =
      .number (toValue s)) :
    Stable lower upper up fieldType s ↔ toValue (Decimals.repr (toValue s)) = toValue s := by
  constructor
  · intro h
    have hagain := h.again
    rw [htext, hnumber] at hagain
    exact Value.number.inj hagain
  · intro h
    have hsame : coerceType lower up (.number (toValue s)) fieldType = .number (toValue s) := by
      rw [hnumber, h]
    refine ⟨?_, ?_⟩
    · rw [htext, hsame]
    · show coerceType lower up (applyTransform lower upper up s _) fieldType =
        coerceType lower up (.text s) fieldType
      rw [htransform, hsame, htext]

/-- A number is stable just if it is printed plainly. -/
theorem stable_number_iff (s : List Char) :
    Stable lower upper up .number s ↔
      ∀ v, denoted s = some v → v.digits = [] ∨ Plain v := by
  rw [stable_iff_repr (coerceType_text s .number) (fun v => (coerceType_number v).1) rfl,
    transformToNumber_repr_iff]
  unfold transformToNumber
  cases denoted s with
  | none => exact ⟨fun _ v hv => (nomatch hv), fun _ => .inl rfl⟩
  | some v => exact ⟨fun h w hw => Option.some.inj hw ▸ h, fun h => h v rfl⟩

/-- A short amount is stable just if its point is no further than sixteen places on. -/
theorem stable_currency_iff {s : List Char} (hshort : Short .currency s) :
    Stable lower upper up .currency s ↔ ∀ v, denoted s = some v → v.point ≤ 16 := by
  rw [stable_iff_repr (coerceType_text s .currency) (fun v => (coerceType_number v).2) rfl]
  unfold transformToCurrency
  cases hdenoted : denoted s with
  | none =>
    have hzero : transformToCurrency up (Decimals.repr (zero false)) = zero false :=
      (transformToCurrency_repr_iff up (by decide)).mpr (by decide)
    exact ⟨fun _ v hv => (nomatch hv), fun _ => hzero⟩
  | some v =>
    have hiff := transformToCurrency_repr_iff up (roundPlaces_fits up 2 v)
    have hpoint : (roundPlaces up 2 v).point ≤ 16 ↔ v.point ≤ 16 := by
      by_cases hfits : (v.digits.length : Int) ≤ v.point + (2 : Nat)
      · rw [roundPlaces_of_fits up hfits]
      · -- a number that is rounded has its point before its fourteenth digit
        have hlength := hshort (.inr rfl) v hdenoted
        have hle := roundPlaces_point_le up hfits
        omega
    refine hiff.trans (hpoint.trans ⟨fun h w hw => Option.some.inj hw ▸ h, fun h => h v rfl⟩)

/-- A telephone number is stable just if the first and the last character kept are no blanks. -/
theorem stable_phone_iff (s : List Char) :
    Stable lower upper up .phone s ↔
      (strip s).find? inPhone ≠ some ' ' ∧ (strip s).reverse.find? inPhone ≠ some ' ' := by
  have hstable : Stable lower upper up .phone s ↔
      strip ((strip s).filter inPhone) = (strip s).filter inPhone := by
    constructor
    · intro h
      have hagain := h.again
      rw [coerceType_text, coerceType_text] at hagain
      have hfilter : (strip ((strip s).filter inPhone)).filter inPhone =
          (strip s).filter inPhone := Value.text.inj hagain
      -- what is stripped off is kept by the filter, so that nothing is
      have hkept : ∀ c ∈ strip ((strip s).filter inPhone), inPhone c = true := by
        intro c hc
        have hsub : c ∈ (strip s).filter inPhone :=
          (List.dropWhile_suffix _).subset ((List.rdropWhile_prefix _ _).subset hc)
        exact (List.mem_filter.mp hsub).2
      rwa [List.filter_eq_self.mpr hkept] at hfilter
    · intro h
      refine ⟨?_, rfl⟩
      rw [coerceType_text, coerceType_text]
      dsimp only
      rw [h, List.filter_filter]
      simp only [Bool.and_self]
  have hblank : ∀ o : Option Char, (∀ c, o = some c → inPhone c = true) →
      ((∀ c, o = some c → Text.isSpace c = false) ↔ o ≠ some ' ') := by
    intro o ho
    constructor
    · intro h heq
      exact absurd (h ' ' heq) (by decide)
    · intro hne c hc
      refine Bool.eq_false_of_not_eq_true fun hspace => ?_
      exact hne (hc.trans (congrArg some (inPhone_space hspace (ho c hc))))
  rw [hstable, strip_eq_self_iff, List.head?_filter, List.getLast?_filter,
    hblank _ fun c hc => List.find?_some hc, hblank _ fun c hc => List.find?_some hc]

/-- Dates are stable. -/
theorem stable_date (s : List Char) : Stable lower upper up .date s := by
  refine ⟨?_, rfl⟩
  rw [coerceType_text, coerceType_text]
  exact congrArg Value.text (transformParseDate_again (strip s))

/-- Addresses are stable, where lowering twice is lowering once. -/
theorem stable_email (hlower : Lowers lower) (s : List Char) : Stable lower upper up .email s := by
  refine ⟨?_, rfl⟩
  rw [coerceType_text, coerceType_text]
  have hsub : ∀ c ∈ strip (lower (strip s)), c ∈ lower (strip s) := fun c hc =>
    (List.dropWhile_suffix _).subset ((List.rdropWhile_prefix _ _).subset hc)
  have hfixed : lower (strip (lower (strip s))) = strip (lower (strip s)) :=
    hlower.fixed _ fun c hc => hlower.lowered (strip s) c (hsub c hc)
  dsimp only
  rw [strip_strip, hfixed, strip_strip]

/-- So are truth values. -/
theorem stable_boolean (hlower : Lowers lower) (s : List Char) :
    Stable lower upper up .boolean s := by
  have hagain : ∀ b, coerceType lower up (.boolean b) .boolean = .boolean b := by
    intro b
    have htrue : lower "True".toList = "true".toList :=
      hlower.ascii _ (List.all_iff_forall_prop.mp (by decide))
    have hfalse : lower "False".toList = "false".toList :=
      hlower.ascii _ (List.all_iff_forall_prop.mp (by decide))
    cases b with
    | true =>
      have hstrip : strip "True".toList = "True".toList := by decide
      show Value.boolean (decide (lower (strip "True".toList) ∈ trueTexts)) = _
      rw [hstrip, htrue]
      rfl
    | false =>
      have hstrip : strip "False".toList = "False".toList := by decide
      show Value.boolean (decide (lower (strip "False".toList) ∈ trueTexts)) = _
      rw [hstrip, hfalse]
      rfl
  refine ⟨?_, rfl⟩
  rw [coerceType_text]
  exact hagain _

/-- So is what is only stripped. -/
theorem stable_stripped {fieldType : FieldType} (htransform : sameTransform fieldType = none)
    (hstrip : ∀ s, coerceType lower up (.text s) fieldType = .text (strip s)) (s : List Char) :
    Stable lower upper up fieldType s := by
  refine ⟨?_, ?_⟩
  · rw [hstrip, hstrip, strip_strip]
  · rw [htransform]

/-- The values of every type are stable where they are readable, and only there. -/
theorem stable_iff (hlower : Lowers lower) {fieldType : FieldType} {s : List Char}
    (hshort : Short fieldType s) :
    Stable lower upper up fieldType s ↔ Readable fieldType s := by
  cases fieldType with
  | number => exact stable_number_iff s
  | currency => exact stable_currency_iff hshort
  | phone => exact stable_phone_iff s
  | date => exact iff_of_true (stable_date s) trivial
  | email => exact iff_of_true (stable_email hlower s) trivial
  | boolean => exact iff_of_true (stable_boolean hlower s) trivial
  | text => exact iff_of_true (stable_stripped rfl (coerceType_text · .text) s) trivial
  | list => exact iff_of_true (stable_stripped rfl (coerceType_text · .list) s) trivial
  | table => exact iff_of_true (stable_stripped rfl (coerceType_text · .table) s) trivial

end

def asciiLower (s : List Char) : List Char :=
  s.map Char.toLower

def asciiUpper (s : List Char) : List Char :=
  s.map Char.toUpper

/-- Lowering ASCII letters is a way to lower. -/
theorem asciiLower_lowers : Lowers asciiLower := by
  refine ⟨fun s _ => rfl, ?_, ?_⟩
  · intro s c hc
    obtain ⟨d, -, rfl⟩ := List.mem_map.mp hc
    exact congrArg (fun e => [e]) (Text.toLower_toLower d)
  · intro s hs
    refine (List.map_congr_left fun c hc => ?_).trans (List.map_id s)
    exact List.head_eq_of_cons_eq (hs c hc)

/-- The amount `$1,234.567`, rounded to cents. -/
theorem stable_amount :
    denoted "$1,234.567".toList = some ⟨false, [1, 2, 3, 4, 5, 6, 7], 4, by decide, by decide,
        by decide⟩ ∧
      (Stable asciiLower asciiUpper (fun _ => false) .currency "$1,234.567".toList ↔
        Readable .currency "$1,234.567".toList) := by
  have hdenoted : denoted "$1,234.567".toList = some ⟨false, [1, 2, 3, 4, 5, 6, 7], 4, by decide,
      by decide, by decide⟩ := by decide
  refine ⟨hdenoted, stable_iff asciiLower_lowers fun _ v hv => ?_⟩
  rw [hdenoted] at hv
  obtain rfl := Option.some.inj hv
  decide

/-- `0.00001` prints as `1e-05`, of which `1-05` is left, which is no numeral. -/
theorem small_number_not_stable :
    Short .number "0.00001".toList ∧
      ¬ Stable asciiLower asciiUpper (fun _ => false) .number "0.00001".toList := by
  have hdenoted : denoted "0.00001".toList = some ⟨false, [1], -4, by decide, by decide,
      by decide⟩ := by decide
  refine ⟨?_, ?_⟩
  · intro _ v hv
    rw [hdenoted] at hv
    obtain rfl := Option.some.inj hv
    decide
  · intro hstable
    have hread := (stable_number_iff _).mp hstable _ hdenoted
    exact absurd hread (by decide)

end Plaidify.Extraction.Coercion
