import Plaidify.Lib.Decimals
import Plaidify.Lib.Text
import Mathlib.Tactic.IntervalCases

/-!
# Dates in text

`datetime.strptime` for formats of numbers, names of months and literal text, and
`isoformat`. A format is matched like a regular expression: directives try their
alternatives in order, the first way to match all of them counts, and only then is
it asked whether the text is used up.
-/

namespace DateFormats

open Decimals (Digit digitValue digitChar)

/-! ## Dates -/

def isLeap (year : Nat) : Bool :=
  year % 4 = 0 && (year % 100 ≠ 0 || year % 400 = 0)

def daysIn (year month : Nat) : Nat :=
  if month = 2 then (if isLeap year then 29 else 28)
  else if month ∈ [4, 6, 9, 11] then 30
  else 31

/-- What a text says of a date. -/
structure Fields where
  year : Nat := 1900
  month : Nat := 1
  day : Nat := 1
  hour : Nat := 0
  minute : Nat := 0
  second : Nat := 0
deriving DecidableEq, Repr

/-- The arguments that `datetime` takes. -/
structure Fields.Valid (f : Fields) : Prop where
  year : 1 ≤ f.year ∧ f.year ≤ 9999
  month : 1 ≤ f.month ∧ f.month ≤ 12
  day : 1 ≤ f.day ∧ f.day ≤ daysIn f.year f.month
  time : f.hour < 24 ∧ f.minute < 60 ∧ f.second < 60

instance (f : Fields) : Decidable f.Valid :=
  decidable_of_iff
    ((1 ≤ f.year ∧ f.year ≤ 9999) ∧ (1 ≤ f.month ∧ f.month ≤ 12) ∧
      (1 ≤ f.day ∧ f.day ≤ daysIn f.year f.month) ∧
      (f.hour < 24 ∧ f.minute < 60 ∧ f.second < 60))
    ⟨fun ⟨hy, hm, hd, ht⟩ => ⟨hy, hm, hd, ht⟩, fun h => ⟨h.year, h.month, h.day, h.time⟩⟩

/-- A `datetime`. -/
abbrev DateTime := { f : Fields // f.Valid }

local instance neZero_ten : NeZero 10 := ⟨by decide⟩

/-- The last digits of a number. -/
def pad (width n : Nat) : List Char :=
  (List.range width).reverse.map fun i => digitChar (Fin.ofNat 10 (n / 10 ^ i))

/-- `isoformat`. -/
def isoformat (d : DateTime) : List Char :=
  pad 4 d.val.year ++ '-' :: pad 2 d.val.month ++ '-' :: pad 2 d.val.day ++
    'T' :: pad 2 d.val.hour ++ ':' :: pad 2 d.val.minute ++ ':' :: pad 2 d.val.second

/-! ## Formats -/

/-- One character of a number: `[lo-hi]`, `\d` or a blank. -/
inductive Matcher where
  | range (lo hi : Nat)
  | digit
  | blank

def Matcher.read (c : Char) : Matcher → Option Nat
  | range lo hi =>
      if '0'.toNat + lo ≤ c.toNat ∧ c.toNat ≤ '0'.toNat + hi then some (c.toNat - '0'.toNat)
      else none
  | digit => (digitValue c).map Fin.val
  | blank => if c = ' ' then some 0 else none

/-- An alternative of a directive: its number and the rest of the text. -/
def readNumber (n : Nat) : List Matcher → List Char → Option (Nat × List Char)
  | [], s => some (n, s)
  | _ :: _, [] => none
  | m :: ms, c :: s => (m.read c).bind fun d => readNumber (10 * n + d) ms s

inductive Item where
  | literal (c : Char)
  /-- `\s+`. -/
  | space
  | number (set : Nat → Fields → Fields) (alternatives : List (List Matcher))
  /-- Names of the months, in lower case. -/
  | monthName (names : List (List Char × Nat))

def dirY : Item :=
  .number (fun n f => { f with year := n }) [[.digit, .digit, .digit, .digit]]

/-- A year of two digits. -/
def dirShortY : Item :=
  .number (fun n f => { f with year := if n ≤ 68 then 2000 + n else 1900 + n }) [[.digit, .digit]]

def dirM : Item :=
  .number (fun n f => { f with month := n })
    [[.range 1 1, .range 0 2], [.range 0 0, .range 1 9], [.range 1 9]]

def dirD : Item :=
  .number (fun n f => { f with day := n })
    [[.range 3 3, .range 0 1], [.range 1 2, .digit], [.range 0 0, .range 1 9], [.range 1 9],
      [.blank, .range 1 9]]

def dirHour : Item :=
  .number (fun n f => { f with hour := n })
    [[.range 2 2, .range 0 3], [.range 0 1, .digit], [.digit]]

def dirMinute : Item :=
  .number (fun n f => { f with minute := n }) [[.range 0 5, .digit], [.digit]]

def dirSecond : Item :=
  .number (fun n f => { f with second := n })
    [[.range 6 6, .range 0 1], [.range 0 5, .digit], [.digit]]

/-- The names, the longest first. -/
def monthNames : List (List Char × Nat) :=
  [("september".toList, 9), ("february".toList, 2), ("november".toList, 11),
    ("december".toList, 12), ("january".toList, 1), ("october".toList, 10), ("august".toList, 8),
    ("march".toList, 3), ("april".toList, 4), ("june".toList, 6), ("july".toList, 7),
    ("may".toList, 5)]

def shortMonthNames : List (List Char × Nat) :=
  [("jan".toList, 1), ("feb".toList, 2), ("mar".toList, 3), ("apr".toList, 4), ("may".toList, 5),
    ("jun".toList, 6), ("jul".toList, 7), ("aug".toList, 8), ("sep".toList, 9), ("oct".toList, 10),
    ("nov".toList, 11), ("dec".toList, 12)]

/-! ## Matching -/

/-- The ways to match an item, in order, each with the rest of the text. -/
def matchItem (item : Item) (f : Fields) (s : List Char) : List (Fields × List Char) :=
  match item with
  | .literal c =>
      match s with
      | [] => []
      | d :: rest => if d.toLower = c.toLower then [(f, rest)] else []
  | .space =>
      let run := (s.takeWhile Text.isSpace).length
      ((List.range run).map fun i => (f, s.drop (run - i)))
  | .number set alternatives =>
      alternatives.filterMap fun ms => (readNumber 0 ms s).map fun m => (set m.1 f, m.2)
  | .monthName names =>
      names.filterMap fun name =>
        if (s.take name.1.length).map Char.toLower = name.1 then
          some ({ f with month := name.2 }, s.drop name.1.length)
        else none

def matchItems : List Item → Fields → List Char → List (Fields × List Char)
  | [], f, s => [(f, s)]
  | item :: items, f, s => (matchItem item f s).flatMap fun m => matchItems items m.1 m.2

/-- `datetime.strptime`; `none` for a `ValueError`. -/
def strptime (format : List Item) (s : List Char) : Option DateTime :=
  match (matchItems format {} s).head? with
  | some (f, []) => if h : f.Valid then some ⟨f, h⟩ else none
  | _ => none

/-! ## Characters that no item takes -/

/-- Whether an item can use up a character. -/
def Item.accepts (c : Char) : Item → Bool
  | literal d => c.toLower = d.toLower
  | space => Text.isSpace c
  | number _ alternatives => alternatives.any fun ms => ms.any fun m => (m.read c).isSome
  | monthName names => names.any fun name => name.1.contains c.toLower

theorem mem_rest {c d : Char} {s : List Char} (hc : c ∈ d :: s) (hne : c ≠ d) : c ∈ s :=
  (List.mem_cons.mp hc).resolve_left hne

theorem readNumber_keeps {c : Char} {ms : List Matcher} (hms : ∀ m ∈ ms, m.read c = none) :
    ∀ {n : Nat} {s : List Char} {r : Nat × List Char}, c ∈ s → readNumber n ms s = some r →
      c ∈ r.2 := by
  induction ms with
  | nil =>
    intro n s r hs hr
    obtain rfl := Option.some.inj hr
    exact hs
  | cons m ms ih =>
    intro n s r hs hr
    cases s with
    | nil => cases hr
    | cons d s =>
      obtain ⟨k, hread, hrest⟩ := Option.bind_eq_some_iff.mp hr
      have hne : c ≠ d := by
        intro heq
        rw [← heq, hms m List.mem_cons_self] at hread
        cases hread
      exact ih (fun m hm => hms m (List.mem_cons_of_mem _ hm)) (mem_rest hs hne) hrest

/-- A character that an item does not take is in what is left. -/
theorem matchItem_keeps {c : Char} {item : Item} (hitem : item.accepts c = false) {f : Fields}
    {s : List Char} (hs : c ∈ s) : ∀ m ∈ matchItem item f s, c ∈ m.2 := by
  intro m hm
  cases item with
  -- one character is taken, and it is another one
  | literal d =>
    cases s with
    | nil => cases hm
    | cons e s =>
      by_cases heq : e.toLower = d.toLower
      · have hne : c ≠ e := by
          intro h
          rw [h] at hitem
          exact of_decide_eq_false hitem heq
        have hm : m ∈ (if e.toLower = d.toLower then [(f, s)] else []) := hm
        rw [if_pos heq] at hm
        rw [List.mem_singleton.mp hm]
        exact mem_rest hs hne
      · have hm : m ∈ (if e.toLower = d.toLower then [(f, s)] else []) := hm
        rw [if_neg heq] at hm
        cases hm
  | space =>
    obtain ⟨i, hi, rfl⟩ := List.mem_map.mp hm
    -- what is dropped is white
    have hle : (s.takeWhile Text.isSpace).length - i ≤ (s.takeWhile Text.isSpace).length :=
      Nat.sub_le _ _
    generalize (s.takeWhile Text.isSpace).length - i = k at hle
    rw [← List.take_append_drop k s] at hs
    refine (List.mem_append.mp hs).resolve_left fun htake => ?_
    have hfront : s.take k <+: s.takeWhile Text.isSpace := by
      rw [List.prefix_iff_eq_take.mp (List.takeWhile_prefix Text.isSpace)]
      exact List.take_prefix_take_left hle
    have hwhite : Text.isSpace c = true := List.mem_takeWhile_imp (hfront.subset htake)
    rw [Item.accepts, hwhite] at hitem
    cases hitem
  | number set alternatives =>
    obtain ⟨ms, hms, hsome⟩ := List.mem_filterMap.mp hm
    obtain ⟨r, hr, rfl⟩ := Option.map_eq_some_iff.mp hsome
    -- the character is no digit of the number
    have hnone : ∀ m ∈ ms, m.read c = none := by
      intro m hm
      have hany := List.any_eq_false.mp hitem ms hms
      have hsome := List.any_eq_false.mp (Bool.eq_false_of_not_eq_true hany) m hm
      exact Option.not_isSome_iff_eq_none.mp hsome
    exact readNumber_keeps hnone hs hr
  | monthName names =>
    obtain ⟨name, hname, hsome⟩ := List.mem_filterMap.mp hm
    split at hsome
    · next hmatch =>
      obtain rfl := Option.some.inj hsome
      rw [← List.take_append_drop name.1.length s] at hs
      refine (List.mem_append.mp hs).resolve_left fun htake => ?_
      -- a name that is taken has no such character
      have hin : c.toLower ∈ name.1 := by
        rw [← hmatch]
        exact List.mem_map_of_mem htake
      exact List.any_eq_false.mp hitem name hname (List.contains_iff_mem.mpr hin)
    · cases hsome

theorem matchItems_keeps {c : Char} {items : List Item}
    (hitems : ∀ item ∈ items, item.accepts c = false) :
    ∀ {f : Fields} {s : List Char}, c ∈ s → ∀ m ∈ matchItems items f s, c ∈ m.2 := by
  induction items with
  | nil =>
    intro f s hs m hm
    rw [List.mem_singleton.mp hm]
    exact hs
  | cons item items ih =>
    intro f s hs m hm
    obtain ⟨k, hk, hrest⟩ := List.mem_flatMap.mp hm
    have hkept := matchItem_keeps (hitems item List.mem_cons_self) hs k hk
    exact ih (fun i hi => hitems i (List.mem_cons_of_mem _ hi)) hkept m hrest

/-- A text with a character that a format does not take is not of that format. -/
theorem strptime_eq_none {c : Char} {items : List Item}
    (hitems : items.all (fun item => !item.accepts c) = true) {s : List Char} (hs : c ∈ s) :
    strptime items s = none := by
  have hnone : ∀ item ∈ items, item.accepts c = false := by
    intro item hitem
    simpa using List.all_eq_true.mp hitems item hitem
  have hkeeps : ∀ m ∈ matchItems items {} s, c ∈ m.2 := matchItems_keeps hnone hs
  unfold strptime
  cases hmatch : matchItems items {} s with
  | nil => rfl
  | cons m ms =>
    have hin : c ∈ m.2 := hkeeps m (by rw [hmatch]; exact List.mem_cons_self)
    obtain ⟨f, rest⟩ := m
    cases rest with
    | nil => cases hin
    | cons d rest => rfl

/-! ## Dates read back -/

/-- What the first way to match an item leaves is matched next. -/
theorem head_matchItems {item : Item} {items : List Item} {f : Fields} {s : List Char}
    {m n : Fields × List Char} (hitem : (matchItem item f s).head? = some m)
    (hitems : (matchItems items m.1 m.2).head? = some n) :
    (matchItems (item :: items) f s).head? = some n := by
  obtain ⟨ms, hms⟩ := List.head?_eq_some_iff.mp hitem
  obtain ⟨ns, hns⟩ := List.head?_eq_some_iff.mp hitems
  show ((matchItem item f s).flatMap fun m => matchItems items m.1 m.2).head? = some n
  rw [hms, List.flatMap_cons, hns, List.cons_append, List.head?_cons]

theorem match_literal (c : Char) (f : Fields) (s : List Char) :
    (matchItem (.literal c) f (c :: s)).head? = some (f, s) := by
  show (if c.toLower = c.toLower then [(f, s)] else []).head? = _
  rw [if_pos rfl]
  rfl

theorem match_year {n : Nat} (hn : n ≤ 9999) (f : Fields) (s : List Char) :
    (matchItem dirY f (pad 4 n ++ s)).head? = some ({ f with year := n }, s) := by
  have hread : readNumber 0 [.digit, .digit, .digit, .digit] (pad 4 n ++ s) = some (n, s) := by
    simp [pad, readNumber, Matcher.read, List.range_succ, Decimals.digitValue_digitChar]
    omega
  simp [matchItem, dirY, hread]

theorem match_month {n : Nat} (hlow : 1 ≤ n) (hhigh : n ≤ 12) (f : Fields) (s : List Char) :
    (matchItem dirM f (pad 2 n ++ s)).head? = some ({ f with month := n }, s) := by
  interval_cases n <;> rfl

theorem match_day {n : Nat} (hlow : 1 ≤ n) (hhigh : n ≤ 31) (f : Fields) (s : List Char) :
    (matchItem dirD f (pad 2 n ++ s)).head? = some ({ f with day := n }, s) := by
  interval_cases n <;> rfl

theorem match_hour {n : Nat} (hn : n < 24) (f : Fields) (s : List Char) :
    (matchItem dirHour f (pad 2 n ++ s)).head? = some ({ f with hour := n }, s) := by
  interval_cases n <;> rfl

theorem match_minute {n : Nat} (hn : n < 60) (f : Fields) (s : List Char) :
    (matchItem dirMinute f (pad 2 n ++ s)).head? = some ({ f with minute := n }, s) := by
  interval_cases n <;> rfl

theorem match_second {n : Nat} (hn : n < 60) (f : Fields) (s : List Char) :
    (matchItem dirSecond f (pad 2 n ++ s)).head? = some ({ f with second := n }, s) := by
  interval_cases n <;> rfl

theorem daysIn_le (year month : Nat) : daysIn year month ≤ 31 := by
  unfold daysIn
  split
  · split <;> omega
  · split <;> omega

/-- `%Y-%m-%dT%H:%M:%S`. -/
def isoItems : List Item :=
  [dirY, .literal '-', dirM, .literal '-', dirD, .literal 'T', dirHour, .literal ':', dirMinute,
    .literal ':', dirSecond]

theorem strptime_isoformat (d : DateTime) : strptime isoItems (isoformat d) = some d := by
  obtain ⟨f, hvalid⟩ := d
  have hday : f.day ≤ 31 := hvalid.day.2.trans (daysIn_le _ _)
  obtain ⟨hhour, hminute, hsecond⟩ := hvalid.time
  have hmatch : (matchItems isoItems {} (isoformat ⟨f, hvalid⟩)).head? = some (f, []) := by
    refine head_matchItems (match_year hvalid.year.2 _ _) ?_
    refine head_matchItems (match_literal _ _ _) ?_
    refine head_matchItems (match_month hvalid.month.1 hvalid.month.2 _ _) ?_
    refine head_matchItems (match_literal _ _ _) ?_
    refine head_matchItems (match_day hvalid.day.1 hday _ _) ?_
    refine head_matchItems (match_literal _ _ _) ?_
    refine head_matchItems (match_hour hhour _ _) ?_
    refine head_matchItems (match_literal _ _ _) ?_
    refine head_matchItems (match_minute hminute _ _) ?_
    refine head_matchItems (match_literal _ _ _) ?_
    exact head_matchItems (match_second hsecond _ []) rfl
  unfold strptime
  rw [hmatch]
  exact dif_pos hvalid

end DateFormats
