import Mathlib.Data.List.DropRight
import Mathlib.Data.Nat.Digits.Lemmas

/-!
# Decimal numbers and how they are written

A decimal number by its digits and the place of its point, without zeros at either
end. It is written like a `float`: plainly, unless it is very small or very large,
where an exponent stands behind its digits. A reader that knows of no exponents
reads back what is written plainly (`read_repr`).
-/

namespace Decimals

abbrev Digit := Fin 10

/-- `± 0.d₁d₂…dₙ · 10 ^ point`. Zero has no digits. -/
@[ext]
structure Decimal where
  neg : Bool
  digits : List Digit
  point : Int
  head : digits.head? ≠ some 0
  last : digits.getLast? ≠ some 0
  zero : digits = [] → point = 0
deriving DecidableEq

/-! ## Normal forms -/

/-- The digits without the zeros at both ends. -/
def core (ds : List Digit) : List Digit :=
  (ds.dropWhile (· == 0)).rdropWhile (· == 0)

theorem head_core (ds : List Digit) : (core ds).head? ≠ some 0 := by
  intro h
  have hprefix : core ds <+: ds.dropWhile (· == 0) := List.rdropWhile_prefix _ _
  cases hdrop : ds.dropWhile (· == 0) with
  | nil =>
    rw [hdrop] at hprefix
    rw [List.prefix_nil.mp hprefix] at h
    cases h
  | cons d rest =>
    have hd : (d == 0) = false := by
      have hhead := List.head_dropWhile_not (p := (· == 0)) (l := ds) (by simp [hdrop])
      simpa [hdrop] using hhead
    rw [hdrop] at hprefix
    cases hcore : core ds with
    | nil =>
      rw [hcore] at h
      cases h
    | cons e more =>
      rw [hcore] at h hprefix
      obtain rfl : e = 0 := by simpa using h
      obtain ⟨rfl, -⟩ := List.cons_prefix_cons.mp hprefix
      cases hd

theorem last_core (ds : List Digit) : (core ds).getLast? ≠ some 0 := by
  intro h
  have hne : core ds ≠ [] := by
    intro hnil
    rw [hnil] at h
    cases h
  have hlast := List.rdropWhile_last_not (p := (· == 0)) (l := ds.dropWhile (· == 0)) hne
  rw [List.getLast?_eq_getLast_of_ne_nil hne] at h
  have hzero : (core ds).getLast hne = 0 := Option.some.inj h
  exact hlast (by simpa [core] using hzero)

/-- The number `± 0.d₁d₂… · 10 ^ point` of any digits. -/
def normalize (neg : Bool) (ds : List Digit) (point : Int) : Decimal where
  neg := neg
  digits := core ds
  point := if core ds = [] then 0 else point - (ds.takeWhile (· == 0)).length
  head := head_core ds
  last := last_core ds
  zero := fun h => if_pos h

theorem normalize_point_le (neg : Bool) (ds : List Digit) {point : Int} (hpoint : 0 ≤ point) :
    (normalize neg ds point).point ≤ point := by
  show (if core ds = [] then 0 else point - (ds.takeWhile (· == 0)).length) ≤ point
  split
  · exact hpoint
  · omega

def zero (neg : Bool) : Decimal :=
  normalize neg [] 0

theorem mem_zeros {n : Nat} : ∀ d ∈ List.replicate n (0 : Digit), (d == 0) = true := by
  intro d hd
  rw [List.eq_of_mem_replicate hd]
  rfl

theorem core_zeros (n : Nat) : core (List.replicate n 0) = [] := by
  unfold core
  rw [List.dropWhile_eq_nil_iff.mpr mem_zeros]
  rfl

theorem normalize_zeros (neg : Bool) (n : Nat) (point : Int) :
    normalize neg (List.replicate n 0) point = zero neg := by
  apply Decimal.ext
  · rfl
  · exact core_zeros n
  · exact if_pos (core_zeros n)

/-- Zeros at the ends change nothing but the place of the point. -/
theorem normalize_pad (v : Decimal) (hv : v.digits ≠ []) (a b : Nat) :
    normalize v.neg (List.replicate a 0 ++ v.digits ++ List.replicate b 0) (v.point + a) = v := by
  obtain ⟨d, ds, hdigits⟩ := List.exists_cons_of_ne_nil hv
  have hhead : (d == 0) = false := by
    have hne := v.head
    rw [hdigits, List.head?_cons] at hne
    exact beq_eq_false_iff_ne.mpr fun h => hne (congrArg some h)
  have hlast : ∀ h : v.digits ≠ [], ¬ ((v.digits.getLast h) == 0) = true := by
    intro h hzero
    have hne := v.last
    rw [List.getLast?_eq_getLast_of_ne_nil h] at hne
    exact hne (congrArg some (by simpa using hzero))
  have hfront : (List.replicate a 0 ++ v.digits ++ List.replicate b 0).dropWhile (· == 0) =
      v.digits ++ List.replicate b 0 := by
    rw [List.append_assoc, List.dropWhile_append_of_pos mem_zeros, hdigits, List.cons_append,
      List.dropWhile_cons_of_neg (by simpa using hhead)]
  have hback : (v.digits ++ List.replicate b 0).rdropWhile (· == 0) = v.digits := by
    unfold List.rdropWhile
    rw [List.reverse_append, List.reverse_replicate, List.dropWhile_append_of_pos mem_zeros]
    exact List.rdropWhile_eq_self_iff.mpr hlast
  have hcore : core (List.replicate a 0 ++ v.digits ++ List.replicate b 0) = v.digits := by
    unfold core
    rw [hfront, hback]
  have htake : ((List.replicate a 0 ++ v.digits ++ List.replicate b 0).takeWhile
      (· == 0)).length = a := by
    rw [List.append_assoc, List.takeWhile_append_of_pos mem_zeros, hdigits, List.cons_append,
      List.takeWhile_cons_of_neg (by simpa using hhead), List.append_nil, List.length_replicate]
  apply Decimal.ext
  · rfl
  · exact hcore
  · show (if core _ = [] then (0 : Int) else _) = v.point
    rw [hcore, if_neg hv, htake]
    omega

/-! ## Writing -/

def digitChar (d : Digit) : Char :=
  Nat.digitChar d.val

def zeros (n : Nat) : List Char :=
  List.replicate n '0'

/-- The digits of a number. -/
def digitsOf (n : Nat) : List Digit :=
  (Nat.digits 10 n).reverse.map (Fin.ofNat 10)

/-- At least two digits of an exponent. -/
def exponentDigits (n : Nat) : List Digit :=
  if n < 10 then [0, Fin.ofNat 10 n] else digitsOf n

/-- `d₁.d₂…e±x`. -/
def scientific (v : Decimal) : List Char :=
  let exponent := v.point - 1
  (v.digits.take 1).map digitChar ++
    (if v.digits.length ≤ 1 then [] else '.' :: (v.digits.drop 1).map digitChar) ++
    'e' :: (if exponent < 0 then '-' else '+') ::
      (exponentDigits exponent.natAbs).map digitChar

/-- The digits around a point. -/
def plain (v : Decimal) : List Char :=
  if v.point ≤ 0 then
    '0' :: '.' :: (zeros (-v.point).toNat ++ v.digits.map digitChar)
  else if v.digits.length ≤ v.point then
    v.digits.map digitChar ++ zeros (v.point - v.digits.length).toNat ++ ['.', '0']
  else
    (v.digits.take v.point.toNat).map digitChar ++
      '.' :: (v.digits.drop v.point.toNat).map digitChar

/-- Numbers that are written without an exponent. -/
def Plain (v : Decimal) : Prop :=
  -4 < v.point ∧ v.point ≤ 16

instance (v : Decimal) : Decidable (Plain v) :=
  inferInstanceAs (Decidable (_ ∧ _))

/-- `repr` of a `float`. -/
def repr (v : Decimal) : List Char :=
  (if v.neg then ['-'] else []) ++
    if v.digits = [] then ['0', '.', '0'] else if Plain v then plain v else scientific v

/-! ## Reading -/

/-- The code points of the zeros of the scripts, in each of which nine more digits
follow. -/
def scriptZeros : List Nat :=
  [0x30, 0x660, 0x6f0, 0x7c0, 0x966, 0x9e6, 0xa66, 0xae6, 0xb66, 0xbe6, 0xc66, 0xce6, 0xd66,
    0xde6, 0xe50, 0xed0, 0xf20, 0x1040, 0x1090, 0x17e0, 0x1810, 0x1946, 0x19d0, 0x1a80, 0x1a90,
    0x1b50, 0x1bb0, 0x1c40, 0x1c50, 0xa620, 0xa8d0, 0xa900, 0xa9d0, 0xa9f0, 0xaa50, 0xabf0,
    0xff10, 0x104a0, 0x10d30, 0x11066, 0x110f0, 0x11136, 0x111d0, 0x112f0, 0x11450, 0x114d0,
    0x11650, 0x116c0, 0x11730, 0x118e0, 0x11950, 0x11c50, 0x11d50, 0x11da0, 0x11f50, 0x16a60,
    0x16ac0, 0x16b50, 0x1d7ce, 0x1d7d8, 0x1d7e2, 0x1d7ec, 0x1d7f6, 0x1e140, 0x1e2f0, 0x1e4f0,
    0x1e950, 0x1fbf0]

/-- `unicodedata.decimal`, the digits that `\d` matches. -/
def digitValue (c : Char) : Option Digit :=
  (scriptZeros.find? fun z => z ≤ c.toNat && c.toNat < z + 10).map fun z =>
    Fin.ofNat 10 (c.toNat - z)

/-- `float` of digits, points and minus signs; `none` for a `ValueError`. -/
def read (s : List Char) : Option Decimal :=
  let neg := decide (s.head? = some '-')
  let s := if neg then s.drop 1 else s
  (s.takeWhile (· ≠ '.')).mapM digitValue |>.bind fun whole =>
    ((s.dropWhile (· ≠ '.')).drop 1).mapM digitValue |>.bind fun fraction =>
      if whole ++ fraction = [] then none
      else some (normalize neg (whole ++ fraction) whole.length)

theorem digitValue_digitChar (d : Digit) : digitValue (digitChar d) = some d := by
  revert d
  decide

theorem mapM_digitChar (ds : List Digit) : (ds.map digitChar).mapM digitValue = some ds := by
  induction ds with
  | nil => rfl
  | cons d ds ih =>
    rw [List.map_cons, List.mapM_cons, digitValue_digitChar, ih]
    rfl

theorem digitChar_ne (d : Digit) : digitChar d ≠ '.' ∧ digitChar d ≠ '-' := by
  revert d
  decide

theorem head_digits_ne (ds : List Digit) (rest : List Char) (hrest : rest.head? ≠ some '-') :
    (ds.map digitChar ++ rest).head? ≠ some '-' := by
  cases ds with
  | nil => exact hrest
  | cons d ds =>
    intro h
    exact (digitChar_ne d).2 (Option.some.inj h)

/-- What is read behind the sign. -/
theorem read_signed (neg : Bool) {body : List Char} (hbody : body.head? ≠ some '-') :
    read ((if neg then ['-'] else []) ++ body) =
      ((body.takeWhile (· ≠ '.')).mapM digitValue).bind fun whole =>
        (((body.dropWhile (· ≠ '.')).drop 1).mapM digitValue).bind fun fraction =>
          if whole ++ fraction = [] then none
          else some (normalize neg (whole ++ fraction) whole.length) := by
  cases neg with
  | true => rfl
  | false =>
    unfold read
    dsimp only
    rw [if_neg Bool.false_ne_true, List.nil_append, decide_eq_false hbody,
      if_neg Bool.false_ne_true]

theorem digits_before_point (ds : List Digit) : ∀ c ∈ ds.map digitChar, decide (c ≠ '.') = true := by
  intro c hc
  obtain ⟨d, -, rfl⟩ := List.mem_map.mp hc
  exact decide_eq_true (digitChar_ne d).1

/-- Digits around a point. -/
theorem read_point (neg : Bool) (ws fs : List Digit) :
    read ((if neg then ['-'] else []) ++ (ws.map digitChar ++ '.' :: fs.map digitChar)) =
      if ws ++ fs = [] then none else some (normalize neg (ws ++ fs) ws.length) := by
  rw [read_signed neg (head_digits_ne ws _ (by simp)),
    List.takeWhile_append_of_pos (digits_before_point ws),
    List.dropWhile_append_of_pos (digits_before_point ws),
    List.takeWhile_cons_of_neg (by simp), List.dropWhile_cons_of_neg (by simp), List.append_nil,
    mapM_digitChar, List.drop_one, List.tail_cons, mapM_digitChar]
  rfl

/-- Digits without a point. -/
theorem read_whole (neg : Bool) (ws : List Digit) :
    read ((if neg then ['-'] else []) ++ ws.map digitChar) =
      if ws = [] then none else some (normalize neg ws ws.length) := by
  have hhead := head_digits_ne ws [] (by simp)
  rw [List.append_nil] at hhead
  rw [read_signed neg hhead, List.takeWhile_eq_self_iff.mpr (digits_before_point ws),
    List.dropWhile_eq_nil_iff.mpr (digits_before_point ws), mapM_digitChar]
  show (if ws ++ [] = [] then none else some (normalize neg (ws ++ []) ws.length)) = _
  rw [List.append_nil]

theorem mapM_none {l : List Char} {c : Char} (hc : c ∈ l) (hnone : digitValue c = none) :
    l.mapM digitValue = none := by
  induction l with
  | nil => cases hc
  | cons a l ih =>
    rw [List.mapM_cons]
    rcases List.mem_cons.mp hc with rfl | hc
    · rw [hnone]
      rfl
    · rw [ih hc]
      cases digitValue a <;> rfl

/-- A second minus sign is refused. -/
theorem read_minus (neg : Bool) {body : List Char} (hhead : body.head? ≠ some '-')
    (hminus : '-' ∈ body) : read ((if neg then ['-'] else []) ++ body) = none := by
  have hnone : digitValue '-' = none := by decide
  rw [read_signed neg hhead]
  have hsplit := List.takeWhile_append_dropWhile (p := fun c => decide (c ≠ '.')) (l := body)
  rw [← hsplit] at hminus
  rcases List.mem_append.mp hminus with hwhole | hfraction
  · rw [mapM_none hwhole hnone]
    rfl
  · have hdrop : '-' ∈ (body.dropWhile (· ≠ '.')).drop 1 := by
      cases hrest : body.dropWhile (· ≠ '.') with
      | nil =>
        rw [hrest] at hfraction
        cases hfraction
      | cons c rest =>
        have hne : body.dropWhile (fun c => decide (c ≠ '.')) ≠ [] := by
          rw [hrest]
          exact List.cons_ne_nil c rest
        have hpoint : c = '.' := by
          have hhead := List.head_dropWhile_not (fun c => decide (c ≠ '.')) hne
          simp only [hrest, List.head_cons] at hhead
          simpa using hhead
        rw [hrest] at hfraction
        rcases List.mem_cons.mp hfraction with hminus | hin
        · rw [hpoint] at hminus
          exact absurd hminus (by decide)
        · exact hin
    rw [mapM_none hdrop hnone]
    cases (body.takeWhile (· ≠ '.')).mapM digitValue <;> rfl

/-! ## Reading back -/

theorem zeros_eq (n : Nat) : zeros n = (List.replicate n (0 : Digit)).map digitChar := by
  rw [List.map_replicate]
  rfl

theorem eq_zero {v : Decimal} (h : v.digits = []) : v = zero v.neg := by
  apply Decimal.ext
  · rfl
  · exact h
  · exact v.zero h

theorem read_plain {v : Decimal} (hv : v.digits ≠ []) :
    read ((if v.neg then ['-'] else []) ++ plain v) = some v := by
  unfold plain
  by_cases hsmall : v.point ≤ 0
  · -- zeros between the point and the digits
    have hbody : '0' :: '.' :: (zeros (-v.point).toNat ++ v.digits.map digitChar) =
        [(0 : Digit)].map digitChar ++
          '.' :: (List.replicate (-v.point).toNat 0 ++ v.digits).map digitChar := by
      rw [List.map_append, ← zeros_eq]
      rfl
    have hpad := normalize_pad v hv ((-v.point).toNat + 1) 0
    rw [List.replicate_zero, List.append_nil, List.replicate_succ] at hpad
    rw [if_pos hsmall, hbody, read_point, if_neg (by simp)]
    refine congrArg some (Eq.trans ?_ hpad)
    congr 1
    simp only [List.length_singleton, Nat.cast_one, Nat.cast_add]
    omega
  · rw [if_neg hsmall]
    by_cases hwhole : (v.digits.length : Int) ≤ v.point
    · -- zeros between the digits and the point
      have hbody : v.digits.map digitChar ++ zeros (v.point - v.digits.length).toNat ++ ['.', '0'] =
          (v.digits ++ List.replicate (v.point - v.digits.length).toNat 0).map digitChar ++
            '.' :: [(0 : Digit)].map digitChar := by
        rw [List.map_append, ← zeros_eq]
        rfl
      have hpad := normalize_pad v hv 0 ((v.point - v.digits.length).toNat + 1)
      rw [List.replicate_zero, List.nil_append, List.replicate_succ'] at hpad
      rw [if_pos hwhole, hbody, read_point, if_neg (by simp)]
      refine congrArg some (Eq.trans ?_ hpad)
      rw [List.append_assoc]
      congr 1
      rw [List.length_append, List.length_replicate]
      omega
    · have hpad := normalize_pad v hv 0 0
      rw [List.replicate_zero, List.nil_append, List.append_nil] at hpad
      rw [if_neg hwhole, read_point, List.take_append_drop, if_neg hv]
      refine congrArg some (Eq.trans ?_ hpad)
      congr 1
      rw [List.length_take]
      omega

/-- A number that is written plainly is read back. -/
theorem read_repr {v : Decimal} (h : v.digits = [] ∨ Plain v) : read (repr v) = some v := by
  unfold repr
  by_cases hzero : v.digits = []
  · rw [if_pos hzero]
    have hne : ([0] ++ [0] : List Digit) ≠ [] := List.cons_ne_nil _ _
    have hread := (read_point v.neg [0] [0]).trans (if_neg hne)
    exact hread.trans (congrArg some ((normalize_zeros v.neg 2 _).trans (eq_zero hzero).symm))
  · rw [if_neg hzero, if_pos (h.resolve_left hzero)]
    exact read_plain hzero

/-! ## Exponents -/

/-- The number that is written with an exponent, when the `e` and the plus sign are
taken out of it. -/
def mangled (v : Decimal) : List Char :=
  let exponent := v.point - 1
  (v.digits.take 1).map digitChar ++
    (if v.digits.length ≤ 1 then [] else '.' :: (v.digits.drop 1).map digitChar) ++
    (if exponent < 0 then ['-'] else []) ++ (exponentDigits exponent.natAbs).map digitChar

theorem add_lt_pow {k : Nat} (hk : 2 ≤ k) : k + 14 < 10 ^ k := by
  induction k, hk using Nat.le_induction with
  | base => norm_num
  | succ k _ ih =>
    rw [pow_succ]
    omega

theorem exponentDigits_length {n : Nat} (hn : 16 ≤ n) : (exponentDigits n).length + 14 ≤ n := by
  have hlength : (Nat.digits 10 n).length ≤ n - 14 := by
    rw [Nat.digits_length_le_iff (by norm_num)]
    have hpow := add_lt_pow (k := n - 14) (by omega)
    omega
  rw [exponentDigits, if_neg (by omega), digitsOf, List.length_map, List.length_reverse]
  omega

/-- Very small numbers are refused. -/
theorem read_mangled_small {v : Decimal} (hv : v.digits ≠ []) (hsmall : v.point ≤ 0) :
    read ((if v.neg then ['-'] else []) ++ mangled v) = none := by
  obtain ⟨d, ds, hdigits⟩ := List.exists_cons_of_ne_nil hv
  apply read_minus
  · unfold mangled
    rw [hdigits]
    exact fun h => (digitChar_ne d).2 (Option.some.inj h)
  · unfold mangled
    dsimp only
    rw [if_pos (by omega : v.point - 1 < 0)]
    simp

/-- Of very large numbers a much smaller one is read, whose digits are all before the
point or start there. -/
theorem read_mangled_large {v : Decimal} (hv : v.digits ≠ []) (hlarge : 16 < v.point) :
    ∃ w, read ((if v.neg then ['-'] else []) ++ mangled v) = some w ∧ w.point + 1 < v.point := by
  obtain ⟨d, ds, hdigits⟩ := List.exists_cons_of_ne_nil hv
  have hexponent : ¬ v.point - 1 < 0 := by omega
  have hlength : (exponentDigits (v.point - 1).natAbs).length + 14 ≤ (v.point - 1).natAbs :=
    exponentDigits_length (by omega)
  unfold mangled
  dsimp only
  rw [if_neg hexponent, hdigits, List.append_nil]
  generalize exponentDigits (v.point - 1).natAbs = es at hlength ⊢
  cases ds with
  | nil =>
    refine ⟨normalize v.neg (d :: es) (d :: es).length, ?_, ?_⟩
    · exact (read_whole v.neg (d :: es)).trans (if_neg (List.cons_ne_nil _ _))
    · have hle := normalize_point_le v.neg (d :: es) (Int.natCast_nonneg (d :: es).length)
      rw [List.length_cons] at hle ⊢
      omega
  | cons e ds =>
    refine ⟨normalize v.neg ([d] ++ (e :: ds ++ es)) 1, ?_, ?_⟩
    · have hread := (read_point v.neg [d] (e :: ds ++ es)).trans (if_neg (List.cons_ne_nil _ _))
      rw [List.map_append] at hread
      exact hread
    · have hle := normalize_point_le v.neg ([d] ++ (e :: ds ++ es)) (by norm_num : (0 : Int) ≤ 1)
      omega

/-! ## Rounding -/

/-- The number of some digits. -/
def ofDigits (ds : List Digit) : Nat :=
  Nat.ofDigits 10 (ds.reverse.map Fin.val)

/-- Whether what is behind the kept digits rounds them up. A number half way goes
where the binary number that stands for it is nearer to, which `up` tells. -/
def carry (up : Decimal → Bool) (v : Decimal) (kept : Nat) : Nat :=
  match v.digits.drop kept with
  | [] => 0
  | d :: rest => if 5 < d.val ∨ d.val = 5 ∧ (rest ≠ [] ∨ up v = true) then 1 else 0

/-- `round(v, places)`. -/
def roundPlaces (up : Decimal → Bool) (places : Nat) (v : Decimal) : Decimal :=
  if v.digits.length ≤ v.point + places then v
  else if v.point + places < 0 then zero v.neg
  else
    let kept := (v.point + places).toNat
    let n := ofDigits (v.digits.take kept) + carry up v kept
    normalize v.neg (digitsOf n) ((digitsOf n).length - places)

theorem normalize_fits (neg : Bool) (ds : List Digit) (places : Nat) :
    ((normalize neg ds (ds.length - places)).digits.length : Int) ≤
      (normalize neg ds (ds.length - places)).point + places := by
  show ((core ds).length : Int) ≤
    (if core ds = [] then 0 else (ds.length : Int) - places - (ds.takeWhile (· == 0)).length) +
      places
  split
  · next hcore =>
    rw [hcore, List.length_nil]
    omega
  · have hsplit := congrArg List.length (List.takeWhile_append_dropWhile (p := (· == 0)) (l := ds))
    rw [List.length_append] at hsplit
    have hcore : (core ds).length ≤ (ds.dropWhile (· == 0)).length :=
      (List.rdropWhile_prefix _ _).length_le
    omega

/-- No more places are left than are asked for. -/
theorem roundPlaces_fits (up : Decimal → Bool) (places : Nat) (v : Decimal) :
    ((roundPlaces up places v).digits.length : Int) ≤ (roundPlaces up places v).point + places := by
  unfold roundPlaces
  split
  · next hfits => exact hfits
  · split
    · show ((0 : Nat) : Int) ≤ 0 + places
      omega
    · exact normalize_fits _ _ _

theorem roundPlaces_of_fits (up : Decimal → Bool) {places : Nat} {v : Decimal}
    (h : (v.digits.length : Int) ≤ v.point + places) : roundPlaces up places v = v :=
  if_pos h

theorem ofDigits_lt (ds : List Digit) : ofDigits ds < 10 ^ ds.length := by
  have hlt := Nat.ofDigits_lt_base_pow_length (b := 10) (l := ds.reverse.map Fin.val)
    (by norm_num) (by
      intro d hd
      obtain ⟨e, -, rfl⟩ := List.mem_map.mp hd
      exact e.isLt)
  rwa [List.length_map, List.length_reverse] at hlt

/-- A carry adds one digit in front at most. -/
theorem roundPlaces_point_le (up : Decimal → Bool) {places : Nat} {v : Decimal}
    (h : ¬ (v.digits.length : Int) ≤ v.point + places) :
    (roundPlaces up places v).point ≤ max 0 (v.point + 1) := by
  unfold roundPlaces
  rw [if_neg h]
  split
  · exact le_max_left 0 _
  · next hkept =>
    dsimp only
    generalize hm : (v.point + places).toNat = m
    have hcarry : carry up v m ≤ 1 := by
      unfold carry
      split
      · exact Nat.zero_le 1
      · split
        · exact Nat.le_refl 1
        · exact Nat.zero_le 1
    have hlt := ofDigits_lt (v.digits.take m)
    have htake : (v.digits.take m).length ≤ m := by
      rw [List.length_take]
      exact Nat.min_le_left m _
    have hpow : 10 ^ (v.digits.take m).length ≤ 10 ^ m := Nat.pow_le_pow_right (by norm_num) htake
    have hlength : (digitsOf (ofDigits (v.digits.take m) + carry up v m)).length ≤ m + 1 := by
      rw [digitsOf, List.length_map, List.length_reverse,
        Nat.digits_length_le_iff (by norm_num), pow_succ]
      omega
    generalize digitsOf (ofDigits (v.digits.take m) + carry up v m) = ds at hlength ⊢
    show (if core ds = [] then 0 else (ds.length : Int) - places - (ds.takeWhile (· == 0)).length) ≤
      max 0 (v.point + 1)
    split
    · exact le_max_left 0 _
    · omega

end Decimals
