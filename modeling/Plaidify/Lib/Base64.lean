import Mathlib.Data.List.Basic
import Mathlib.Tactic.IntervalCases

/-!
# Bytes, UTF-8 and base64

UTF-8 and the URL-safe base64 of Python's `base64` module. The reader is the
lenient one of `binascii.a2b_base64`: it takes both alphabets, skips every
other character, and stops at the padding that closes a group.
-/

/-- A byte string. -/
abbrev Bytes := List UInt8

namespace Bytes

/-! ## UTF-8 -/

/-- `text.encode("utf-8")`. -/
def utf8 (text : String) : Bytes :=
  text.toByteArray.data.toList

/-- `bytes.decode("utf-8")`. -/
def utf8? (bytes : Bytes) : Option String :=
  String.fromUTF8? ⟨bytes.toArray⟩

theorem utf8?_utf8 (text : String) : utf8? (utf8 text) = some text := by
  rw [utf8?, utf8, Array.toArray_toList]
  show String.fromUTF8? text.toByteArray = some text
  rw [String.fromUTF8?, dif_pos text.isValidUTF8]
  rfl

/-! ## Writing base64 -/

/-- The character of six bits. -/
def letter (n : Nat) : Char :=
  if n < 26 then Char.ofNat (65 + n)
  else if n < 52 then Char.ofNat (97 + (n - 26))
  else if n < 62 then Char.ofNat (48 + (n - 52))
  else if n = 62 then '-'
  else '_'

/-- Three bytes are four characters; the last group is padded. -/
def encodeChars : Bytes → List Char
  | [] => []
  | [a] => [letter (a.toNat / 4), letter (a.toNat % 4 * 16), '=', '=']
  | [a, b] =>
      [letter (a.toNat / 4), letter (a.toNat % 4 * 16 + b.toNat / 16),
        letter (b.toNat % 16 * 4), '=']
  | a :: b :: c :: bytes =>
      letter (a.toNat / 4) :: letter (a.toNat % 4 * 16 + b.toNat / 16) ::
        letter (b.toNat % 16 * 4 + c.toNat / 64) :: letter (c.toNat % 64) :: encodeChars bytes

/-- `base64.urlsafe_b64encode(bytes).decode("ascii")`. -/
def urlsafeB64encode (bytes : Bytes) : String :=
  String.ofList (encodeChars bytes)

/-! ## Reading base64 -/

/-- The six bits of a character of either alphabet. -/
def sextet? (c : Char) : Option Nat :=
  let n := c.toNat
  if 65 ≤ n ∧ n ≤ 90 then some (n - 65)
  else if 97 ≤ n ∧ n ≤ 122 then some (n - 97 + 26)
  else if 48 ≤ n ∧ n ≤ 57 then some (n - 48 + 52)
  else if c = '-' ∨ c = '+' then some 62
  else if c = '_' ∨ c = '/' then some 63
  else none

/-- The loop of `binascii.a2b_base64`: the place in the group of four, the
padding seen, and the bits that are not written yet. -/
def decodeChars : Nat → Nat → Nat → List Char → Option Bytes
  | quadPos, _, _, [] => if quadPos = 0 then some [] else none
  | quadPos, pads, left, c :: cs =>
      if c = '=' then
        if quadPos < 2 then decodeChars quadPos pads left cs
        else if 4 ≤ quadPos + (pads + 1) then some []
        else decodeChars quadPos (pads + 1) left cs
      else
        match sextet? c with
        | none => decodeChars quadPos pads left cs
        | some bits =>
            match quadPos with
            | 0 => decodeChars 1 0 bits cs
            | 1 => (decodeChars 2 0 (bits % 16) cs).map (UInt8.ofNat (left * 4 + bits / 16) :: ·)
            | 2 => (decodeChars 3 0 (bits % 4) cs).map (UInt8.ofNat (left * 16 + bits / 4) :: ·)
            | _ => (decodeChars 0 0 0 cs).map (UInt8.ofNat (left * 64 + bits) :: ·)

/-- `base64.urlsafe_b64decode(text)`; text beyond ASCII raises. -/
def urlsafeB64decode (text : String) : Option Bytes :=
  if text.toList.all (·.toNat < 128) then decodeChars 0 0 0 text.toList else none

/-! ## What is written is read back -/

theorem letter_ne_pad {n : Nat} (h : n < 64) : letter n ≠ '=' := by
  interval_cases n <;> decide

theorem sextet?_letter {n : Nat} (h : n < 64) : sextet? (letter n) = some n := by
  interval_cases n <;> decide

theorem letter_ascii {n : Nat} (h : n < 64) : (letter n).toNat < 128 := by
  interval_cases n <;> decide

theorem decodeChars_first {n : Nat} (h : n < 64) (pads left : Nat) (cs : List Char) :
    decodeChars 0 pads left (letter n :: cs) = decodeChars 1 0 n cs := by
  rw [decodeChars, if_neg (letter_ne_pad h), sextet?_letter h]
  rfl

theorem decodeChars_second {n : Nat} (h : n < 64) (pads left : Nat) (cs : List Char) :
    decodeChars 1 pads left (letter n :: cs) =
      (decodeChars 2 0 (n % 16) cs).map (UInt8.ofNat (left * 4 + n / 16) :: ·) := by
  rw [decodeChars, if_neg (letter_ne_pad h), sextet?_letter h]
  rfl

theorem decodeChars_third {n : Nat} (h : n < 64) (pads left : Nat) (cs : List Char) :
    decodeChars 2 pads left (letter n :: cs) =
      (decodeChars 3 0 (n % 4) cs).map (UInt8.ofNat (left * 16 + n / 4) :: ·) := by
  rw [decodeChars, if_neg (letter_ne_pad h), sextet?_letter h]
  rfl

theorem decodeChars_fourth {n : Nat} (h : n < 64) (pads left : Nat) (cs : List Char) :
    decodeChars 3 pads left (letter n :: cs) =
      (decodeChars 0 0 0 cs).map (UInt8.ofNat (left * 64 + n) :: ·) := by
  rw [decodeChars, if_neg (letter_ne_pad h), sextet?_letter h]
  rfl

theorem ofNat_eq {a : UInt8} {n : Nat} (h : n = a.toNat) : UInt8.ofNat n = a := by
  rw [h, UInt8.ofNat_toNat]

theorem decodeChars_encodeChars (bytes : Bytes) :
    decodeChars 0 0 0 (encodeChars bytes) = some bytes := by
  induction bytes using encodeChars.induct with
  | case1 => rfl
  | case2 a =>
      have ha : a.toNat < 256 := a.toNat_lt
      have hfirst : UInt8.ofNat (a.toNat / 4 * 4 + a.toNat % 4 * 16 / 16) = a :=
        ofNat_eq (by omega)
      simp only [encodeChars]
      rw [decodeChars_first (by omega), decodeChars_second (by omega), hfirst]
      rfl
  | case3 a b =>
      have ha : a.toNat < 256 := a.toNat_lt
      have hb : b.toNat < 256 := b.toNat_lt
      have hfirst : UInt8.ofNat (a.toNat / 4 * 4 +
          (a.toNat % 4 * 16 + b.toNat / 16) / 16) = a := ofNat_eq (by omega)
      have hsecond : UInt8.ofNat ((a.toNat % 4 * 16 + b.toNat / 16) % 16 * 16 +
          b.toNat % 16 * 4 / 4) = b := ofNat_eq (by omega)
      simp only [encodeChars]
      rw [decodeChars_first (by omega), decodeChars_second (by omega),
        decodeChars_third (by omega), hfirst, hsecond]
      rfl
  | case4 a b c bytes ih =>
      have ha : a.toNat < 256 := a.toNat_lt
      have hb : b.toNat < 256 := b.toNat_lt
      have hc : c.toNat < 256 := c.toNat_lt
      have hfirst : UInt8.ofNat (a.toNat / 4 * 4 +
          (a.toNat % 4 * 16 + b.toNat / 16) / 16) = a := ofNat_eq (by omega)
      have hsecond : UInt8.ofNat ((a.toNat % 4 * 16 + b.toNat / 16) % 16 * 16 +
          (b.toNat % 16 * 4 + c.toNat / 64) / 4) = b := ofNat_eq (by omega)
      have hthird : UInt8.ofNat ((b.toNat % 16 * 4 + c.toNat / 64) % 4 * 64 +
          c.toNat % 64) = c := ofNat_eq (by omega)
      simp only [encodeChars]
      rw [decodeChars_first (by omega), decodeChars_second (by omega),
        decodeChars_third (by omega), decodeChars_fourth (by omega), hfirst, hsecond, hthird, ih]
      rfl

theorem encodeChars_ascii (bytes : Bytes) : ∀ c ∈ encodeChars bytes, c.toNat < 128 := by
  induction bytes using encodeChars.induct with
  | case1 => simp [encodeChars]
  | case2 a =>
      have ha : a.toNat < 256 := a.toNat_lt
      have h₁ := letter_ascii (n := a.toNat / 4) (by omega)
      have h₂ := letter_ascii (n := a.toNat % 4 * 16) (by omega)
      simp [encodeChars, h₁, h₂]
  | case3 a b =>
      have ha : a.toNat < 256 := a.toNat_lt
      have hb : b.toNat < 256 := b.toNat_lt
      have h₁ := letter_ascii (n := a.toNat / 4) (by omega)
      have h₂ := letter_ascii (n := a.toNat % 4 * 16 + b.toNat / 16) (by omega)
      have h₃ := letter_ascii (n := b.toNat % 16 * 4) (by omega)
      simp [encodeChars, h₁, h₂, h₃]
  | case4 a b c bytes ih =>
      have ha : a.toNat < 256 := a.toNat_lt
      have hb : b.toNat < 256 := b.toNat_lt
      have hc : c.toNat < 256 := c.toNat_lt
      have h₁ := letter_ascii (n := a.toNat / 4) (by omega)
      have h₂ := letter_ascii (n := a.toNat % 4 * 16 + b.toNat / 16) (by omega)
      have h₃ := letter_ascii (n := b.toNat % 16 * 4 + c.toNat / 64) (by omega)
      have h₄ := letter_ascii (n := c.toNat % 64) (by omega)
      simpa [encodeChars, h₁, h₂, h₃, h₄] using ih

/-- Base64 round trip. -/
theorem urlsafeB64decode_urlsafeB64encode (bytes : Bytes) :
    urlsafeB64decode (urlsafeB64encode bytes) = some bytes := by
  have hascii : (urlsafeB64encode bytes).toList.all (·.toNat < 128) = true := by
    simpa [urlsafeB64encode] using encodeChars_ascii bytes
  rw [urlsafeB64decode, if_pos hascii, urlsafeB64encode, String.toList_ofList]
  exact decodeChars_encodeChars bytes

/-- Base64 does not shorten. -/
theorem length_le_urlsafeB64encode (bytes : Bytes) :
    bytes.length ≤ (urlsafeB64encode bytes).length := by
  rw [urlsafeB64encode, String.length_ofList]
  induction bytes using encodeChars.induct with
  | case1 => simp [encodeChars]
  | case2 a => simp [encodeChars]
  | case3 a b => simp [encodeChars]
  | case4 a b c bytes ih =>
      simp only [encodeChars, List.length_cons]
      omega

/-- Every character takes at least one byte. -/
theorem length_le_utf8 (text : String) : text.length ≤ (utf8 text).length := by
  have hsize : ∀ cs : List Char, cs.length ≤ (cs.flatMap String.utf8EncodeChar).length := by
    intro cs
    induction cs with
    | nil => simp
    | cons c cs ih =>
        have hpos := c.utf8Size_pos
        rw [List.flatMap_cons, List.length_append, String.length_utf8EncodeChar, List.length_cons]
        omega
  have hbytes : utf8 text = text.toList.flatMap String.utf8EncodeChar := by
    rw [utf8, ← String.utf8Encode_toList, List.utf8Encode, List.data_toByteArray]
  rw [hbytes, ← String.length_toList]
  exact hsize text.toList

end Bytes
