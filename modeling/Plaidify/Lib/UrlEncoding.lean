import Plaidify.Lib.Base64
import Plaidify.Lib.Separated

/-!
# Queries of URLs

The percent-encodings of the URL standard that write a text into a query, and the parser
of `application/x-www-form-urlencoded` that reads it. A writer is a function on the
characters. Whichever of them writes the names and values of a list, and whatever the URL
parser encodes once more, the same list is read.
-/

namespace UrlEncoding

/-! ## Writing -/

/-- A digit of a percent-encoded byte. -/
def hexDigit (n : Nat) : Char :=
  if n < 10 then Char.ofNat (0x30 + n) else Char.ofNat (0x41 + (n - 10))

def percentByte (b : UInt8) : List Char :=
  ['%', hexDigit (b.toNat / 16), hexDigit (b.toNat % 16)]

/-- The bytes of a character, percent-encoded. -/
def percentChar (c : Char) : List Char :=
  (String.utf8EncodeChar c).flatMap percentByte

/-- Characters are kept or percent-encoded. -/
def keeping (kept : Char → Bool) (c : Char) : List Char :=
  if kept c then [c] else percentChar c

/-- `encodeURIComponent`, on a character. -/
def componentChar : Char → List Char :=
  keeping fun c => c.isAlphanum || "-_.!~*'()".toList.contains c

/-- The serializer of `URLSearchParams`, on a character. -/
def formChar (c : Char) : List Char :=
  if c = ' ' then ['+'] else keeping (fun c => c.isAlphanum || "*-._".toList.contains c) c

/-- What the URL parser keeps of the query of a special URL. -/
def isQueryChar (c : Char) : Bool :=
  0x20 < c.toNat && c.toNat < 0x7F && !"\"#<>'".toList.contains c

def writeText (write : Char → List Char) (text : String) : List Char :=
  text.toList.flatMap write

/-- A list of names and values, as a query. -/
def writeQuery (write : Char → List Char) (pairs : List (String × String)) : List Char :=
  ['&'].intercalate (pairs.map fun p => writeText write p.1 ++ '=' :: writeText write p.2)

/-! ## Reading -/

/-- A digit of a percent-encoded byte, of either case. -/
def hexValue? (b : UInt8) : Option Nat :=
  if 0x30 ≤ b.toNat ∧ b.toNat ≤ 0x39 then some (b.toNat - 0x30)
  else if 0x41 ≤ b.toNat ∧ b.toNat ≤ 0x46 then some (b.toNat - 0x41 + 10)
  else if 0x61 ≤ b.toNat ∧ b.toNat ≤ 0x66 then some (b.toNat - 0x61 + 10)
  else none

/-- Bytes with the percent-encoded ones decoded; a percent sign without two digits stays. -/
def percentDecode : Bytes → Bytes
  | [] => []
  | [b] => [b]
  | [b, c] => [b, c]
  | b :: c :: d :: bytes =>
      if b = 0x25 then
        match hexValue? c, hexValue? d with
        | some m, some n => UInt8.ofNat (16 * m + n) :: percentDecode bytes
        | _, _ => b :: percentDecode (c :: d :: bytes)
      else b :: percentDecode (c :: d :: bytes)

/-- The bytes of a text of a query; a plus sign stands for a blank. -/
def bytesOf (cs : List Char) : Bytes :=
  cs.flatMap fun c => String.utf8EncodeChar (if c = '+' then ' ' else c)

section

variable (replaced : Bytes → String)

/-- A name or a value of a query. Bytes that are no UTF-8 are replaced. -/
def readText (cs : List Char) : String :=
  let bytes := percentDecode (bytesOf cs)
  (Bytes.utf8? bytes).getD (replaced bytes)

/-- The parser of `URLSearchParams`. -/
def readQuery (query : List Char) : List (String × String) :=
  ((query.splitOn '&').filter fun piece => !piece.isEmpty).map fun piece =>
    (readText replaced (piece.takeWhile (· != '=')),
      readText replaced ((piece.dropWhile (· != '=')).drop 1))

end

/-! ## Round trips -/

/-- A writer percent-encodes a character, writes a blank as a plus sign, or keeps an ASCII
character that means nothing in a query. -/
def Faithful (write : Char → List Char) : Prop :=
  ∀ c, write c = percentChar c ∨ (write c = ['+'] ∧ c = ' ') ∨
    (write c = [c] ∧ c.toNat < 128 ∧ c ≠ '%' ∧ c ≠ '+' ∧ c ≠ '&' ∧ c ≠ '=' ∧ c ≠ '#')

theorem hexDigit_cases {n : Nat} (hn : n < 16) :
    (hexDigit n).toNat < 128 ∧ hexDigit n ≠ '%' ∧ hexDigit n ≠ '+' ∧ hexDigit n ≠ '&' ∧
      hexDigit n ≠ '=' ∧ isQueryChar (hexDigit n) = true ∧
      hexValue? (UInt8.ofNat (hexDigit n).toNat) = some n := by
  interval_cases n <;> decide

theorem utf8EncodeChar_ascii {c : Char} (hc : c.toNat < 128) :
    String.utf8EncodeChar c = [UInt8.ofNat c.toNat] := by
  unfold String.utf8EncodeChar
  refine if_pos ?_
  show c.toNat ≤ 127
  omega

theorem utf8_eq (text : String) : Bytes.utf8 text = text.toList.flatMap String.utf8EncodeChar := by
  rw [Bytes.utf8, ← String.utf8Encode_toList, List.utf8Encode, List.data_toByteArray]

theorem bytesOf_append (cs ds : List Char) : bytesOf (cs ++ ds) = bytesOf cs ++ bytesOf ds :=
  List.flatMap_append

theorem bytesOf_ascii {c : Char} (hc : c.toNat < 128) (hplus : c ≠ '+') :
    bytesOf [c] = [UInt8.ofNat c.toNat] := by
  rw [bytesOf, List.flatMap_singleton, if_neg hplus, utf8EncodeChar_ascii hc]

theorem percentDecode_cons {b : UInt8} (hb : b ≠ 0x25) (bytes : Bytes) :
    percentDecode (b :: bytes) = b :: percentDecode bytes := by
  match bytes with
  | [] => rfl
  | [c] => rfl
  | c :: d :: bytes => rw [percentDecode, if_neg hb]

theorem bytesOf_percentByte (b : UInt8) :
    bytesOf (percentByte b) = [0x25, UInt8.ofNat (hexDigit (b.toNat / 16)).toNat,
      UInt8.ofNat (hexDigit (b.toNat % 16)).toNat] := by
  have hb : b.toNat < 256 := b.toNat_lt
  obtain ⟨hhigh, -, hhigh', -⟩ := hexDigit_cases (show b.toNat / 16 < 16 by omega)
  obtain ⟨hlow, -, hlow', -⟩ := hexDigit_cases (show b.toNat % 16 < 16 by omega)
  have hsplit : percentByte b = ['%'] ++ [hexDigit (b.toNat / 16)] ++ [hexDigit (b.toNat % 16)] :=
    rfl
  rw [hsplit, bytesOf_append, bytesOf_append, bytesOf_ascii hhigh hhigh', bytesOf_ascii hlow hlow',
    bytesOf_ascii (by decide) (by decide)]
  rfl

/-- A byte that was percent-encoded is read back. -/
theorem percentDecode_percentByte (b : UInt8) (bytes : Bytes) :
    percentDecode (bytesOf (percentByte b) ++ bytes) = b :: percentDecode bytes := by
  have hb : b.toNat < 256 := b.toNat_lt
  obtain ⟨-, -, -, -, -, -, hhigh⟩ := hexDigit_cases (show b.toNat / 16 < 16 by omega)
  obtain ⟨-, -, -, -, -, -, hlow⟩ := hexDigit_cases (show b.toNat % 16 < 16 by omega)
  have hsum : 16 * (b.toNat / 16) + b.toNat % 16 = b.toNat := Nat.div_add_mod _ _
  rw [bytesOf_percentByte]
  show percentDecode (0x25 :: _ :: _ :: bytes) = _
  rw [percentDecode, if_pos rfl, hhigh, hlow]
  show UInt8.ofNat (16 * (b.toNat / 16) + b.toNat % 16) :: percentDecode bytes = _
  rw [hsum, UInt8.ofNat_toNat]

theorem percentDecode_percentBytes (bs bytes : Bytes) :
    percentDecode (bytesOf (bs.flatMap percentByte) ++ bytes) = bs ++ percentDecode bytes := by
  induction bs with
  | nil => rfl
  | cons b bs ih =>
    rw [List.flatMap_cons, bytesOf_append, List.append_assoc, percentDecode_percentByte, ih,
      List.cons_append]

variable {write : Char → List Char}

/-- A character is read back as its bytes. -/
theorem percentDecode_write (hwrite : Faithful write) (c : Char) (bytes : Bytes) :
    percentDecode (bytesOf (write c) ++ bytes) =
      String.utf8EncodeChar c ++ percentDecode bytes := by
  rcases hwrite c with hpercent | ⟨hplus, rfl⟩ | ⟨hkept, hascii, hne, hne', -⟩
  · rw [hpercent]
    exact percentDecode_percentBytes _ _
  · rw [hplus]
    exact percentDecode_cons (by decide) _
  · rw [hkept, bytesOf_ascii hascii hne', utf8EncodeChar_ascii hascii]
    refine percentDecode_cons ?_ _
    intro hbyte
    have hvalue : c.toNat = 0x25 := by
      have hnat := congrArg UInt8.toNat hbyte
      rw [UInt8.toNat_ofNat'] at hnat
      simp at hnat
      omega
    exact hne (Char.toNat_inj.mp hvalue)

theorem percentDecode_flatMap (hwrite : Faithful write) (cs : List Char) :
    percentDecode (bytesOf (cs.flatMap write)) = cs.flatMap String.utf8EncodeChar := by
  induction cs with
  | nil => rfl
  | cons c cs ih =>
    rw [List.flatMap_cons, bytesOf_append, percentDecode_write hwrite, ih, List.flatMap_cons]

theorem readText_writeText (replaced : Bytes → String) (hwrite : Faithful write) (text : String) :
    readText replaced (writeText write text) = text := by
  rw [readText, writeText, percentDecode_flatMap hwrite, ← utf8_eq]
  simp only [Bytes.utf8?_utf8, Option.getD_some]

/-- What means something in a URL, other than a percent sign. -/
theorem hexDigit_ne_separator {sep : Char} (hsep : sep = '&' ∨ sep = '=' ∨ sep = '#') {n : Nat}
    (hn : n < 16) : hexDigit n ≠ sep := by
  obtain ⟨-, -, -, hand, hequals, hquery, -⟩ := hexDigit_cases hn
  rcases hsep with rfl | rfl | rfl
  · exact hand
  · exact hequals
  · intro hhash
    rw [hhash] at hquery
    exact absurd hquery (by decide)

/-- What is written has no separators. -/
theorem separator_not_mem (hwrite : Faithful write) {sep : Char}
    (hsep : sep = '&' ∨ sep = '=' ∨ sep = '#') (text : String) : sep ∉ writeText write text := by
  intro hmem
  obtain ⟨c, -, hc⟩ := List.mem_flatMap.mp hmem
  rcases hwrite c with hpercent | ⟨hplus, -⟩ | ⟨hkept, -, -, -, hand, hequals, hhash⟩
  · rw [hpercent] at hc
    obtain ⟨b, -, hb⟩ := List.mem_flatMap.mp hc
    have hlt : b.toNat < 256 := b.toNat_lt
    simp only [percentByte, List.mem_cons, List.not_mem_nil, or_false] at hb
    rcases hb with hb | hb | hb
    · rcases hsep with rfl | rfl | rfl <;> cases hb
    · exact hexDigit_ne_separator hsep (show b.toNat / 16 < 16 by omega) hb.symm
    · exact hexDigit_ne_separator hsep (show b.toNat % 16 < 16 by omega) hb.symm
  · rw [hplus] at hc
    rcases hsep with rfl | rfl | rfl <;> cases List.mem_singleton.mp hc
  · rw [hkept] at hc
    obtain rfl := List.mem_singleton.mp hc
    rcases hsep with rfl | rfl | rfl
    · exact hand rfl
    · exact hequals rfl
    · exact hhash rfl

/-- The first pair, and an ampersand before each other. -/
theorem writeQuery_cons (write : Char → List Char) (p : String × String)
    (pairs : List (String × String)) :
    writeQuery write (p :: pairs) = (writeText write p.1 ++ '=' :: writeText write p.2) ++
      pairs.flatMap fun q => '&' :: (writeText write q.1 ++ '=' :: writeText write q.2) := by
  induction pairs generalizing p with
  | nil => simp [writeQuery, List.intercalate]
  | cons q pairs ih =>
    have hcons : writeQuery write (p :: q :: pairs) =
        (writeText write p.1 ++ '=' :: writeText write p.2) ++
          '&' :: writeQuery write (q :: pairs) := by
      simp [writeQuery, List.intercalate]
    rw [hcons, ih, List.flatMap_cons, List.cons_append]

/-- A query ends where it was written to its end. -/
theorem hash_not_mem_writeQuery (hwrite : Faithful write) (pairs : List (String × String)) :
    '#' ∉ writeQuery write pairs := by
  have hpair : ∀ p : String × String,
      '#' ∉ writeText write p.1 ++ '=' :: writeText write p.2 := by
    intro p
    simp [separator_not_mem hwrite (.inr (.inr rfl))]
  cases pairs with
  | nil => exact List.not_mem_nil
  | cons p pairs =>
    rw [writeQuery_cons, List.mem_append, List.mem_flatMap]
    rintro (hhash | ⟨q, -, hhash⟩)
    · exact hpair p hhash
    · rcases List.mem_cons.mp hhash with hhash | hhash
      · cases hhash
      · exact hpair q hhash

/-- A list is read as it was written. -/
theorem readQuery_writeQuery (replaced : Bytes → String) (hwrite : Faithful write)
    (pairs : List (String × String)) :
    readQuery replaced (writeQuery write pairs) = pairs := by
  have hpieces : ((writeQuery write pairs).splitOn '&').filter (fun piece => !piece.isEmpty) =
      pairs.map fun p => writeText write p.1 ++ '=' :: writeText write p.2 := by
    by_cases hpairs : pairs = []
    · subst hpairs
      rfl
    · have hfields : pairs.map (fun p => writeText write p.1 ++ '=' :: writeText write p.2) ≠ [] := by
        simpa using hpairs
      rw [writeQuery, Separated.splitOn_join _ hfields, Separated.pieces_eq_self]
      · refine List.filter_eq_self.mpr ?_
        intro field hfield
        obtain ⟨p, -, rfl⟩ := List.mem_map.mp hfield
        simp
      · intro field hfield
        obtain ⟨p, -, rfl⟩ := List.mem_map.mp hfield
        simp [separator_not_mem hwrite (.inl rfl)]
  have hname : ∀ text, (writeText write text).all (· != '=') = true := by
    intro text
    rw [List.all_eq_true]
    intro c hc
    simp only [bne_iff_ne, ne_eq]
    rintro rfl
    exact separator_not_mem hwrite (.inr (.inl rfl)) text hc
  rw [readQuery, hpieces, List.map_map]
  refine (List.map_congr_left fun p _ => ?_).trans (List.map_id _)
  have htake : (writeText write p.1 ++ '=' :: writeText write p.2).takeWhile (· != '=') =
      writeText write p.1 := by
    rw [List.takeWhile_append_of_pos (List.all_eq_true.mp (hname p.1)), List.takeWhile_cons]
    simp
  have hdrop : (writeText write p.1 ++ '=' :: writeText write p.2).dropWhile (· != '=') =
      '=' :: writeText write p.2 := by
    rw [List.dropWhile_append_of_pos (List.all_eq_true.mp (hname p.1)), List.dropWhile_cons]
    simp
  simp only [Function.comp_apply, htake, hdrop, List.drop_one, List.tail_cons,
    readText_writeText replaced hwrite, id_eq]

/-! ## The writers -/

theorem keeping_faithful {kept : Char → Bool}
    (h : ∀ c, kept c = true →
      c.toNat < 128 ∧ c ≠ '%' ∧ c ≠ '+' ∧ c ≠ '&' ∧ c ≠ '=' ∧ c ≠ '#') :
    Faithful (keeping kept) := by
  intro c
  unfold keeping
  split
  · next hkept => exact .inr (.inr ⟨rfl, h c hkept⟩)
  · exact .inl rfl

/-- Letters and digits mean nothing in a query. -/
theorem isAlphanum_plain {c : Char} (hc : c.isAlphanum = true) :
    c.toNat < 128 ∧ c ≠ '%' ∧ c ≠ '+' ∧ c ≠ '&' ∧ c ≠ '=' ∧ c ≠ '#' := by
  refine ⟨?_, ?_, ?_, ?_, ?_, ?_⟩
  · have hbool : ((decide (c.val ≥ 65 ∧ c.val ≤ 90) ||
        decide (c.val ≥ 97) && decide (c.val ≤ 122)) ||
        decide (c.val ≥ 48) && decide (c.val ≤ 57)) = true := hc
    simp only [Bool.or_eq_true, Bool.and_eq_true, decide_eq_true_eq, ge_iff_le,
      UInt32.le_iff_toNat_le] at hbool
    have hbounds : (65 ≤ c.val.toNat ∧ c.val.toNat ≤ 90 ∨ 97 ≤ c.val.toNat ∧ c.val.toNat ≤ 122) ∨
        48 ≤ c.val.toNat ∧ c.val.toNat ≤ 57 := hbool
    have hval : c.toNat = c.val.toNat := rfl
    omega
  all_goals
    rintro rfl
    exact absurd hc (by decide)

theorem componentChar_faithful : Faithful componentChar := by
  refine keeping_faithful fun c hc => ?_
  rcases Bool.or_eq_true _ _ |>.mp hc with hc | hc
  · exact isAlphanum_plain hc
  · have hplain : "-_.!~*'()".toList.all (fun d =>
        decide (d.toNat < 128 ∧ d ≠ '%' ∧ d ≠ '+' ∧ d ≠ '&' ∧ d ≠ '=' ∧ d ≠ '#')) = true := by
      decide
    exact of_decide_eq_true (List.all_eq_true.mp hplain c (List.contains_iff_mem.mp hc))

theorem formChar_faithful : Faithful formChar := by
  have hkeeping : Faithful (keeping fun c => c.isAlphanum || "*-._".toList.contains c) := by
    refine keeping_faithful fun c hc => ?_
    rcases Bool.or_eq_true _ _ |>.mp hc with hc | hc
    · exact isAlphanum_plain hc
    · have hplain : "*-._".toList.all (fun d =>
          decide (d.toNat < 128 ∧ d ≠ '%' ∧ d ≠ '+' ∧ d ≠ '&' ∧ d ≠ '=' ∧ d ≠ '#')) = true := by
        decide
      exact of_decide_eq_true (List.all_eq_true.mp hplain c (List.contains_iff_mem.mp hc))
  intro c
  unfold formChar
  split
  · next hblank => exact .inr (.inl ⟨rfl, hblank⟩)
  · exact hkeeping c

/-! ## The URL parser -/

/-- The query that the URL parser makes of a text. -/
def parseQuery (query : List Char) : List Char :=
  query.flatMap (keeping isQueryChar)

theorem parseQuery_append (cs ds : List Char) :
    parseQuery (cs ++ ds) = parseQuery cs ++ parseQuery ds := List.flatMap_append

theorem parseQuery_cons {c : Char} (hc : isQueryChar c = true) (cs : List Char) :
    parseQuery (c :: cs) = c :: parseQuery cs := by
  rw [parseQuery, List.flatMap_cons, keeping, if_pos hc, parseQuery, List.singleton_append]

theorem parseQuery_percentBytes (bs : Bytes) :
    parseQuery (bs.flatMap percentByte) = bs.flatMap percentByte := by
  induction bs with
  | nil => rfl
  | cons b bs ih =>
    have hlt : b.toNat < 256 := b.toNat_lt
    obtain ⟨-, -, -, -, -, hhigh, -⟩ := hexDigit_cases (show b.toNat / 16 < 16 by omega)
    obtain ⟨-, -, -, -, -, hlow, -⟩ := hexDigit_cases (show b.toNat % 16 < 16 by omega)
    rw [List.flatMap_cons, parseQuery_append, ih, percentByte, parseQuery_cons (by decide),
      parseQuery_cons hhigh, parseQuery_cons hlow]
    rfl

/-- What the URL parser percent-encodes once more is read as well. -/
theorem Faithful.parseQuery {write : Char → List Char} (h : Faithful write) :
    Faithful fun c => parseQuery (write c) := by
  intro c
  dsimp only
  rcases h c with hpercent | ⟨hplus, hblank⟩ | ⟨hkept, hplain⟩
  · left
    rw [hpercent]
    exact parseQuery_percentBytes _
  · refine .inr (.inl ⟨?_, hblank⟩)
    rw [hplus]
    decide
  · have hsingle : UrlEncoding.parseQuery [c] = keeping isQueryChar c := List.append_nil _
    rw [hkept, hsingle]
    unfold keeping
    split
    · exact .inr (.inr ⟨rfl, hplain⟩)
    · exact .inl rfl

theorem parseQuery_writeText (write : Char → List Char) (text : String) :
    parseQuery (writeText write text) = writeText (fun c => parseQuery (write c)) text := by
  simp only [parseQuery, writeText, List.flatMap_assoc]

theorem parseQuery_writeQuery (write : Char → List Char) (pairs : List (String × String)) :
    parseQuery (writeQuery write pairs) = writeQuery (fun c => parseQuery (write c)) pairs := by
  have hpair : ∀ p : String × String,
      parseQuery (writeText write p.1 ++ '=' :: writeText write p.2) =
        writeText (fun c => parseQuery (write c)) p.1 ++
          '=' :: writeText (fun c => parseQuery (write c)) p.2 := by
    intro p
    rw [parseQuery_append, parseQuery_writeText, parseQuery_cons (by decide),
      parseQuery_writeText]
  cases pairs with
  | nil => rfl
  | cons p pairs =>
    rw [writeQuery_cons, writeQuery_cons, parseQuery_append, hpair]
    refine congrArg _ ?_
    rw [parseQuery, List.flatMap_assoc]
    refine List.flatMap_congr fun q _ => ?_
    show parseQuery ('&' :: _) = _
    rw [parseQuery_cons (by decide), hpair]

/-- The URL parser changes nothing in what is read. -/
theorem readQuery_parseQuery (replaced : Bytes → String) {write : Char → List Char}
    (hwrite : Faithful write) (pairs : List (String × String)) :
    readQuery replaced (parseQuery (writeQuery write pairs)) = pairs := by
  rw [parseQuery_writeQuery]
  exact readQuery_writeQuery replaced hwrite.parseQuery pairs

end UrlEncoding
