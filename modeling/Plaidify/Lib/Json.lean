import Mathlib.Data.List.Nodup
import Mathlib.Data.Char

/-!
# JSON text

Values, a writer (`dumps`) and a reader (`loads`) with the conventions of the
Python `json` module: `", "` and `": "` as separators, everything outside
printable ASCII written as `\uXXXX` (two of them above the basic plane), and on
the way back insertion-ordered objects in which a repeated key keeps its place
and takes the last value.

A number with a fraction or an exponent is carried as the text its
floating-point value prints as; `floatRepr` is that normalisation. The main
result is the round trip `loads_dumps`.
-/

/-- A JSON value. -/
inductive Json where
  | null
  | bool (b : Bool)
  | int (n : Int)
  | float (repr : String)
  | str (s : String)
  | arr (xs : List Json)
  | obj (kvs : List (String × Json))

namespace Json

/-- The truth value of a JSON value in Python. -/
def truthy : Json → Bool
  | .null => false
  | .bool b => b
  | .int n => n ≠ 0
  | .float repr => repr ≠ "0.0" && repr ≠ "-0.0"
  | .str s => s ≠ ""
  | .arr xs => !xs.isEmpty
  | .obj kvs => !kvs.isEmpty

/-! ## Writing -/

/-- The lower-case hexadecimal digit of `d % 16`. -/
def hexDigit (d : Nat) : Char :=
  Nat.digitChar (d % 16)

/-- `\uXXXX` for a 16-bit code unit. -/
def unicodeEscape (u : Nat) : List Char :=
  ['\\', 'u', hexDigit (u / 4096), hexDigit (u / 256), hexDigit (u / 16), hexDigit u]

/-- One character inside a string literal, with `ensure_ascii`. -/
def escapeChar (c : Char) : List Char :=
  if c = '"' then ['\\', '"']
  else if c = '\\' then ['\\', '\\']
  else if c = '\n' then ['\\', 'n']
  else if c = '\r' then ['\\', 'r']
  else if c = '\t' then ['\\', 't']
  else if c = '\x0c' then ['\\', 'f']
  else if c = '\x08' then ['\\', 'b']
  else if 0x20 ≤ c.toNat ∧ c.toNat ≤ 0x7e then [c]
  else if c.toNat < 0x10000 then unicodeEscape c.toNat
  else
    unicodeEscape (0xd800 + (c.toNat - 0x10000) / 1024) ++
      unicodeEscape (0xdc00 + (c.toNat - 0x10000) % 1024)

/-- A string literal, quotes included. -/
def quote (s : String) : List Char :=
  '"' :: (s.toList.flatMap escapeChar ++ ['"'])

/-- The decimal digits of an integer, with its sign. -/
def intChars : Int → List Char
  | .ofNat n => Nat.toDigits 10 n
  | .negSucc n => '-' :: Nat.toDigits 10 (n + 1)

mutual

/-- `json.dumps` as a list of characters. -/
def dumpsChars : Json → List Char
  | .null => ['n', 'u', 'l', 'l']
  | .bool true => ['t', 'r', 'u', 'e']
  | .bool false => ['f', 'a', 'l', 's', 'e']
  | .int n => intChars n
  | .float r => r.toList
  | .str s => quote s
  | .arr xs => '[' :: (dumpsElems xs ++ [']'])
  | .obj kvs => '{' :: (dumpsMembers kvs ++ ['}'])

/-- The elements of an array, separated by a comma and a blank. -/
def dumpsElems : List Json → List Char
  | [] => []
  | x :: [] => dumpsChars x
  | x :: y :: xs => dumpsChars x ++ (',' :: ' ' :: dumpsElems (y :: xs))

/-- The members of an object, separated by a comma and a blank. -/
def dumpsMembers : List (String × Json) → List Char
  | [] => []
  | (k, v) :: [] => quote k ++ (':' :: ' ' :: dumpsChars v)
  | (k, v) :: m :: kvs =>
      quote k ++ (':' :: ' ' :: (dumpsChars v ++ (',' :: ' ' :: dumpsMembers (m :: kvs))))

end

/-- `json.dumps(v)`. -/
def dumps (v : Json) : String :=
  String.ofList (dumpsChars v)

mutual

/-- `json.dumps` without blanks as a list of characters. -/
def compactChars : Json → List Char
  | .arr xs => '[' :: (compactElems xs ++ [']'])
  | .obj kvs => '{' :: (compactMembers kvs ++ ['}'])
  | v => dumpsChars v

def compactElems : List Json → List Char
  | [] => []
  | x :: [] => compactChars x
  | x :: y :: xs => compactChars x ++ (',' :: compactElems (y :: xs))

def compactMembers : List (String × Json) → List Char
  | [] => []
  | (k, v) :: [] => quote k ++ (':' :: compactChars v)
  | (k, v) :: m :: kvs =>
      quote k ++ (':' :: (compactChars v ++ (',' :: compactMembers (m :: kvs))))

end

/-- `json.dumps(v, separators=(",", ":"))`. -/
def dumpsCompact (v : Json) : String :=
  String.ofList (compactChars v)

/-! ## Reading -/

/-- The blanks that JSON allows between tokens. -/
def isBlank (c : Char) : Bool :=
  c == ' ' || c == '\t' || c == '\n' || c == '\r'

def skipWs (cs : List Char) : List Char :=
  cs.dropWhile isBlank

/-- The value of a hexadecimal digit, in either case. -/
def hexVal (c : Char) : Option Nat :=
  if '0' ≤ c ∧ c ≤ '9' then some (c.toNat - 48)
  else if 'a' ≤ c ∧ c ≤ 'f' then some (c.toNat - 87)
  else if 'A' ≤ c ∧ c ≤ 'F' then some (c.toNat - 55)
  else none

/-- The code unit written by four hexadecimal digits. -/
def hex4 (a b c d : Char) : Option Nat := do
  let a ← hexVal a
  let b ← hexVal b
  let c ← hexVal c
  let d ← hexVal d
  return a * 4096 + b * 256 + c * 16 + d

/-- The character after a backslash, for the one-letter escapes. -/
def unescape : Char → Option Char
  | '"' => some '"'
  | '\\' => some '\\'
  | '/' => some '/'
  | 'b' => some '\x08'
  | 'f' => some '\x0c'
  | 'n' => some '\n'
  | 'r' => some '\r'
  | 't' => some '\t'
  | _ => none

/-- Put a character in front of what the rest of the literal reads as. -/
def push (c : Char) : Option (List Char × List Char) → Option (List Char × List Char)
  | some (s, rest) => some (c :: s, rest)
  | none => none

/-- The body of a string literal up to its closing quote. Control characters
are refused; a surrogate without its partner reads as the replacement
character, since a `Char` is never a surrogate. -/
def parseBody : List Char → Option (List Char × List Char)
  | '"' :: rest => some ([], rest)
  | '\\' :: 'u' :: a :: b :: c :: d :: rest =>
      match hex4 a b c d with
      | none => none
      | some u =>
          if 0xd800 ≤ u ∧ u < 0xdc00 then
            match rest with
            | '\\' :: 'u' :: a' :: b' :: c' :: d' :: rest' =>
                match hex4 a' b' c' d' with
                | none => none
                | some u' =>
                    if 0xdc00 ≤ u' ∧ u' < 0xe000 then
                      push (Char.ofNat (0x10000 + (u - 0xd800) * 1024 + (u' - 0xdc00)))
                        (parseBody rest')
                    else push '\ufffd' (parseBody ('\\' :: 'u' :: a' :: b' :: c' :: d' :: rest'))
            | rest => push '\ufffd' (parseBody rest)
          else if 0xdc00 ≤ u ∧ u < 0xe000 then push '\ufffd' (parseBody rest)
          else push (Char.ofNat u) (parseBody rest)
  | '\\' :: e :: rest =>
      match unescape e with
      | some c => push c (parseBody rest)
      | none => none
  | c :: rest => if c.toNat < 0x20 then none else push c (parseBody rest)
  | [] => none

/-- The longest prefix of digits, and what follows it. -/
def spanDigits (cs : List Char) : List Char × List Char :=
  (cs.takeWhile Char.isDigit, cs.dropWhile Char.isDigit)

/-- The integer part: a zero alone, or digits that do not start with a zero. -/
def intPart : List Char → Option (List Char × List Char)
  | '0' :: rest => some (['0'], rest)
  | c :: rest => if c.isDigit then some (spanDigits (c :: rest)) else none
  | [] => none

/-- The fraction: a point and at least one digit, or nothing. -/
def fracPart : List Char → List Char × List Char
  | '.' :: rest =>
      match spanDigits rest with
      | ([], _) => ([], '.' :: rest)
      | (ds, rest') => ('.' :: ds, rest')
  | cs => ([], cs)

/-- The sign an exponent may carry. -/
def expSign : List Char → List Char × List Char
  | '+' :: rest => (['+'], rest)
  | '-' :: rest => (['-'], rest)
  | cs => ([], cs)

/-- The exponent, or nothing. -/
def expPart : List Char → List Char × List Char
  | e :: rest =>
      if e = 'e' ∨ e = 'E' then
        match spanDigits (expSign rest).2 with
        | ([], _) => ([], e :: rest)
        | (ds, rest') => (e :: ((expSign rest).1 ++ ds), rest')
      else ([], e :: rest)
  | [] => ([], [])

/-- A member read into an insertion-ordered dictionary: a key that is already
there keeps its place and takes the new value. -/
def dictInsert (d : List (String × Json)) (m : String × Json) : List (String × Json) :=
  if m.1 ∈ d.map Prod.fst then d.map fun kv => if kv.1 = m.1 then m else kv else d ++ [m]

/-- The dictionary of a list of members. -/
def dictOf (kvs : List (String × Json)) : List (String × Json) :=
  kvs.foldl dictInsert []

/-- A number without its sign. -/
def parseUnsigned (floatRepr : String → String) (sign : List Char) (neg : Bool) (cs : List Char) :
    Option (Json × List Char) :=
  match intPart cs with
  | none => none
  | some (ds, rest) =>
      match fracPart rest with
      | (fs, rest') =>
          match expPart rest' with
          | (es, rest'') =>
              if fs = [] ∧ es = [] then
                let n : Int := Nat.ofDigitChars 10 ds 0
                some (.int (if neg then -n else n), rest'')
              else some (.float (floatRepr (String.ofList (sign ++ ds ++ fs ++ es))), rest'')

mutual

/-- One value at the front of the text; the fuel bounds the nesting and the
number of elements read. -/
def parseValue (floatRepr : String → String) : Nat → List Char → Option (Json × List Char)
  | 0, _ => none
  | fuel + 1, cs =>
      match cs with
      | 'n' :: 'u' :: 'l' :: 'l' :: rest => some (.null, rest)
      | 't' :: 'r' :: 'u' :: 'e' :: rest => some (.bool true, rest)
      | 'f' :: 'a' :: 'l' :: 's' :: 'e' :: rest => some (.bool false, rest)
      | 'N' :: 'a' :: 'N' :: rest => some (.float "nan", rest)
      | 'I' :: 'n' :: 'f' :: 'i' :: 'n' :: 'i' :: 't' :: 'y' :: rest => some (.float "inf", rest)
      | '-' :: 'I' :: 'n' :: 'f' :: 'i' :: 'n' :: 'i' :: 't' :: 'y' :: rest =>
          some (.float "-inf", rest)
      | '"' :: rest =>
          match parseBody rest with
          | some (s, rest') => some (.str (String.ofList s), rest')
          | none => none
      | '[' :: rest =>
          match skipWs rest with
          | ']' :: rest' => some (.arr [], rest')
          | rest' =>
              match parseElems floatRepr fuel rest' with
              | some (xs, rest'') => some (.arr xs, rest'')
              | none => none
      | '{' :: rest =>
          match skipWs rest with
          | '}' :: rest' => some (.obj [], rest')
          | rest' =>
              match parseMembers floatRepr fuel rest' with
              | some (kvs, rest'') => some (.obj (dictOf kvs), rest'')
              | none => none
      | '-' :: rest => parseUnsigned floatRepr ['-'] true rest
      | cs => parseUnsigned floatRepr [] false cs

/-- The elements of an array, up to its closing bracket. -/
def parseElems (floatRepr : String → String) : Nat → List Char → Option (List Json × List Char)
  | 0, _ => none
  | fuel + 1, cs =>
      match parseValue floatRepr fuel cs with
      | none => none
      | some (x, rest) =>
          match skipWs rest with
          | ']' :: rest' => some ([x], rest')
          | ',' :: rest' =>
              match parseElems floatRepr fuel (skipWs rest') with
              | some (xs, rest'') => some (x :: xs, rest'')
              | none => none
          | _ => none

/-- The members of an object, up to its closing brace. -/
def parseMembers (floatRepr : String → String) :
    Nat → List Char → Option (List (String × Json) × List Char)
  | 0, _ => none
  | fuel + 1, cs =>
      match cs with
      | '"' :: rest =>
          match parseBody rest with
          | none => none
          | some (k, rest₁) =>
              match skipWs rest₁ with
              | ':' :: rest₂ =>
                  match parseValue floatRepr fuel (skipWs rest₂) with
                  | none => none
                  | some (v, rest₃) =>
                      match skipWs rest₃ with
                      | '}' :: rest₄ => some ([(String.ofList k, v)], rest₄)
                      | ',' :: rest₄ =>
                          match parseMembers floatRepr fuel (skipWs rest₄) with
                          | some (kvs, rest₅) => some ((String.ofList k, v) :: kvs, rest₅)
                          | none => none
                      | _ => none
              | _ => none
      | _ => none

end

/-- `json.loads(text)`, `none` where it raises. -/
def loads (floatRepr : String → String) (text : String) : Option Json :=
  match parseValue floatRepr (2 * text.toList.length + 1) (skipWs text.toList) with
  | some (v, rest) => if skipWs rest = [] then some v else none
  | none => none

/-! ## The round trip -/

/-- Decimal digits without a leading zero. -/
def IntText (ds : List Char) : Prop :=
  ds = ['0'] ∨ ∃ c t, ds = c :: t ∧ c ≠ '0' ∧ ∀ d ∈ c :: t, d.isDigit = true

def FracText (fs : List Char) : Prop :=
  fs = [] ∨ ∃ c t, fs = '.' :: c :: t ∧ ∀ d ∈ c :: t, d.isDigit = true

def ExpText (es : List Char) : Prop :=
  es = [] ∨ ∃ sign c t, es = 'e' :: (sign ++ c :: t) ∧ (sign = [] ∨ sign = ['+'] ∨ sign = ['-']) ∧
    ∀ d ∈ c :: t, d.isDigit = true

/-- The text of a number with a fraction or an exponent, as a floating-point value
is printed. -/
def FloatText (cs : List Char) : Prop :=
  ∃ sign ds fs es, cs = sign ++ (ds ++ (fs ++ es)) ∧ (sign = [] ∨ sign = ['-']) ∧
    IntText ds ∧ FracText fs ∧ ExpText es ∧ ¬ (fs = [] ∧ es = [])

mutual

/-- No key twice in one object, and every floating-point number carried as the
text its value prints as: the values that `dumps` writes without loss. -/
def Writable (floatRepr : String → String) : Json → Prop
  | .float r => FloatText r.toList ∧ floatRepr r = r
  | .arr xs => WritableElems floatRepr xs
  | .obj kvs => (kvs.map Prod.fst).Nodup ∧ WritableMembers floatRepr kvs
  | _ => True

def WritableElems (floatRepr : String → String) : List Json → Prop
  | [] => True
  | x :: xs => Writable floatRepr x ∧ WritableElems floatRepr xs

def WritableMembers (floatRepr : String → String) : List (String × Json) → Prop
  | [] => True
  | (_, v) :: kvs => Writable floatRepr v ∧ WritableMembers floatRepr kvs

end

/-! ### Strings -/

theorem hexVal_hexDigit (d : Nat) : hexVal (hexDigit d) = some (d % 16) := by
  have h : ∀ i : Fin 16, hexVal (Nat.digitChar i) = some i.val := by decide
  exact h ⟨d % 16, Nat.mod_lt _ (by omega)⟩

theorem hex4_unicodeEscape {u : Nat} (hu : u < 65536) :
    hex4 (hexDigit (u / 4096)) (hexDigit (u / 256)) (hexDigit (u / 16)) (hexDigit u) = some u := by
  simp only [hex4, hexVal_hexDigit, Option.bind_eq_bind, Option.bind_some, Option.pure_def]
  congr 1
  omega

/-- The code of a character is below the surrogates, or above them and in range. -/
theorem toNat_range (c : Char) :
    c.toNat < 0xd800 ∨ (0xdfff < c.toNat ∧ c.toNat < 0x110000) :=
  c.valid

theorem parseBody_unicodeEscape {u : Nat} (hu : u < 65536)
    (hs : u < 0xd800 ∨ 0xdfff < u) (rest : List Char) :
    parseBody (unicodeEscape u ++ rest) = push (Char.ofNat u) (parseBody rest) := by
  have h1 : ¬ (0xd800 ≤ u ∧ u < 0xdc00) := by omega
  have h2 : ¬ (0xdc00 ≤ u ∧ u < 0xe000) := by omega
  simp only [unicodeEscape, List.cons_append, List.nil_append]
  rw [parseBody.eq_def]
  simp only [hex4_unicodeEscape hu, if_neg h1, if_neg h2]

theorem parseBody_surrogates {n : Nat} (hn : 0x10000 ≤ n) (hn' : n < 0x110000)
    (rest : List Char) :
    parseBody (unicodeEscape (0xd800 + (n - 0x10000) / 1024) ++
        (unicodeEscape (0xdc00 + (n - 0x10000) % 1024) ++ rest)) =
      push (Char.ofNat n) (parseBody rest) := by
  have hhi : 0xd800 + (n - 0x10000) / 1024 < 65536 := by omega
  have hlo : 0xdc00 + (n - 0x10000) % 1024 < 65536 := by omega
  have h1 : 0xd800 ≤ 0xd800 + (n - 0x10000) / 1024 ∧
      0xd800 + (n - 0x10000) / 1024 < 0xdc00 := by omega
  have h2 : 0xdc00 ≤ 0xdc00 + (n - 0x10000) % 1024 ∧
      0xdc00 + (n - 0x10000) % 1024 < 0xe000 := by omega
  have hval : 0x10000 + (0xd800 + (n - 0x10000) / 1024 - 0xd800) * 1024 +
      (0xdc00 + (n - 0x10000) % 1024 - 0xdc00) = n := by omega
  simp only [unicodeEscape, List.cons_append, List.nil_append]
  rw [parseBody.eq_def]
  simp only [hex4_unicodeEscape hhi, hex4_unicodeEscape hlo, if_pos h1, if_pos h2, hval]

/-- One character written by `escapeChar` reads back as itself. -/
theorem parseBody_escapeChar (c : Char) (rest : List Char) :
    parseBody (escapeChar c ++ rest) = push c (parseBody rest) := by
  unfold escapeChar
  split_ifs with h1 h2 h3 h4 h5 h6 h7 h8 h9
  · subst h1; simp [parseBody, unescape]
  · subst h2; simp [parseBody, unescape]
  · subst h3; simp [parseBody, unescape]
  · subst h4; simp [parseBody, unescape]
  · subst h5; simp [parseBody, unescape]
  · subst h6; simp [parseBody, unescape]
  · subst h7; simp [parseBody, unescape]
  · -- printable ASCII stands for itself
    have hlt : ¬ c.toNat < 0x20 := by omega
    rw [List.singleton_append, parseBody.eq_def]
    split
    case h_4 heq =>
      obtain ⟨rfl, rfl⟩ := List.cons.inj heq
      rw [if_neg hlt]
    all_goals simp_all
  · have hr := toNat_range c
    rw [parseBody_unicodeEscape h9 (by omega), Char.ofNat_toNat]
  · have hr := toNat_range c
    rw [List.append_assoc, parseBody_surrogates (by omega) (by omega), Char.ofNat_toNat]

theorem parseBody_flatMap (s rest : List Char) :
    parseBody (s.flatMap escapeChar ++ '"' :: rest) = some (s, rest) := by
  induction s with
  | nil => simp [parseBody]
  | cons c s ih => rw [List.flatMap_cons, List.append_assoc, parseBody_escapeChar, ih, push]

/-! ### Tokens -/

/-- What may follow a value inside a document: nothing, a comma, a closing bracket or
the end of a line. -/
def Stops (rest : List Char) : Prop :=
  ∀ c cs, rest = c :: cs → c = ',' ∨ c = ']' ∨ c = '}' ∨ c = '\n'

theorem Stops.nil : Stops [] := by
  intro c cs h
  simp at h

theorem Stops.cons {c : Char} (h : c = ',' ∨ c = ']' ∨ c = '}' ∨ c = '\n') (cs : List Char) :
    Stops (c :: cs) := by
  intro d ds heq
  obtain ⟨rfl, -⟩ := List.cons.inj heq
  exact h

theorem skipWs_cons {c : Char} (h : isBlank c = false) (cs : List Char) :
    skipWs (c :: cs) = c :: cs := by
  simp [skipWs, h]

/-- The first character of a written value is neither blank nor a closing
bracket. -/
def Opens (cs : List Char) : Prop :=
  ∃ c t, cs = c :: t ∧ isBlank c = false ∧ c ≠ ']' ∧ c ≠ '}'

theorem Opens.append {cs : List Char} (h : Opens cs) (rest : List Char) : Opens (cs ++ rest) := by
  obtain ⟨c, t, rfl, hb, h1, h2⟩ := h
  exact ⟨c, t ++ rest, rfl, hb, h1, h2⟩

theorem Opens.skipWs {cs : List Char} (h : Opens cs) : skipWs cs = cs := by
  obtain ⟨c, t, rfl, hb, -, -⟩ := h
  exact skipWs_cons hb t

theorem isDigit_opens {c : Char} (h : c.isDigit = true) :
    isBlank c = false ∧ c ≠ ']' ∧ c ≠ '}' := by
  refine ⟨?_, ?_, ?_⟩
  · by_contra hb
    simp only [isBlank, Bool.not_eq_false, Bool.or_eq_true, beq_iff_eq] at hb
    rcases hb with ((rfl | rfl) | rfl) | rfl <;> simp [Char.isDigit] at h
  · rintro rfl; simp [Char.isDigit] at h
  · rintro rfl; simp [Char.isDigit] at h

/-! ### Numbers -/

theorem toDigits_isDigit (n : Nat) : ∀ c ∈ Nat.toDigits 10 n, c.isDigit = true :=
  fun _ hc => Nat.isDigit_of_mem_toDigits (by omega) (by omega) hc

/-- A positive number is not written with a leading zero. -/
theorem toDigits_head {n : Nat} (hn : 0 < n) :
    ∃ c t, Nat.toDigits 10 n = c :: t ∧ c ≠ '0' ∧ c.isDigit = true := by
  induction n using Nat.strong_induction_on with
  | _ n ih =>
      by_cases hlt : n < 10
      · rw [Nat.toDigits_of_lt_base hlt]
        refine ⟨_, _, rfl, ?_⟩
        have h : ∀ i : Fin 10, 0 < i.val →
            Nat.digitChar i ≠ '0' ∧ (Nat.digitChar i).isDigit = true := by decide
        exact h ⟨n, hlt⟩ hn
      · rw [Nat.toDigits_of_base_le (by omega) (by omega)]
        obtain ⟨c, t, heq, hc⟩ := ih (n / 10) (by omega) (by omega)
        exact ⟨c, _, by rw [heq, List.cons_append], hc⟩

/-- What may follow the digits of a number. -/
def NoDigit (rest : List Char) : Prop :=
  ∀ c cs, rest = c :: cs → c.isDigit = false

theorem Stops.noDigit {rest : List Char} (hr : Stops rest) : NoDigit rest := by
  intro c cs h
  rcases hr c cs h with rfl | rfl | rfl | rfl <;> rfl

theorem spanDigits_append {ds rest : List Char} (hd : ∀ c ∈ ds, c.isDigit = true)
    (hr : NoDigit rest) : spanDigits (ds ++ rest) = (ds, rest) := by
  have hdrop : rest.dropWhile Char.isDigit = rest ∧ rest.takeWhile Char.isDigit = [] := by
    cases rest with
    | nil => simp
    | cons c cs => simp [hr c cs rfl]
  rw [spanDigits, List.takeWhile_append_of_pos hd, List.dropWhile_append_of_pos hd, hdrop.1,
    hdrop.2, List.append_nil]

theorem intText_toDigits (n : Nat) : IntText (Nat.toDigits 10 n) := by
  rcases Nat.eq_zero_or_pos n with rfl | hn
  · exact .inl rfl
  · obtain ⟨c, t, heq, hc0, -⟩ := toDigits_head hn
    exact .inr ⟨c, t, heq, hc0, heq ▸ toDigits_isDigit n⟩

theorem intPart_append {ds rest : List Char} (hd : IntText ds) (hr : NoDigit rest) :
    intPart (ds ++ rest) = some (ds, rest) := by
  rcases hd with rfl | ⟨c, t, rfl, hc0, hd⟩
  · rfl
  · have hspan := spanDigits_append hd hr
    rw [List.cons_append] at hspan ⊢
    unfold intPart
    split
    case h_1 h =>
      obtain ⟨rfl, -⟩ := List.cons.inj h
      exact absurd rfl hc0
    case h_2 h =>
      obtain ⟨rfl, rfl⟩ := List.cons.inj h
      rw [if_pos (hd _ (List.mem_cons_self ..)), hspan]
    case h_3 h => simp at h

theorem fracPart_of_ne {rest : List Char} (hr : ∀ cs, rest ≠ '.' :: cs) :
    fracPart rest = ([], rest) := by
  unfold fracPart
  split
  · rename_i cs
    exact absurd rfl (hr cs)
  · rfl

theorem fracPart_of_stops {rest : List Char} (hr : Stops rest) : fracPart rest = ([], rest) := by
  refine fracPart_of_ne ?_
  rintro cs rfl
  rcases hr '.' cs rfl with h | h | h | h <;> exact absurd h (by decide)

theorem expPart_of_stops {rest : List Char} (hr : Stops rest) : expPart rest = ([], rest) := by
  cases rest with
  | nil => rfl
  | cons c cs =>
      have hne : ¬ (c = 'e' ∨ c = 'E') := by
        rcases hr c cs rfl with rfl | rfl | rfl | rfl <;> decide
      simp [expPart, hne]

theorem expPart_append {es rest : List Char} (he : ExpText es) (hr : Stops rest) :
    expPart (es ++ rest) = (es, rest) := by
  rcases he with rfl | ⟨sign, c, t, rfl, hsign, hd⟩
  · exact expPart_of_stops hr
  · have hspan := spanDigits_append hd hr.noDigit
    rw [List.cons_append] at hspan
    have hsplit : expSign (sign ++ c :: (t ++ rest)) = (sign, c :: (t ++ rest)) := by
      rcases hsign with rfl | rfl | rfl
      · -- without a sign the exponent starts with a digit
        have hc := hd c (List.mem_cons_self ..)
        rw [List.nil_append]
        unfold expSign
        split
        case h_1 h => obtain ⟨rfl, -⟩ := List.cons.inj h; simp [Char.isDigit] at hc
        case h_2 h => obtain ⟨rfl, -⟩ := List.cons.inj h; simp [Char.isDigit] at hc
        case h_3 => rfl
      · rfl
      · rfl
    rw [List.cons_append, List.append_assoc, List.cons_append]
    simp only [expPart, true_or, if_true, hsplit, hspan]

theorem fracPart_append {fs rest : List Char} (hf : FracText fs) (hr : NoDigit rest)
    (hdot : ∀ cs, rest ≠ '.' :: cs) : fracPart (fs ++ rest) = (fs, rest) := by
  rcases hf with rfl | ⟨c, t, rfl, hd⟩
  · exact fracPart_of_ne hdot
  · have hspan := spanDigits_append hd hr
    rw [List.cons_append] at hspan
    rw [List.cons_append, List.cons_append]
    simp only [fracPart, hspan]

theorem parseUnsigned_toDigits (floatRepr : String → String) (sign : List Char) (neg : Bool)
    (n : Nat) {rest : List Char} (hr : Stops rest) :
    parseUnsigned floatRepr sign neg (Nat.toDigits 10 n ++ rest) =
      some (.int (if neg then -(n : Int) else n), rest) := by
  simp only [parseUnsigned, intPart_append (intText_toDigits n) hr.noDigit, fracPart_of_stops hr,
    expPart_of_stops hr, and_self, if_true, Nat.ofDigitChars_ten_toDigits]

/-- After the fraction comes neither a digit nor a second point. -/
theorem expText_append_head {es rest : List Char} (he : ExpText es) (hr : Stops rest) :
    NoDigit (es ++ rest) ∧ ∀ cs, es ++ rest ≠ '.' :: cs := by
  rcases he with rfl | ⟨sign, c, t, rfl, -, -⟩
  · refine ⟨hr.noDigit, ?_⟩
    rintro cs rfl
    rcases hr '.' cs rfl with h | h | h | h <;> exact absurd h (by decide)
  · refine ⟨?_, fun cs h => absurd (List.cons.inj h).1 (by decide)⟩
    intro d ds h
    obtain ⟨rfl, -⟩ := List.cons.inj h
    rfl

theorem parseUnsigned_float (floatRepr : String → String) (sign : List Char) (neg : Bool)
    {ds fs es rest : List Char} (hd : IntText ds) (hf : FracText fs) (he : ExpText es)
    (hne : ¬ (fs = [] ∧ es = [])) (hr : Stops rest) :
    parseUnsigned floatRepr sign neg (ds ++ (fs ++ (es ++ rest))) =
      some (.float (floatRepr (String.ofList (sign ++ ds ++ fs ++ es))), rest) := by
  obtain ⟨hdigit, hdot⟩ := expText_append_head he hr
  have hfrac : NoDigit (fs ++ (es ++ rest)) := by
    rcases hf with rfl | ⟨c, t, rfl, -⟩
    · exact hdigit
    · intro d ds h
      obtain ⟨rfl, -⟩ := List.cons.inj h
      rfl
  simp only [parseUnsigned, intPart_append hd hfrac, fracPart_append hf hdigit hdot,
    expPart_append he hr, if_neg hne]

theorem IntText.head {ds : List Char} (hd : IntText ds) :
    ∃ c t, ds = c :: t ∧ c.isDigit = true := by
  rcases hd with rfl | ⟨c, t, rfl, -, hd⟩
  · exact ⟨'0', [], rfl, rfl⟩
  · exact ⟨c, t, rfl, hd c (List.mem_cons_self ..)⟩

theorem parseValue_minus (floatRepr : String → String) (fuel : Nat) {c : Char} {cs : List Char}
    (hc : c.isDigit = true) :
    parseValue floatRepr (fuel + 1) ('-' :: c :: cs) =
      parseUnsigned floatRepr ['-'] true (c :: cs) := by
  have hI : c ≠ 'I' := by
    rintro rfl
    simp [Char.isDigit] at hc
  unfold parseValue
  split <;> simp_all

theorem parseValue_digit (floatRepr : String → String) (fuel : Nat) {c : Char} {cs : List Char}
    (hc : c.isDigit = true) :
    parseValue floatRepr (fuel + 1) (c :: cs) = parseUnsigned floatRepr [] false (c :: cs) := by
  unfold parseValue
  split
  case h_11 => rfl
  all_goals
    rename_i h
    obtain ⟨rfl, -⟩ := List.cons.inj h
    simp [Char.isDigit] at hc

theorem parseValue_intChars (floatRepr : String → String) (fuel : Nat) (n : Int)
    {rest : List Char} (hr : Stops rest) :
    parseValue floatRepr (fuel + 1) (intChars n ++ rest) = some (.int n, rest) := by
  cases n with
  | ofNat n =>
      obtain ⟨c, t, heq⟩ : ∃ c t, Nat.toDigits 10 n = c :: t :=
        List.exists_cons_of_ne_nil Nat.toDigits_ne_nil
      have hc : c.isDigit = true := toDigits_isDigit n c (by simp [heq])
      have hval := parseUnsigned_toDigits floatRepr [] false n hr
      rw [intChars, heq, List.cons_append] at *
      rw [parseValue_digit floatRepr fuel hc, hval]
      rfl
  | negSucc n =>
      obtain ⟨c, t, heq, -, hc⟩ := toDigits_head (Nat.succ_pos n)
      have hval := parseUnsigned_toDigits floatRepr ['-'] true (n + 1) hr
      rw [intChars, heq, List.cons_append, List.cons_append] at *
      rw [parseValue_minus floatRepr fuel hc, hval]
      rfl

/-- A floating-point number is read back as the text its value prints as. -/
theorem parseValue_floatText (floatRepr : String → String) (fuel : Nat) {cs rest : List Char}
    (hcs : FloatText cs) (hr : Stops rest) :
    parseValue floatRepr (fuel + 1) (cs ++ rest) =
      some (.float (floatRepr (String.ofList cs)), rest) := by
  obtain ⟨sign, ds, fs, es, rfl, hsign, hd, hf, he, hne⟩ := hcs
  obtain ⟨c, t, rfl, hc⟩ := hd.head
  rcases hsign with rfl | rfl
  · have hval := parseUnsigned_float floatRepr [] false hd hf he hne hr
    simp only [List.nil_append, List.append_assoc, List.cons_append] at hval ⊢
    rw [parseValue_digit floatRepr fuel hc, hval]
  · have hval := parseUnsigned_float floatRepr ['-'] true hd hf he hne hr
    simp only [List.nil_append, List.append_assoc, List.cons_append] at hval ⊢
    rw [parseValue_minus floatRepr fuel hc, hval]

/-! ### Values -/

theorem quote_opens (s : String) : Opens (quote s) :=
  ⟨'"', _, rfl, by decide, by decide, by decide⟩

theorem intChars_opens (n : Int) : Opens (intChars n) := by
  cases n with
  | ofNat n =>
      obtain ⟨c, t, heq⟩ : ∃ c t, Nat.toDigits 10 n = c :: t :=
        List.exists_cons_of_ne_nil Nat.toDigits_ne_nil
      exact ⟨c, t, heq, isDigit_opens (toDigits_isDigit n c (by simp [heq]))⟩
  | negSucc n => exact ⟨'-', _, rfl, by decide, by decide, by decide⟩

theorem floatText_opens {cs : List Char} (h : FloatText cs) : Opens cs := by
  obtain ⟨sign, ds, fs, es, rfl, hsign, hd, -⟩ := h
  obtain ⟨c, t, rfl, hc⟩ := hd.head
  rcases hsign with rfl | rfl
  · exact ⟨c, _, rfl, isDigit_opens hc⟩
  · exact ⟨'-', _, rfl, by decide, by decide, by decide⟩

variable {floatRepr : String → String}

theorem dumpsChars_opens {v : Json} (hv : Writable floatRepr v) : Opens (dumpsChars v) := by
  cases v with
  | float r =>
      simp only [Writable] at hv
      simpa only [dumpsChars] using floatText_opens hv.1
  | int n => simpa only [dumpsChars] using intChars_opens n
  | str s => simpa only [dumpsChars] using quote_opens s
  | bool b => cases b <;> exact ⟨_, _, by rw [dumpsChars], by decide, by decide, by decide⟩
  | null => exact ⟨_, _, by rw [dumpsChars], by decide, by decide, by decide⟩
  | arr xs => exact ⟨_, _, by rw [dumpsChars], by decide, by decide, by decide⟩
  | obj kvs => exact ⟨_, _, by rw [dumpsChars], by decide, by decide, by decide⟩

theorem dumpsElems_opens {x : Json} (xs : List Json) (hx : Writable floatRepr x) :
    Opens (dumpsElems (x :: xs)) := by
  cases xs with
  | nil => simpa only [dumpsElems] using dumpsChars_opens hx
  | cons y xs => simpa only [dumpsElems] using (dumpsChars_opens hx).append _

theorem dumpsMembers_opens (m : String × Json) (kvs : List (String × Json)) :
    Opens (dumpsMembers (m :: kvs)) := by
  cases kvs with
  | nil => simpa only [dumpsMembers] using (quote_opens m.1).append _
  | cons m' kvs => simpa only [dumpsMembers] using (quote_opens m.1).append _

/-- A dictionary with distinct keys is its own reading. -/
theorem dictOf_eq_self {kvs : List (String × Json)} (h : (kvs.map Prod.fst).Nodup) :
    dictOf kvs = kvs := by
  suffices hgen : ∀ (kvs d : List (String × Json)),
      ((d ++ kvs).map Prod.fst).Nodup → kvs.foldl dictInsert d = d ++ kvs by
    exact hgen kvs [] (by simpa using h)
  intro kvs
  induction kvs with
  | nil => simp
  | cons m kvs ih =>
      intro d hd
      have hm : m.1 ∉ d.map Prod.fst := by
        intro hmem
        rw [List.map_append, List.nodup_append] at hd
        exact hd.2.2 m.1 hmem m.1 (by simp) rfl
      have hins : dictInsert d m = d ++ [m] := by simp only [dictInsert, if_neg hm]
      rw [List.foldl_cons, hins, ih (d ++ [m]) (by simpa using hd), List.append_assoc,
        List.singleton_append]

mutual

theorem parseValue_dumpsChars (floatRepr : String → String) : ∀ (v : Json) (fuel : Nat)
    (rest : List Char), Writable floatRepr v → Stops rest → 2 * (dumpsChars v).length ≤ fuel →
    parseValue floatRepr fuel (dumpsChars v ++ rest) = some (v, rest)
  | v, 0, rest, hv, _, hf => by
      obtain ⟨c, t, heq, -⟩ := dumpsChars_opens hv
      simp [heq] at hf
  | .null, fuel + 1, rest, _, _, _ => by simp [dumpsChars, parseValue]
  | .bool true, fuel + 1, rest, _, _, _ => by simp [dumpsChars, parseValue]
  | .bool false, fuel + 1, rest, _, _, _ => by simp [dumpsChars, parseValue]
  | .int n, fuel + 1, rest, _, hr, _ => by
      rw [dumpsChars, parseValue_intChars floatRepr fuel n hr]
  | .float r, fuel + 1, rest, hv, hr, _ => by
      simp only [Writable] at hv
      rw [dumpsChars, parseValue_floatText floatRepr fuel hv.1 hr, String.ofList_toList, hv.2]
  | .str s, fuel + 1, rest, _, _, _ => by
      simp only [dumpsChars, quote, List.cons_append, List.append_assoc, List.nil_append,
        parseValue, parseBody_flatMap, String.ofList_toList]
  | .arr [], fuel + 1, rest, _, _, _ => by
      simp [dumpsChars, dumpsElems, parseValue, skipWs, isBlank]
  | .arr (x :: xs), fuel + 1, rest, hv, _, hf => by
      have hxs : WritableElems floatRepr (x :: xs) := by simpa only [Writable] using hv
      have hop := (dumpsElems_opens xs (by simpa only [WritableElems] using hxs.1)).append
        (']' :: rest)
      have hlen : 2 * (dumpsElems (x :: xs)).length + 1 ≤ fuel := by
        simp only [dumpsChars, List.length_cons, List.length_append, List.length_nil] at hf
        omega
      have ih := parseElems_dumpsElems floatRepr x xs fuel rest hxs hlen
      rw [dumpsChars, List.cons_append, List.append_assoc, List.singleton_append]
      simp only [parseValue, hop.skipWs]
      obtain ⟨c, t, heq, -, hne, -⟩ := hop
      rw [heq] at ih ⊢
      split
      case h_1 h => exact absurd (List.cons.inj h).1 hne
      case h_2 => rw [ih]
  | .obj [], fuel + 1, rest, _, _, _ => by
      simp [dumpsChars, dumpsMembers, parseValue, skipWs, isBlank]
  | .obj (m :: kvs), fuel + 1, rest, hv, _, hf => by
      have hkvs : WritableMembers floatRepr (m :: kvs) := by
        simp only [Writable] at hv
        exact hv.2
      have hdict : dictOf (m :: kvs) = m :: kvs := by
        simp only [Writable] at hv
        exact dictOf_eq_self hv.1
      have hop := (dumpsMembers_opens m kvs).append ('}' :: rest)
      have hlen : 2 * (dumpsMembers (m :: kvs)).length + 1 ≤ fuel := by
        simp only [dumpsChars, List.length_cons, List.length_append, List.length_nil] at hf
        omega
      have ih := parseMembers_dumpsMembers floatRepr m kvs fuel rest hkvs hlen
      rw [dumpsChars, List.cons_append, List.append_assoc, List.singleton_append]
      simp only [parseValue, hop.skipWs]
      obtain ⟨c, t, heq, -, -, hne⟩ := hop
      rw [heq] at ih ⊢
      split
      case h_1 h => exact absurd (List.cons.inj h).1 hne
      case h_2 => rw [ih]; simp only [hdict]

theorem parseElems_dumpsElems (floatRepr : String → String) : ∀ (x : Json) (xs : List Json)
    (fuel : Nat) (rest : List Char), WritableElems floatRepr (x :: xs) →
    2 * (dumpsElems (x :: xs)).length + 1 ≤ fuel →
    parseElems floatRepr fuel (dumpsElems (x :: xs) ++ ']' :: rest) = some (x :: xs, rest)
  | _, _, 0, _, _, hf => absurd hf (by omega)
  | x, [], fuel + 1, rest, hxs, hf => by
      simp only [WritableElems] at hxs
      simp only [dumpsElems] at hf ⊢
      have ih := parseValue_dumpsChars floatRepr x fuel (']' :: rest) hxs.1
        (Stops.cons (by simp) rest) (by omega)
      simp only [parseElems, ih, skipWs_cons (show isBlank ']' = false from rfl)]
  | x, y :: ys, fuel + 1, rest, hxs, hf => by
      have hys : WritableElems floatRepr (y :: ys) := by
        simp only [WritableElems] at hxs ⊢
        exact hxs.2
      have hy : Writable floatRepr y := by
        simp only [WritableElems] at hys
        exact hys.1
      simp only [WritableElems] at hxs
      simp only [dumpsElems, List.length_append, List.length_cons] at hf
      have ih := parseValue_dumpsChars floatRepr x fuel
        (',' :: ' ' :: (dumpsElems (y :: ys) ++ ']' :: rest)) hxs.1
        (Stops.cons (by simp) _) (by omega)
      have ih' := parseElems_dumpsElems floatRepr y ys fuel rest hys (by omega)
      have hop := (dumpsElems_opens ys hy).append (']' :: rest)
      have hws : skipWs (' ' :: (dumpsElems (y :: ys) ++ ']' :: rest)) =
          dumpsElems (y :: ys) ++ ']' :: rest := hop.skipWs
      rw [dumpsElems, List.append_assoc, List.cons_append, List.cons_append]
      simp only [parseElems, ih, skipWs_cons (show isBlank ',' = false from rfl), hws, ih']

theorem parseMembers_dumpsMembers (floatRepr : String → String) : ∀ (m : String × Json)
    (kvs : List (String × Json)) (fuel : Nat) (rest : List Char),
    WritableMembers floatRepr (m :: kvs) →
    2 * (dumpsMembers (m :: kvs)).length + 1 ≤ fuel →
    parseMembers floatRepr fuel (dumpsMembers (m :: kvs) ++ '}' :: rest) = some (m :: kvs, rest)
  | _, _, 0, _, _, hf => absurd hf (by omega)
  | (k, v), [], fuel + 1, rest, hkvs, hf => by
      simp only [WritableMembers] at hkvs
      simp only [dumpsMembers, List.length_append, List.length_cons] at hf
      have ih := parseValue_dumpsChars floatRepr v fuel ('}' :: rest) hkvs.1
        (Stops.cons (by simp) rest) (by omega)
      have hws : skipWs (' ' :: (dumpsChars v ++ '}' :: rest)) = dumpsChars v ++ '}' :: rest :=
        ((dumpsChars_opens hkvs.1).append _).skipWs
      simp only [dumpsMembers, quote, List.cons_append, List.append_assoc, List.nil_append,
        parseMembers, parseBody_flatMap, skipWs_cons (show isBlank ':' = false from rfl),
        hws, ih, skipWs_cons (show isBlank '}' = false from rfl), String.ofList_toList]
  | (k, v), m' :: kvs, fuel + 1, rest, hkvs, hf => by
      have hrest : WritableMembers floatRepr (m' :: kvs) := by
        simp only [WritableMembers] at hkvs
        exact hkvs.2
      simp only [WritableMembers] at hkvs
      simp only [dumpsMembers, List.length_append, List.length_cons] at hf
      have ih := parseValue_dumpsChars floatRepr v fuel
        (',' :: ' ' :: (dumpsMembers (m' :: kvs) ++ '}' :: rest)) hkvs.1
        (Stops.cons (by simp) _) (by omega)
      have ih' := parseMembers_dumpsMembers floatRepr m' kvs fuel rest hrest (by omega)
      have hws : ∀ cs, skipWs (' ' :: (dumpsChars v ++ cs)) = dumpsChars v ++ cs :=
        fun cs => ((dumpsChars_opens hkvs.1).append cs).skipWs
      have hws' : skipWs (' ' :: (dumpsMembers (m' :: kvs) ++ '}' :: rest)) =
          dumpsMembers (m' :: kvs) ++ '}' :: rest :=
        ((dumpsMembers_opens m' kvs).append _).skipWs
      simp only [dumpsMembers, quote, List.cons_append, List.append_assoc, List.nil_append,
        parseMembers, parseBody_flatMap, skipWs_cons (show isBlank ':' = false from rfl),
        hws, ih, skipWs_cons (show isBlank ',' = false from rfl), hws', ih', String.ofList_toList]

end

/-- **Round trip.** `loads` reads back every value `dumps` writes without loss. -/
theorem loads_dumps {v : Json} (hv : Writable floatRepr v) :
    loads floatRepr (dumps v) = some v := by
  have h := parseValue_dumpsChars floatRepr v (2 * (dumpsChars v).length + 1) [] hv Stops.nil
    (by omega)
  rw [List.append_nil] at h
  simp only [loads, dumps, String.toList_ofList, (dumpsChars_opens hv).skipWs, h]
  simp [skipWs]

/-- A list of strings is written without loss. -/
theorem writable_strings (floatRepr : String → String) (l : List String) :
    Writable floatRepr (.arr (l.map .str)) := by
  simp only [Writable]
  induction l with
  | nil => trivial
  | cons s l ih => exact ⟨trivial, ih⟩

/-! ## Dictionaries -/

theorem writableMembers_iff {floatRepr : String → String} {kvs : List (String × Json)} :
    WritableMembers floatRepr kvs ↔ ∀ m ∈ kvs, Writable floatRepr m.2 := by
  induction kvs with
  | nil => simp [WritableMembers]
  | cons m kvs ih =>
      obtain ⟨k, v⟩ := m
      simp only [WritableMembers, ih, List.forall_mem_cons]

theorem map_fst_replace (d : List (String × Json)) (m : String × Json) :
    (d.map fun kv => if kv.1 = m.1 then m else kv).map Prod.fst = d.map Prod.fst := by
  rw [List.map_map]
  refine List.map_congr_left fun kv _ => ?_
  by_cases h : kv.1 = m.1 <;> simp [h]

/-- Writing one key keeps a dictionary writable. -/
theorem Writable.dictInsert {floatRepr : String → String} {d : List (String × Json)}
    {m : String × Json} (hd : Writable floatRepr (.obj d)) (hm : Writable floatRepr m.2) :
    Writable floatRepr (.obj (dictInsert d m)) := by
  simp only [Writable, writableMembers_iff] at hd ⊢
  unfold Json.dictInsert
  split
  · refine ⟨(map_fst_replace d m).symm ▸ hd.1, ?_⟩
    intro n hn
    obtain ⟨kv, hkv, rfl⟩ := List.mem_map.mp hn
    by_cases h : kv.1 = m.1
    · rw [if_pos h]
      exact hm
    · rw [if_neg h]
      exact hd.2 kv hkv
  · rename_i hnot
    constructor
    · rw [List.map_append, List.nodup_append]
      refine ⟨hd.1, List.nodup_singleton _, ?_⟩
      intro k hk k' hk' heq
      obtain rfl := List.mem_singleton.mp hk'
      exact hnot (heq ▸ hk)
    · intro n hn
      rcases List.mem_append.mp hn with h | h
      · exact hd.2 n h
      · rw [List.mem_singleton.mp h]
        exact hm

theorem lookup_replace_of_ne {d : List (String × Json)} {m : String × Json} {k : String}
    (hk : k ≠ m.1) : (d.map fun kv => if kv.1 = m.1 then m else kv).lookup k = d.lookup k := by
  obtain ⟨name, value⟩ := m
  induction d with
  | nil => rfl
  | cons kv d ih =>
      obtain ⟨k', v⟩ := kv
      by_cases h : k' = name
      · -- the replaced item is under another key than `k`
        subst h
        simp only [List.map_cons, if_true, List.lookup_cons, ih]
        rw [beq_eq_false_iff_ne.mpr hk]
      · simp only [List.map_cons, if_neg h, List.lookup_cons, ih]

/-- Writing one key of a dictionary leaves the others. -/
theorem lookup_dictInsert_of_ne {d : List (String × Json)} {m : String × Json} {k : String}
    (hk : k ≠ m.1) : (dictInsert d m).lookup k = d.lookup k := by
  unfold dictInsert
  split
  · exact lookup_replace_of_ne hk
  · rw [List.lookup_append]
    have hlast : List.lookup k [m] = none := by
      simpa using hk
    rw [hlast, Option.or_none]

/-- A key that is there is found with what was written. -/
theorem lookup_dictInsert_self {d : List (String × Json)} {m : String × Json}
    (hm : d.lookup m.1 ≠ none) : (dictInsert d m).lookup m.1 = some m.2 := by
  obtain ⟨name, value⟩ := m
  have hmem : name ∈ d.map Prod.fst := by
    by_contra hnot
    refine hm (List.lookup_eq_none_iff.mpr ?_)
    intro kv hkv
    exact bne_iff_ne.mpr fun heq => hnot (List.mem_map.mpr ⟨kv, hkv, heq.symm⟩)
  rw [dictInsert, if_pos hmem]
  clear hm
  induction d with
  | nil => exact absurd hmem (by simp)
  | cons kv d ih =>
      obtain ⟨k', v⟩ := kv
      by_cases h : k' = name
      · simp [h]
      · have hne : (name == k') = false := beq_eq_false_iff_ne.mpr fun heq => h heq.symm
        have hrest : name ∈ d.map Prod.fst := by
          rcases List.mem_cons.mp hmem with heq | hrest
          · exact absurd heq.symm h
          · exact hrest
        simp only [List.map_cons, if_neg h, List.lookup_cons, hne]
        exact ih hrest

end Json
