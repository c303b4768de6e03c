import Plaidify.Dom.Cleaner

/-!
# The parser under the cleaner

`html.parser.HTMLParser` of Python 3.11 with `convert_charrefs`, the base class of
`_DOMCleaner`, as far as one call of `feed` goes: from the text of a page to the tokens
that the cleaner is told. What is incomplete at the end of the text waits for more text,
which never comes, since the cleaner is not closed.

Comments, declarations and processing instructions have no tokens. Three things are
parameters: `str.lower`, where a marked section (`<![…`) ends, and what character
references stand for.
-/

namespace Plaidify.Dom

/-! ## Character references -/

/-- What `html.unescape` looks up. -/
structure References where
  /-- `html.entities.html5`; names are with or without their semicolon. -/
  named : List Char → Option (List Char)
  /-- The text of a numeric reference. -/
  numeric : Nat → List Char

/-- A character that a name of a reference may hold. -/
def inName (c : Char) : Bool :=
  c ∉ ['\t', '\n', '\x0c', ' ', '<', '&', '#', ';']

def isAsciiDigit (c : Char) : Bool :=
  '0' ≤ c && c ≤ '9'

def isHexDigit (c : Char) : Bool :=
  isAsciiDigit c || ('a' ≤ c && c ≤ 'f') || ('A' ≤ c && c ≤ 'F')

def isAsciiLetter (c : Char) : Bool :=
  ('a' ≤ c && c ≤ 'z') || ('A' ≤ c && c ≤ 'Z')

/-- The value of digits in base 16; decimal digits are among them. -/
def digitsValue (base : Nat) (ds : List Char) : Nat :=
  ds.foldl (fun n d => base * n + (if isAsciiDigit d then d.toNat - 48 else d.toLower.toNat - 87)) 0

/-- `;?`. -/
def semicolon : List Char → List Char
  | ';' :: _ => [';']
  | _ => []

section

variable (refs : References)

/-- The longest front of a name that is a name itself, of at least two characters;
`n` characters are tried first. -/
def longestName (name : List Char) : Nat → List Char
  | n + 2 =>
      match refs.named (name.take (n + 2)) with
      | some text => text ++ name.drop (n + 2)
      | none => longestName name (n + 1)
  | _ => '&' :: name

/-- What a reference after its ampersand stands for, and how many characters it has. -/
def reference : List Char → Option (List Char × Nat)
  | '#' :: cs =>
      let decimal := cs.takeWhile isAsciiDigit
      if decimal ≠ [] then
        some (refs.numeric (digitsValue 10 decimal),
          1 + decimal.length + (semicolon (cs.drop decimal.length)).length)
      else
        match cs with
        | x :: cs =>
            let hex := cs.takeWhile isHexDigit
            if (x = 'x' ∨ x = 'X') ∧ hex ≠ [] then
              some (refs.numeric (digitsValue 16 hex),
                2 + hex.length + (semicolon (cs.drop hex.length)).length)
            else none
        | [] => none
  | cs =>
      let front := (cs.takeWhile inName).take 32
      if front = [] then none
      else
        let name := front ++ semicolon (cs.drop front.length)
        some ((refs.named name).getD (longestName refs name (name.length - 1)), name.length)

/-- `html.unescape`; the number counts the characters of a reference that are left. -/
def unescapeFrom : Nat → List Char → List Char
  | _, [] => []
  | n + 1, _ :: cs => unescapeFrom n cs
  | 0, c :: cs =>
      if c = '&' then
        match reference refs cs with
        | some (text, n) => text ++ unescapeFrom n cs
        | none => c :: unescapeFrom 0 cs
      else c :: unescapeFrom 0 cs

def unescape (cs : List Char) : List Char :=
  unescapeFrom refs 0 cs

end

/-! ## Start tags -/

/-- A character of a tag's name. -/
def inTag (c : Char) : Bool :=
  c ∉ ['\t', '\n', '\r', '\x0c', ' ', '/', '>', '\x00']

/-- A character of an attribute's name, the first one apart. -/
def inAttr (c : Char) : Bool :=
  !Text.isSpace c && c ∉ ['/', '=', '>']

/-- A character of a value without quotes. -/
def inBare (c : Char) : Bool :=
  !Text.isSpace c && c ≠ '>'

/-- `(?:\s|/(?!>))*`. -/
def skipSlashes : List Char → List Char
  | [] => []
  | c :: cs =>
      if Text.isSpace c ∨ (c = '/' ∧ cs.head? ≠ some '>') then skipSlashes cs else c :: cs

/-- A value without quotes and what follows it. -/
def bareValue (cs : List Char) : Option (List Char) × List Char :=
  (some (cs.takeWhile inBare), cs.dropWhile inBare)

/-- The value of an attribute, from the end of its name; none when there is more text to
come. A quote that is not closed is read again with a blank less before it, then with one
equals sign less, and at last as the name of an attribute of its own. -/
def attrValue (cs : List Char) : Option (Option (List Char) × List Char) :=
  let blanks := cs.takeWhile Text.isSpace
  let equals := (cs.drop blanks.length).takeWhile (· == '=')
  if equals = [] then some (none, cs)
  else
    let afterEquals := cs.drop (blanks.length + equals.length)
    match afterEquals.dropWhile Text.isSpace with
    | [] => none
    | q :: body =>
        if q = '"' ∨ q = '\'' then
          if q ∈ body then some (some (body.takeWhile (· ≠ q)), (body.dropWhile (· ≠ q)).tail)
          else if (afterEquals.head?.map Text.isSpace) = some true then some (some [], q :: body)
          else if 2 ≤ equals.length then some (bareValue ('=' :: q :: body))
          else if blanks = [] then none
          else some (none, cs)
        else some (bareValue (q :: body))

/-- The attributes of a tag, whether it closes itself, and what follows the tag. -/
def attributes : Nat → List Char →
    Option (List (List Char × Option (List Char)) × Bool × List Char)
  | 0, _ => none
  | fuel + 1, cs =>
      match skipSlashes cs with
      | [] => none
      | c :: cs =>
          if c = '>' then some ([], false, cs)
          else if c = '/' then some ([], true, cs.drop 1)
          else
            match attrValue (cs.dropWhile inAttr) with
            | none => none
            | some (value, rest) =>
                (attributes fuel rest).map fun (attrs, closed, rest) =>
                  ((c :: cs.takeWhile inAttr, value) :: attrs, closed, rest)

/-- What one piece of markup comes to. -/
inductive Step where
  /-- More text is needed. -/
  | incomplete
  /-- Tokens, the element whose raw content follows, if any, and the rest. -/
  | more (tokens : List Token) (rawOf : Option String) (rest : List Char)

/-- Elements whose content is text up to their end tag. -/
def cdataContentElements : List String :=
  ["script", "style"]

section

variable (lower : String → String) (refs : References)

/-- `parse_starttag`, from the name of the tag. -/
def parseStarttag (cs : List Char) : Step :=
  let name := cs.takeWhile inTag
  let rest := cs.dropWhile inTag
  if rest.head? = some '\x00' then .more [.data (String.ofList ('<' :: name))] none rest
  else
    match attributes (rest.length + 1) rest with
    | none => .incomplete
    | some (attrs, closed, rest) =>
        let tag := lower (String.ofList name)
        let attrs := attrs.map fun attr =>
          (lower (String.ofList attr.1),
            attr.2.map fun value => String.ofList (unescape refs value))
        if closed then .more [.start tag attrs, .finish tag] none rest
        else .more [.start tag attrs] (if tag ∈ cdataContentElements then some tag else none) rest

/-! ## Other markup -/

/-- What follows the first `>`. -/
def afterGt (cs : List Char) : Option (List Char) :=
  match cs.dropWhile (· ≠ '>') with
  | [] => none
  | _ :: rest => some rest

/-- `[-.a-zA-Z0-9:_]`. -/
def inEndTag (c : Char) : Bool :=
  isAsciiLetter c || isAsciiDigit c || c ∈ ['-', '.', ':', '_']

/-- `parse_endtag` outside raw content, from behind `</`. -/
def parseEndtag (cs : List Char) : Step :=
  match afterGt cs with
  | none => .incomplete
  | some rest =>
      let named := cs.dropWhile Text.isSpace
      if named.head?.any isAsciiLetter ∧
          ((named.dropWhile inEndTag).dropWhile Text.isSpace).head? = some '>' then
        .more [.finish (lower (String.ofList (named.takeWhile inEndTag)))] none rest
      else if cs.head?.any isAsciiLetter then
        .more [.finish (lower (String.ofList (cs.takeWhile inTag)))] none rest
      else .more [] none rest

end

/-- The end of a comment, `--\s*>`, and what follows it. -/
def afterComment : List Char → Option (List Char)
  | [] => none
  | '-' :: '-' :: cs =>
      match cs.dropWhile Text.isSpace with
      | '>' :: rest => some rest
      | _ => afterComment ('-' :: cs)
  | _ :: cs => afterComment cs

/-- The end tag of raw content, in whatever case, and what follows it. -/
def rawEnd (tag : String) : List Char → Option (List Char)
  | '<' :: '/' :: cs =>
      let named := cs.dropWhile Text.isSpace
      let name := named.take tag.length
      if name.map Char.toLower = tag.toList then
        match (named.drop tag.length).dropWhile Text.isSpace with
        | '>' :: rest => some rest
        | _ => none
      else none
  | _ => none

/-- The raw content up to its end tag, and what follows. -/
def splitRaw (tag : String) : List Char → Option (List Char × List Char)
  | [] => none
  | c :: cs =>
      match rawEnd tag (c :: cs) with
      | some rest => some ([], rest)
      | none => (splitRaw tag cs).map fun (raw, rest) => (c :: raw, rest)

/-- The text may end in a reference that is cut off: there is an ampersand among its last
34 characters and neither a blank nor a semicolon behind the last one. -/
def cutOff (text : List Char) : Bool :=
  let tail := text.reverse.take 34
  tail.contains '&' && (tail.takeWhile (· ≠ '&')).all fun c => !Text.isSpace c && c ≠ ';'

/-! ## The loop -/

section

variable (lower : String → String) (refs : References)
  -- where a marked section ends
  (markedSection : List Char → Option (List Char))

/-- `parse_comment`, `parse_marked_section`, and `parse_html_declaration` otherwise, from
behind `<!`. -/
def afterDeclaration (cs : List Char) : Option (List Char) :=
  if cs.take 2 = ['-', '-'] then afterComment (cs.drop 2)
  else if cs.take 1 = ['['] then markedSection (cs.drop 1)
  else afterGt cs

/-- Markup without tokens. -/
def silent : Option (List Char) → Step
  | some rest => .more [] none rest
  | none => .incomplete

/-- What stands at a `<`, from the character behind it. -/
def markup : List Char → Step
  | [] => .incomplete
  | c :: cs =>
      if isAsciiLetter c then parseStarttag lower refs (c :: cs)
      else if c = '/' then parseEndtag lower cs
      else if c = '?' then silent (afterGt cs)
      else if c = '!' then silent (afterDeclaration markedSection cs)
      else .more [.data "<"] none (c :: cs)

/-- `goahead(0)`, in raw content of an element or outside. -/
def goahead : Nat → Option String → List Char → List Token
  | 0, _, _ => []
  | fuel + 1, some tag, cs =>
      match splitRaw tag cs with
      | none => []
      | some (raw, rest) =>
          (if raw = [] then [] else [.data (String.ofList raw)]) ++
            (.finish tag :: goahead fuel none rest)
  | _ + 1, none, [] => []
  | fuel + 1, none, c :: cs =>
      if c = '<' then
        match markup lower refs markedSection cs with
        | .incomplete => []
        | .more tokens rawOf rest => tokens ++ goahead fuel rawOf rest
      else
        let text := (c :: cs).takeWhile (· ≠ '<')
        let rest := (c :: cs).dropWhile (· ≠ '<')
        if rest = [] ∧ cutOff text then []
        else .data (String.ofList (unescape refs text)) :: goahead fuel none rest

/-- The tokens of a page. -/
def parse (page : String) : List Token :=
  goahead lower refs markedSection (page.toList.length + 1) none page.toList

end

end Plaidify.Dom
