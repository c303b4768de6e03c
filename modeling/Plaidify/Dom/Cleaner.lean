import Plaidify.Lib.Text

/-!
# The DOM cleaner

`_DOMCleaner` of `src/src/core/dom_simplifier.py`, a parser of HTML that drops
stripped elements with all that is in them and gives every other element a number.

Whether it is in a stripped element it knows by a depth alone, which every start tag
raises and every end tag lowers. What it is told are the tokens that the parser makes
of the page; comments change nothing.
-/

namespace Plaidify.Dom

/-! ## Constants -/

/-- Elements that are stripped with their content. -/
def stripTags : List String :=
  ["script", "style", "svg", "noscript", "iframe", "link", "meta", "head", "template", "object",
    "embed", "applet"]

/-- Noise: the tag goes, its content stays. -/
def skipTags : List String :=
  ["br", "hr", "wbr", "col", "colgroup", "source", "track", "param"]

/-- Tags without content. -/
def voidTags : List String :=
  ["area", "base", "br", "col", "embed", "hr", "img", "input", "link", "meta", "param", "source",
    "track", "wbr"]

def keepAttrs : List String :=
  ["id", "class", "name", "type", "value", "placeholder", "href", "src", "alt", "title", "role",
    "aria-label", "aria-labelledby", "aria-describedby", "for", "action", "method", "data-pid"]

/-! ## Tokens and pieces -/

/-- What the parser delivers. -/
inductive Token where
  | start (tag : String) (attrs : List (String × Option String))
  | finish (tag : String)
  | data (text : String)
deriving DecidableEq, Repr

/-- What one call writes to the output. -/
inductive Piece where
  | opening (tag : String) (attrs : List (String × String))
  | closing (tag : String)
  | text (text : String)
deriving DecidableEq, Repr

structure ElementInfo where
  tag : String
  pid : String
  text : String := ""
  attrs : List (String × String) := []
  childrenPids : List String := []
deriving DecidableEq, Repr

/-! ## Helpers -/

/-- `re.sub(r"\s+", " ", text)`; the flag tells that the character before was a
space. -/
def subSpaces : Bool → List Char → List Char
  | _, [] => []
  | inRun, c :: cs =>
      if Text.isSpace c then
        if inRun then subSpaces true cs else ' ' :: subSpaces true cs
      else c :: subSpaces false cs

/-- `_collapse_whitespace`. -/
def collapseWhitespace (text : String) : String :=
  Text.strip (String.ofList (subSpaces false text.toList))

/-- `d[key] = value`. -/
def setAttr (key value : String) : List (String × String) → List (String × String)
  | [] => [(key, value)]
  | (k, v) :: d => if k = key then (key, value) :: d else (k, v) :: setAttr key value d

/-! ## The cleaner -/

structure Cleaner where
  output : List Piece := []
  elementMap : List (String × ElementInfo) := []
  pidCounter : Nat := 0
  skipDepth : Nat := 0
  tagStack : List String := []
deriving DecidableEq, Repr

/-- The pid of a number. -/
def pid (n : Nat) : String :=
  "p" ++ n.repr

/-- A change of the entry of a pid, where there is one. -/
def updateInfo (key : String) (f : ElementInfo → ElementInfo)
    (elementMap : List (String × ElementInfo)) : List (String × ElementInfo) :=
  elementMap.map fun entry => if entry.1 = key then (entry.1, f entry.2) else entry

section

-- `str.lower`
variable (lower : String → String)

/-- `attr_dict`, without the pid. -/
def attrDict (attrs : List (String × Option String)) : List (String × String) :=
  attrs.foldl (fun d attr =>
    match attr.2 with
    | some value =>
        if lower attr.1 ∈ keepAttrs then setAttr (lower attr.1) value d else d
    | none => d) []

/-- `handle_starttag`. -/
def handleStarttag (tag : String) (attrs : List (String × Option String)) (c : Cleaner) :
    Cleaner :=
  let tag := lower tag
  if 0 < c.skipDepth then
    if tag ∉ voidTags then { c with skipDepth := c.skipDepth + 1 } else c
  else if tag ∈ stripTags then
    if tag ∉ voidTags then { c with skipDepth := c.skipDepth + 1 } else c
  else if tag ∈ skipTags then c
  else
    let pidCounter := c.pidCounter + 1
    let pid := pid pidCounter
    let attrDict := setAttr "data-pid" pid (attrDict lower attrs)
    let info : ElementInfo := { tag, pid, attrs := attrDict.filter fun kv => kv.1 ≠ "data-pid" }
    let elementMap := c.elementMap ++ [(pid, info)]
    let elementMap := match c.tagStack with
      | parentPid :: _ =>
          updateInfo parentPid (fun info =>
            { info with childrenPids := info.childrenPids ++ [pid] }) elementMap
      | [] => elementMap
    { c with
      output := c.output ++ [.opening tag attrDict]
      elementMap, pidCounter
      tagStack := if tag ∈ voidTags then c.tagStack else pid :: c.tagStack }

/-- `handle_endtag`. -/
def handleEndtag (tag : String) (c : Cleaner) : Cleaner :=
  let tag := lower tag
  if 0 < c.skipDepth then
    if tag ∉ voidTags then { c with skipDepth := c.skipDepth - 1 } else c
  else if tag ∈ stripTags ∨ tag ∈ skipTags ∨ tag ∈ voidTags then c
  else { c with output := c.output ++ [.closing tag], tagStack := c.tagStack.tail }

/-- `handle_data`. -/
def handleData (data : String) (c : Cleaner) : Cleaner :=
  if 0 < c.skipDepth then c
  else
    let text := collapseWhitespace data
    if text = "" then c
    else
      { c with
        output := c.output ++ [.text text]
        elementMap := match c.tagStack with
          | pid :: _ =>
              updateInfo pid (fun info =>
                { info with
                  text :=
                    if info.text ≠ "" then Text.strip (info.text ++ " " ++ text) else text })
                c.elementMap
          | [] => c.elementMap }

def handle (c : Cleaner) : Token → Cleaner
  | .start tag attrs => handleStarttag lower tag attrs c
  | .finish tag => handleEndtag lower tag c
  | .data text => handleData text c

/-- The cleaner that has been fed these tokens. -/
def feed (tokens : List Token) : Cleaner :=
  tokens.foldl (handle lower) {}

end

/-! ## Collapsed texts -/

/-- What is behind a word: nothing, or a blank and the other words. -/
def afterWord : List (List Char) → List Char
  | [] => []
  | words => ' ' :: [' '].intercalate words

theorem intercalate_cons (word : List Char) (words : List (List Char)) :
    [' '].intercalate (word :: words) = word ++ afterWord words := by
  cases words with
  | nil => simp [afterWord]
  | cons next words => simp [afterWord, List.intercalate_cons_cons]

/-- One blank stands between two words, also when the text goes on in a run of spaces
or in a word. -/
theorem rdropWhile_subSpaces (text : List Char) :
    (subSpaces true text).rdropWhile Text.isSpace =
        [' '].intercalate (Text.words Text.isSpace text) ∧
      (subSpaces false text).rdropWhile Text.isSpace =
        text.takeWhile (fun c => !Text.isSpace c) ++
          afterWord (Text.words Text.isSpace (text.dropWhile fun c => !Text.isSpace c)) := by
  induction text with
  | nil => exact ⟨rfl, rfl⟩
  | cons c text ih =>
    obtain ⟨ihrun, ihword⟩ := ih
    cases hc : Text.isSpace c with
    | true =>
      refine ⟨?_, ?_⟩
      · rw [subSpaces, if_pos hc, if_pos rfl, ihrun, Text.words_cons_separator hc]
      · -- the run of spaces begins here, and is dropped if no word follows
        rw [subSpaces, if_pos hc, if_neg Bool.false_ne_true,
          Text.rdropWhile_cons_of_pos (by decide), ihrun, List.takeWhile_cons_of_neg (by simp [hc]),
          List.dropWhile_cons_of_neg (by simp [hc]), Text.words_cons_separator hc, List.nil_append]
        cases hwords : Text.words Text.isSpace text with
        | nil => rfl
        | cons word words =>
          have hne : word ≠ [] := Text.ne_nil_of_mem_words (hwords ▸ List.mem_cons_self)
          rw [if_neg (by rw [intercalate_cons]; simp [hne])]
          rfl
    | false =>
      have hkept : ∀ rest,
          (c :: rest).rdropWhile Text.isSpace = c :: rest.rdropWhile Text.isSpace := by
        intro rest
        exact Text.rdropWhile_append_cons (a := []) hc
      refine ⟨?_, ?_⟩
      · rw [subSpaces, if_neg (by simp [hc]), hkept, ihword, Text.words_cons hc, intercalate_cons,
          List.cons_append]
      · rw [subSpaces, if_neg (by simp [hc]), hkept, ihword]
        simp only [List.takeWhile_cons, List.dropWhile_cons, hc, Bool.not_false, if_true,
          List.cons_append]

/-- The words of the text, joined by one blank. -/
theorem toList_collapseWhitespace (text : String) :
    (collapseWhitespace text).toList =
      [' '].intercalate (Text.words Text.isSpace text.toList) := by
  have hstart : (subSpaces false text.toList).dropWhile Text.isSpace =
      (subSpaces true text.toList).dropWhile Text.isSpace := by
    cases text.toList with
    | nil => rfl
    | cons c rest =>
      by_cases hc : Text.isSpace c = true
      · have hblank : Text.isSpace ' ' = true := by decide
        rw [subSpaces, subSpaces, if_pos hc, if_neg Bool.false_ne_true, if_pos hc, if_pos rfl,
          List.dropWhile_cons_of_pos hblank]
      · rw [subSpaces, subSpaces, if_neg hc, if_neg hc]
  unfold collapseWhitespace
  rw [Text.toList_strip, String.toList_ofList, hstart, ← Text.dropWhile_rdropWhile,
    (rdropWhile_subSpaces text.toList).1]
  -- the first word does not begin with a space
  cases hwords : Text.words Text.isSpace text.toList with
  | nil => rfl
  | cons word words =>
    have hmem : word ∈ Text.words Text.isSpace text.toList := hwords ▸ List.mem_cons_self
    cases word with
    | nil => exact absurd rfl (Text.ne_nil_of_mem_words hmem)
    | cons c word =>
      have hc : Text.isSpace c = false := Text.not_separates_of_mem_words hmem List.mem_cons_self
      rw [intercalate_cons, List.cons_append, List.dropWhile_cons_of_neg (by simp [hc])]

/-! ## Runs -/

theorem feed_concat (lower : String → String) (tokens : List Token) (token : Token) :
    feed lower (tokens ++ [token]) = handle lower (feed lower tokens) token := by
  unfold feed
  rw [List.foldl_append]
  rfl

end Plaidify.Dom
