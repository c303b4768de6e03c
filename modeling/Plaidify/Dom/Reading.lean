import Plaidify.Dom.Parser
import Mathlib.Data.List.Basic
import Mathlib.Data.Bool.AllAny

/-!
# Reading tags that were written

The cleaner writes its pieces as HTML: attributes escaped, texts as they are. What the
parser makes of a tag that was written is the tag, with all its attributes
(`parseStarttag_write`, `parseEndtag_write`), whatever their values are.
-/

namespace Plaidify.Dom

/-! ## Writing -/

/-- `value.replace(old, new)` for a character. -/
def replaceChar (old : Char) (new : List Char) (value : List Char) : List Char :=
  value.flatMap fun c => if c = old then new else [c]

/-- `_escape_attr`. -/
def escapeAttr (value : List Char) : List Char :=
  replaceChar '>' ['&', 'g', 't', ';'] <|
    replaceChar '<' ['&', 'l', 't', ';'] <|
      replaceChar '"' ['&', 'q', 'u', 'o', 't', ';'] <|
        replaceChar '&' ['&', 'a', 'm', 'p', ';'] value

/-- `f'{k}="{_escape_attr(v)}"'`. -/
def writeAttr (attr : String × String) : List Char :=
  attr.1.toList ++ '=' :: '"' :: (escapeAttr attr.2.toList ++ ['"'])

/-- `attr_str`. -/
def attrStr (attrs : List (String × String)) : List Char :=
  [' '].intercalate (attrs.map writeAttr)

def Piece.write : Piece → List Char
  | .opening tag attrs =>
      if attrStr attrs ≠ [] then '<' :: (tag.toList ++ ' ' :: (attrStr attrs ++ ['>']))
      else '<' :: (tag.toList ++ ['>'])
  | .closing tag => '<' :: '/' :: (tag.toList ++ ['>'])
  | .text t => t.toList

/-! ## Values -/

/-- What `escapeAttr` makes of one character. -/
def escapedChar (c : Char) : List Char :=
  if c = '&' then ['&', 'a', 'm', 'p', ';']
  else if c = '"' then ['&', 'q', 'u', 'o', 't', ';']
  else if c = '<' then ['&', 'l', 't', ';']
  else if c = '>' then ['&', 'g', 't', ';']
  else [c]

theorem escapeAttr_eq_flatMap (value : List Char) :
    escapeAttr value = value.flatMap escapedChar := by
  unfold escapeAttr replaceChar
  rw [List.flatMap_assoc, List.flatMap_assoc, List.flatMap_assoc]
  congr 1
  funext c
  unfold escapedChar
  split_ifs with hamp hquot hlt hgt
  · decide
  · subst hquot
    decide
  · subst hlt
    decide
  · subst hgt
    decide
  · simp [hquot, hlt, hgt]

theorem quote_not_mem_escapeAttr (value : List Char) : '"' ∉ escapeAttr value := by
  rw [escapeAttr_eq_flatMap, List.mem_flatMap]
  rintro ⟨c, -, hc⟩
  unfold escapedChar at hc
  split_ifs at hc with hamp hquot hlt hgt
  · exact absurd hc (by decide)
  · exact absurd hc (by decide)
  · exact absurd hc (by decide)
  · exact absurd hc (by decide)
  · exact hquot (List.mem_singleton.mp hc).symm

/-- The four names that are written are in the table. -/
structure References.Html5 (refs : References) : Prop where
  amp : refs.named ['a', 'm', 'p', ';'] = some ['&']
  quot : refs.named ['q', 'u', 'o', 't', ';'] = some ['"']
  lt : refs.named ['l', 't', ';'] = some ['<']
  gt : refs.named ['g', 't', ';'] = some ['>']

variable {refs : References}

theorem reference_name {name text : List Char} (hname : ∀ c ∈ name, inName c = true)
    (hne : name ≠ []) (hlen : name.length ≤ 32) (hnamed : refs.named (name ++ [';']) = some text)
    (rest : List Char) :
    reference refs (name ++ ';' :: rest) = some (text, name.length + 1) := by
  have hfront : ((name ++ ';' :: rest).takeWhile inName).take 32 = name := by
    rw [List.takeWhile_append_of_pos hname, List.takeWhile_cons_of_neg (by decide),
      List.append_nil, List.take_of_length_le hlen]
  have hdrop : (name ++ ';' :: rest).drop name.length = ';' :: rest := List.drop_left
  unfold reference
  split
  · rename_i cs heq
    cases name with
    | nil => exact absurd rfl hne
    | cons c name =>
      have hc := hname c List.mem_cons_self
      rw [(List.cons.inj heq).1] at hc
      exact absurd hc (by decide)
  · dsimp only
    rw [hfront, if_neg hne, hdrop]
    show some ((refs.named (name ++ [';'])).getD _, (name ++ [';']).length) = _
    rw [hnamed, Option.getD_some, List.length_append]
    rfl

theorem unescapeFrom_append (a b : List Char) :
    unescapeFrom refs a.length (a ++ b) = unescapeFrom refs 0 b := by
  induction a with
  | nil => rfl
  | cons c a ih => exact ih

theorem unescapeFrom_name {name : List Char} {c : Char} (hname : ∀ c ∈ name, inName c = true)
    (hne : name ≠ []) (hlen : name.length ≤ 32) (hnamed : refs.named (name ++ [';']) = some [c])
    (rest : List Char) :
    unescapeFrom refs 0 ('&' :: (name ++ ';' :: rest)) = c :: unescapeFrom refs 0 rest := by
  rw [unescapeFrom, if_pos rfl, reference_name hname hne hlen hnamed]
  have hdrop : unescapeFrom refs (name ++ [';']).length ((name ++ [';']) ++ rest) =
      unescapeFrom refs 0 rest := unescapeFrom_append _ _
  rw [List.append_assoc, List.singleton_append, List.length_append] at hdrop
  dsimp only
  rw [show name.length + 1 = name.length + [';'].length from rfl, hdrop]
  rfl

theorem unescapeFrom_escapedChar (hrefs : refs.Html5) (c : Char) (rest : List Char) :
    unescapeFrom refs 0 (escapedChar c ++ rest) = c :: unescapeFrom refs 0 rest := by
  have hname : ∀ name ∈ [['a', 'm', 'p'], ['q', 'u', 'o', 't'], ['l', 't'], ['g', 't']],
      (∀ c ∈ name, inName c = true) ∧ name ≠ [] ∧ name.length ≤ 32 := by
    intro name hmem
    simp only [List.mem_cons, List.not_mem_nil, or_false] at hmem
    rcases hmem with rfl | rfl | rfl | rfl <;>
      exact ⟨List.all_iff_forall_prop.mp (by decide), by simp, by simp⟩
  unfold escapedChar
  split_ifs with hamp hquot hlt hgt
  · subst hamp
    obtain ⟨hin, hne, hlen⟩ := hname ['a', 'm', 'p'] (by simp)
    exact unescapeFrom_name hin hne hlen hrefs.amp rest
  · subst hquot
    obtain ⟨hin, hne, hlen⟩ := hname ['q', 'u', 'o', 't'] (by simp)
    exact unescapeFrom_name hin hne hlen hrefs.quot rest
  · subst hlt
    obtain ⟨hin, hne, hlen⟩ := hname ['l', 't'] (by simp)
    exact unescapeFrom_name hin hne hlen hrefs.lt rest
  · subst hgt
    obtain ⟨hin, hne, hlen⟩ := hname ['g', 't'] (by simp)
    exact unescapeFrom_name hin hne hlen hrefs.gt rest
  · rw [List.singleton_append, unescapeFrom, if_neg hamp]

/-- A value reads back from what is written of it. -/
theorem unescape_escapeAttr (hrefs : refs.Html5) (value : List Char) :
    unescape refs (escapeAttr value) = value := by
  rw [escapeAttr_eq_flatMap, unescape]
  induction value with
  | nil => rfl
  | cons c value ih => rw [List.flatMap_cons, unescapeFrom_escapedChar hrefs, ih]

/-! ## Attributes -/

/-- A name that the parser reads as the name of an attribute. -/
def AttrName (name : List Char) : Prop :=
  name ≠ [] ∧ ∀ c ∈ name, inAttr c = true

theorem inAttr_iff {c : Char} :
    inAttr c = true ↔ Text.isSpace c = false ∧ c ≠ '/' ∧ c ≠ '=' ∧ c ≠ '>' := by
  simp [inAttr]

/-- Where a front ends that a test lets through. -/
theorem span_stop {p : Char → Bool} {a : List Char} {c : Char} (ha : ∀ d ∈ a, p d = true)
    (hc : p c = false) (rest : List Char) :
    (a ++ c :: rest).takeWhile p = a ∧ (a ++ c :: rest).dropWhile p = c :: rest := by
  constructor
  · rw [List.takeWhile_append_of_pos ha, List.takeWhile_cons_of_neg (by simp [hc]),
      List.append_nil]
  · rw [List.dropWhile_append_of_pos ha, List.dropWhile_cons_of_neg (by simp [hc])]

theorem attrValue_write (value rest : List Char) :
    attrValue ('=' :: '"' :: (escapeAttr value ++ '"' :: rest)) =
      some (some (escapeAttr value), rest) := by
  have hstop : ∀ c ∈ escapeAttr value, decide (c ≠ '"') = true := by
    intro c hc
    rw [decide_eq_true_eq]
    rintro rfl
    exact quote_not_mem_escapeAttr value hc
  obtain ⟨htake, hdrop⟩ := span_stop (c := '"') hstop (by simp) rest
  have hmem : '"' ∈ escapeAttr value ++ '"' :: rest := by simp
  have hblanks : ('=' :: '"' :: (escapeAttr value ++ '"' :: rest)).takeWhile Text.isSpace = [] :=
    List.takeWhile_cons_of_neg (by decide)
  have hequals : ('=' :: '"' :: (escapeAttr value ++ '"' :: rest)).takeWhile (· == '=') = ['='] := by
    rw [List.takeWhile_cons_of_pos (by decide), List.takeWhile_cons_of_neg (by decide)]
  have hopening : ('"' :: (escapeAttr value ++ '"' :: rest)).dropWhile Text.isSpace =
      '"' :: (escapeAttr value ++ '"' :: rest) := List.dropWhile_cons_of_neg (by decide)
  unfold attrValue
  simp only [hblanks, List.length_nil, List.drop_zero, hequals, Nat.zero_add,
    List.length_singleton, List.drop_succ_cons, hopening]
  rw [if_neg (List.cons_ne_nil _ _), if_pos (.inl trivial), if_pos hmem, htake, hdrop]
  rfl

/-- What stands in front of the end of a tag: its attributes, each after a blank. -/
def spaced (attrs : List (String × String)) : List Char :=
  attrs.flatMap fun attr => ' ' :: writeAttr attr

theorem skipSlashes_blank {c : Char} {cs : List Char} (hspace : Text.isSpace c = false)
    (hslash : c ≠ '/') : skipSlashes (' ' :: c :: cs) = c :: cs := by
  rw [skipSlashes, if_pos (.inl (by decide)), skipSlashes, if_neg]
  simp [hspace, hslash]

theorem attributes_end (fuel : Nat) (rest : List Char) :
    attributes (fuel + 1) ('>' :: rest) = some ([], false, rest) := by
  have hskip : skipSlashes ('>' :: rest) = '>' :: rest := by
    rw [skipSlashes, if_neg (by simp; decide)]
  rw [attributes, hskip]
  exact if_pos rfl

theorem attributes_name {fuel : Nat} {cs rest : List Char} {c : Char}
    (hskip : skipSlashes cs = c :: rest) (hgt : c ≠ '>') (hslash : c ≠ '/')
    {value : Option (List Char)} {after : List Char}
    (hvalue : attrValue (rest.dropWhile inAttr) = some (value, after)) :
    attributes (fuel + 1) cs = (attributes fuel after).map fun (attrs, closed, rest') =>
      ((c :: rest.takeWhile inAttr, value) :: attrs, closed, rest') := by
  rw [attributes, hskip]
  dsimp only
  rw [if_neg hgt, if_neg hslash, hvalue]

theorem attributes_write {attrs : List (String × String)}
    (hnames : ∀ attr ∈ attrs, AttrName attr.1.toList) (rest : List Char) :
    ∀ fuel, attrs.length < fuel →
      attributes fuel (spaced attrs ++ '>' :: rest) =
        some (attrs.map fun attr => (attr.1.toList, some (escapeAttr attr.2.toList)), false,
          rest) := by
  induction attrs with
  | nil =>
    intro fuel hfuel
    obtain ⟨fuel, rfl⟩ := Nat.exists_eq_succ_of_ne_zero (Nat.ne_of_gt hfuel)
    exact attributes_end fuel rest
  | cons attr attrs ih =>
    intro fuel hfuel
    obtain ⟨fuel, rfl⟩ := Nat.exists_eq_succ_of_ne_zero (Nat.ne_of_gt (Nat.zero_lt_of_lt hfuel))
    obtain ⟨name, value⟩ := attr
    obtain ⟨hne, hin⟩ := hnames (name, value) List.mem_cons_self
    obtain ⟨c, cs, hname⟩ := List.exists_cons_of_ne_nil hne
    obtain ⟨hspace, hslash, -, hgt⟩ := inAttr_iff.mp (hin c (by simp [hname]))
    have htext : spaced ((name, value) :: attrs) ++ '>' :: rest =
        ' ' :: c :: (cs ++ '=' :: '"' :: (escapeAttr value.toList ++
          '"' :: (spaced attrs ++ '>' :: rest))) := by
      have hname' : name.toList = c :: cs := hname
      simp [spaced, writeAttr, hname']
    have hrest : ∀ d ∈ cs, inAttr d = true := fun d hd => hin d (by simp [hname, hd])
    obtain ⟨htake, hdrop⟩ := span_stop (c := '=') hrest (by decide)
      ('"' :: (escapeAttr value.toList ++ '"' :: (spaced attrs ++ '>' :: rest)))
    have hvalue := attrValue_write value.toList (spaced attrs ++ '>' :: rest)
    rw [← hdrop] at hvalue
    rw [htext, attributes_name (skipSlashes_blank hspace hslash) hgt hslash hvalue, htake,
      ih (fun attr hattr => hnames attr (List.mem_cons_of_mem _ hattr)) fuel
        (by simpa using hfuel)]
    rw [List.map_cons, hname]
    rfl

/-! ## Tags -/

/-- A name that the parser reads as the name of a tag, and that is read again behind
`</`. -/
structure TagName (name : List Char) : Prop where
  opens : name.head?.any isAsciiLetter = true
  inTag : ∀ c ∈ name, inTag c = true

theorem TagName.exists_cons {name : List Char} (h : TagName name) :
    ∃ c cs, name = c :: cs ∧ isAsciiLetter c = true := by
  have hopens := h.opens
  cases name with
  | nil => cases hopens
  | cons c cs => exact ⟨c, cs, rfl, hopens⟩

theorem spaced_eq (attr : String × String) (attrs : List (String × String)) :
    spaced (attr :: attrs) = ' ' :: attrStr (attr :: attrs) := by
  induction attrs generalizing attr with
  | nil => simp [spaced, attrStr, List.intercalate]
  | cons attr' attrs ih =>
    have hstep : attrStr (attr :: attr' :: attrs) =
        writeAttr attr ++ (' ' :: attrStr (attr' :: attrs)) := by
      simp [attrStr, List.intercalate]
    rw [hstep, ← ih attr']
    rfl

variable (lower : String → String)

/-- A start tag that was written is read with all its attributes. -/
theorem parseStarttag_write (hrefs : refs.Html5) {tag : String} (htag : TagName tag.toList)
    {attrs : List (String × String)} (hne : attrs ≠ [])
    (hnames : ∀ attr ∈ attrs, AttrName attr.1.toList) (rest : List Char) :
    parseStarttag lower refs (tag.toList ++ ' ' :: (attrStr attrs ++ '>' :: rest)) =
      .more [.start (lower tag) (attrs.map fun attr => (lower attr.1, some attr.2))]
        (if lower tag ∈ cdataContentElements then some (lower tag) else none) rest := by
  obtain ⟨attr, attrs, rfl⟩ := List.exists_cons_of_ne_nil hne
  obtain ⟨htake, hdrop⟩ := span_stop (c := ' ') htag.inTag (by decide)
    (attrStr (attr :: attrs) ++ '>' :: rest)
  have hspaced : ' ' :: (attrStr (attr :: attrs) ++ '>' :: rest) =
      spaced (attr :: attrs) ++ '>' :: rest := by
    rw [spaced_eq, List.cons_append]
  have hlength : ∀ l : List (String × String), l.length ≤ (spaced l).length := by
    intro l
    induction l with
    | nil => exact Nat.le_refl _
    | cons a l ih =>
      rw [spaced, List.flatMap_cons, List.length_append, List.length_cons, List.length_cons]
      unfold spaced at ih
      omega
  have hattributes := attributes_write hnames rest
    ((spaced (attr :: attrs) ++ '>' :: rest).length + 1) (by
      have h := hlength (attr :: attrs)
      rw [List.length_append]
      omega)
  have hhead : (spaced (attr :: attrs) ++ '>' :: rest).head? ≠ some '\x00' := by
    rw [spaced_eq, List.cons_append, List.head?_cons]
    decide
  unfold parseStarttag
  rw [htake, hdrop, hspaced]
  dsimp only
  rw [if_neg hhead, hattributes]
  simp [unescape_escapeAttr hrefs, Function.comp_def]

theorem inTag_of_letter {c : Char} (h : isAsciiLetter c = true) : inTag c = true := by
  have hstops : ∀ d ∈ ['\t', '\n', '\r', '\x0c', ' ', '/', '>', '\x00'],
      isAsciiLetter d = false := List.all_iff_forall_prop.mp (by decide)
  unfold Dom.inTag
  rw [decide_eq_true_eq]
  intro hmem
  rw [hstops c hmem] at h
  cases h

theorem not_isSpace_of_letter {c : Char} (h : isAsciiLetter c = true) :
    Text.isSpace c = false := by
  have hrange : (97 ≤ c.toNat ∧ c.toNat ≤ 122) ∨ (65 ≤ c.toNat ∧ c.toNat ≤ 90) := by
    simpa [isAsciiLetter, Char.le_def, UInt32.le_iff_toNat_le] using h
  by_contra hspace
  simp only [Text.isSpace, Bool.not_eq_false, Bool.or_eq_true, Bool.and_eq_true, decide_eq_true_eq,
    beq_iff_eq] at hspace
  omega

/-- A name that is read as a whole behind `</`: what follows its plain characters, if
anything does, is not just blanks. -/
def EndsName (name : List Char) : Prop :=
  name.dropWhile inEndTag = [] ∨ ∃ c ∈ name.dropWhile inEndTag, Text.isSpace c = false

/-- In front of the `>` of an end tag such a name has plain characters only, if it has
them and blanks. -/
theorem EndsName.regular {name : List Char} (hname : EndsName name) (hgt : '>' ∉ name)
    {rest : List Char}
    (h : (((name ++ '>' :: rest).dropWhile inEndTag).dropWhile Text.isSpace).head? = some '>') :
    ∀ c ∈ name, inEndTag c = true := by
  rw [← List.dropWhile_eq_nil_iff]
  rcases hname with hnil | ⟨c, hc, hspace⟩
  · exact hnil
  · exfalso
    have hrest : name.dropWhile inEndTag ≠ [] := List.ne_nil_of_mem hc
    have hblank : (name.dropWhile inEndTag).dropWhile Text.isSpace ≠ [] := by
      intro hnil
      rw [List.dropWhile_eq_nil_iff] at hnil
      have htrue := hnil c hc
      rw [hspace] at htrue
      cases htrue
    rw [List.dropWhile_append, if_neg (by simpa using hrest), List.dropWhile_append,
      if_neg (by simpa using hblank), List.head?_append_of_ne_nil _ hblank] at h
    have hmem := List.mem_of_mem_head? h
    exact hgt ((List.dropWhile_sublist _).subset ((List.dropWhile_sublist _).subset hmem))

/-- An end tag that was written is read. -/
theorem parseEndtag_write {tag : String} (htag : TagName tag.toList)
    (hends : EndsName tag.toList) (rest : List Char) :
    parseEndtag lower (tag.toList ++ '>' :: rest) = .more [.finish (lower tag)] none rest := by
  obtain ⟨c, cs, hname, hletter⟩ := htag.exists_cons
  have hgt : ∀ d ∈ tag.toList, decide (d ≠ '>') = true := by
    intro d hd
    rw [decide_eq_true_eq]
    rintro rfl
    exact absurd (htag.inTag _ hd) (by decide)
  have hafter : afterGt (tag.toList ++ '>' :: rest) = some rest := by
    rw [afterGt, (span_stop (c := '>') hgt (by decide) rest).2]
  have hnamed : (tag.toList ++ '>' :: rest).dropWhile Text.isSpace = tag.toList ++ '>' :: rest := by
    rw [hname, List.cons_append,
      List.dropWhile_cons_of_neg (by simp [not_isSpace_of_letter hletter])]
  have hhead : (tag.toList ++ '>' :: rest).head?.any isAsciiLetter = true := by
    rw [hname]
    exact hletter
  unfold parseEndtag
  rw [hafter]
  dsimp only
  rw [hnamed]
  split
  · -- all of the name is what an end tag may hold: a blank at its end would be left out
    rename_i hregular
    have hgt' : '>' ∉ tag.toList := fun hmem => by simpa using hgt _ hmem
    have hall := hends.regular hgt' hregular.2
    rw [(span_stop (c := '>') hall (by decide) rest).1, String.ofList_toList]
  · rw [(span_stop (c := '>') htag.inTag (by decide) rest).1, String.ofList_toList]

/-! ## Reading on -/

/-- In front of `rest` the parser makes these tokens of what was written, and reads on
there. -/
def Reads (lower : String → String) (refs : References)
    (markedSection : List Char → Option (List Char)) (written : List Char) (tokens : List Token)
    (rest : List Char) : Prop :=
  ∀ fuel, (written ++ rest).length < fuel → ∃ fuel', rest.length < fuel' ∧
    goahead lower refs markedSection fuel none (written ++ rest) =
      tokens ++ goahead lower refs markedSection fuel' none rest

variable {lower} {markedSection : List Char → Option (List Char)}

theorem Reads.nil (rest : List Char) : Reads lower refs markedSection [] [] rest :=
  fun fuel hfuel => ⟨fuel, hfuel, rfl⟩

theorem Reads.append {a b rest : List Char} {s t : List Token}
    (ha : Reads lower refs markedSection a s (b ++ rest))
    (hb : Reads lower refs markedSection b t rest) :
    Reads lower refs markedSection (a ++ b) (s ++ t) rest := by
  intro fuel hfuel
  rw [List.append_assoc] at hfuel ⊢
  obtain ⟨fuel₁, hfuel₁, hgo₁⟩ := ha fuel hfuel
  obtain ⟨fuel₂, hfuel₂, hgo₂⟩ := hb fuel₁ hfuel₁
  exact ⟨fuel₂, hfuel₂, by rw [hgo₁, hgo₂, List.append_assoc]⟩

/-- What was written reads as a whole page. -/
theorem Reads.parse {page : String} {tokens : List Token}
    (h : Reads lower refs markedSection page.toList tokens []) :
    parse lower refs markedSection page = tokens := by
  obtain ⟨fuel, hfuel, hgo⟩ := h (page.toList.length + 1) (by
    rw [List.append_nil]
    exact Nat.lt_succ_self _)
  obtain ⟨fuel, rfl⟩ := Nat.exists_eq_succ_of_ne_zero (Nat.ne_of_gt hfuel)
  rw [List.append_nil] at hgo
  rw [Dom.parse, hgo, goahead, List.append_nil]

/-- Markup that was written, with the tokens of its first step. -/
theorem Reads.of_markup {written rest : List Char} {tokens : List Token}
    (h : markup lower refs markedSection (written ++ rest) = .more tokens none rest) :
    Reads lower refs markedSection ('<' :: written) tokens rest := by
  intro fuel hfuel
  obtain ⟨fuel, rfl⟩ := Nat.exists_eq_succ_of_ne_zero (Nat.ne_of_gt (Nat.zero_lt_of_lt hfuel))
  refine ⟨fuel, ?_, ?_⟩
  · simp only [List.cons_append, List.length_cons, List.length_append] at hfuel
    omega
  · rw [List.cons_append, goahead, if_pos rfl, h]

/-- An opening tag is read by itself where no raw content follows. -/
theorem markup_opening (hrefs : refs.Html5) {tag : String} (htag : TagName tag.toList)
    (hraw : lower tag ∉ cdataContentElements) {attrs : List (String × String)} (hne : attrs ≠ [])
    (hnames : ∀ attr ∈ attrs, AttrName attr.1.toList) (rest : List Char) :
    markup lower refs markedSection
        ((tag.toList ++ ' ' :: (attrStr attrs ++ ['>'])) ++ rest) =
      .more [.start (lower tag) (attrs.map fun attr => (lower attr.1, some attr.2))] none rest := by
  obtain ⟨c, cs, hname, hletter⟩ := htag.exists_cons
  have hparse := parseStarttag_write lower hrefs htag hne hnames rest
  rw [if_neg hraw] at hparse
  rw [← hparse]
  simp only [hname, List.cons_append, List.append_assoc, List.nil_append]
  rw [markup, if_pos hletter]

/-- A closing tag reads as its end tag. -/
theorem reads_closing {tag : String} (htag : TagName tag.toList)
    (hends : EndsName tag.toList) (rest : List Char) :
    Reads lower refs markedSection ('<' :: '/' :: (tag.toList ++ ['>'])) [.finish (lower tag)]
      rest := by
  apply Reads.of_markup
  have hparse := parseEndtag_write lower htag hends rest
  rw [← hparse]
  simp only [List.cons_append, List.append_assoc, List.nil_append]
  rw [markup, if_neg (by decide), if_pos rfl]

/-! ## Reading texts -/

/-- How the parser cuts a text into pieces of data, in front of a tag; none if it takes
something in it for markup. A `<` that opens nothing is a piece of its own, with the
name that follows it if a null character follows the name. -/
def cutText : Nat → List Char → Option (List (List Char))
  | _, [] => some []
  | 0, _ :: _ => none
  | fuel + 1, c :: cs =>
      if c = '<' then
        if cs.head?.any isAsciiLetter then
          if (cs.dropWhile inTag).head? = some '\x00' then
            (cutText fuel (cs.dropWhile inTag)).map (('<' :: cs.takeWhile inTag) :: ·)
          else none
        else if cs.head?.any (· ∈ ['/', '?', '!']) then none
        else (cutText fuel cs).map (['<'] :: ·)
      else
        (cutText fuel ((c :: cs).dropWhile (· ≠ '<'))).map
          ((c :: cs).takeWhile (· ≠ '<') :: ·)

theorem cutText_nil (n : Nat) : cutText n [] = some [] := by
  cases n <;> rfl

variable (refs) in
/-- The text that a piece of data is read as. -/
def readPiece (piece : List Char) : String :=
  if piece.head? = some '<' then String.ofList piece else String.ofList (unescape refs piece)

/-- What follows begins with a tag. -/
def StartsTag (cs : List Char) : Prop :=
  ∃ d ds, cs = '<' :: d :: ds ∧ (isAsciiLetter d = true ∨ d = '/')

/-- At the end of the page a last piece is told only if it cannot go on. -/
def Told (cut : List (List Char)) : Prop :=
  ∀ piece ∈ cut.getLast?, piece ≠ ['<'] ∧ cutOff piece = false

theorem StartsTag.cons {cs : List Char} (h : StartsTag cs) : ∃ ds, cs = '<' :: ds := by
  obtain ⟨d, ds, hcs, -⟩ := h
  exact ⟨d :: ds, hcs⟩

theorem Told.tail {piece : List Char} {cut : List (List Char)} (h : Told (piece :: cut)) :
    Told cut := by
  intro last hlast
  refine h last ?_
  rw [List.getLast?_cons, Option.mem_def.mp hlast]
  rfl

theorem readPiece_open (cs : List Char) :
    readPiece refs ('<' :: cs) = String.ofList ('<' :: cs) :=
  if_pos rfl

theorem readPiece_text {piece : List Char} (h : '<' ∉ piece) :
    readPiece refs piece = String.ofList (unescape refs piece) := by
  refine if_neg fun hhead => h ?_
  exact List.mem_of_mem_head? hhead

/-- Characters up to the next `<`. -/
theorem reads_segment {segment rest : List Char} (hne : segment ≠ []) (hno : '<' ∉ segment)
    (hrest : (∃ ds, rest = '<' :: ds) ∨ rest = []) (hends : rest = [] → cutOff segment = false) :
    Reads lower refs markedSection segment [.data (readPiece refs segment)] rest := by
  intro fuel hfuel
  obtain ⟨fuel, rfl⟩ := Nat.exists_eq_succ_of_ne_zero (Nat.ne_of_gt (Nat.zero_lt_of_lt hfuel))
  obtain ⟨c, cs, rfl⟩ := List.exists_cons_of_ne_nil hne
  have hin : ∀ d ∈ c :: cs, decide (d ≠ '<') = true := by
    intro d hd
    rw [decide_eq_true_eq]
    rintro rfl
    exact hno hd
  have hc : c ≠ '<' := of_decide_eq_true (hin c List.mem_cons_self)
  have hspan : (c :: cs ++ rest).takeWhile (fun d => decide (d ≠ '<')) = c :: cs ∧
      (c :: cs ++ rest).dropWhile (fun d => decide (d ≠ '<')) = rest := by
    rcases hrest with ⟨ds, rfl⟩ | rfl
    · exact span_stop hin (by simp) ds
    · rw [List.append_nil]
      exact ⟨List.takeWhile_eq_self_iff.mpr hin, List.dropWhile_eq_nil_iff.mpr hin⟩
  refine ⟨fuel, ?_, ?_⟩
  · simp only [List.cons_append, List.length_cons, List.length_append] at hfuel
    omega
  · rw [List.cons_append] at hspan ⊢
    rw [goahead, if_neg hc]
    dsimp only
    rw [hspan.1, hspan.2, if_neg (fun h => by simp [hends h.1] at h), readPiece_text hno]
    rfl

/-- A `<` that opens nothing. -/
theorem reads_lone {cs : List Char} {c : Char} (hletter : isAsciiLetter c = false)
    (hmarkup : c ∉ ['/', '?', '!']) :
    Reads lower refs markedSection ['<'] [.data "<"] (c :: cs) := by
  apply Reads.of_markup
  simp only [List.mem_cons, List.not_mem_nil, or_false, not_or] at hmarkup
  obtain ⟨hslash, hquestion, hbang⟩ := hmarkup
  rw [List.nil_append, markup, if_neg (by simp [hletter]), if_neg hslash, if_neg hquestion,
    if_neg hbang]

/-- A name in front of a null character. -/
theorem reads_broken {name rest : List Char} (hname : TagName name) (h : rest.head? = some '\x00') :
    Reads lower refs markedSection ('<' :: name) [.data (String.ofList ('<' :: name))] rest := by
  apply Reads.of_markup
  obtain ⟨ds, rfl⟩ : ∃ ds, rest = '\x00' :: ds := by
    cases rest with
    | nil => cases h
    | cons d ds => exact ⟨ds, by rw [Option.some.inj h]⟩
  obtain ⟨htake, hdrop⟩ := span_stop (c := '\x00') hname.inTag (by decide) ds
  obtain ⟨c, cs, heq, hletter⟩ := hname.exists_cons
  have hmarkup : markup lower refs markedSection (name ++ '\x00' :: ds) =
      parseStarttag lower refs (name ++ '\x00' :: ds) := by
    rw [heq, List.cons_append, markup, if_pos hletter]
  rw [hmarkup, parseStarttag, htake, hdrop]
  exact if_pos rfl

/-- In front of a tag a text is told in its pieces. -/
theorem reads_text {rest : List Char} (hrest : StartsTag rest ∨ rest = []) :
    ∀ {n : Nat} {t : List Char} {cut : List (List Char)}, cutText n t = some cut →
      (rest = [] → Told cut) →
        Reads lower refs markedSection t (cut.map fun piece => .data (readPiece refs piece)) rest := by
  intro n
  induction n with
  | zero =>
    -- without fuel only the empty text is cut
    intro t cut hcut _
    cases t with
    | nil =>
      rw [← Option.some.inj hcut]
      exact Reads.nil rest
    | cons c cs => cases hcut
  | succ n ih =>
    intro t cut hcut htold
    cases t with
    | nil =>
      rw [← Option.some.inj hcut]
      exact Reads.nil rest
    | cons c cs =>
      rw [cutText] at hcut
      split_ifs at hcut with hlt hletter hnull hmarkup
      · -- a name and a null character
        obtain ⟨cut, hcut', rfl⟩ := Option.map_eq_some_iff.mp hcut
        have hname : TagName (cs.takeWhile inTag) := by
          refine ⟨?_, fun d hd => List.mem_takeWhile_imp hd⟩
          cases cs with
          | nil => cases hletter
          | cons d ds =>
            rw [List.takeWhile_cons_of_pos (inTag_of_letter hletter)]
            exact hletter
        have hhead : (cs.dropWhile inTag ++ rest).head? = some '\x00' := by
          rw [List.head?_append, hnull]
          rfl
        have hpiece : Reads lower refs markedSection ('<' :: cs.takeWhile inTag)
            [.data (readPiece refs ('<' :: cs.takeWhile inTag))]
            (cs.dropWhile inTag ++ rest) := by
          rw [readPiece_open]
          exact reads_broken hname hhead
        have hwhole := hpiece.append (ih hcut' fun h => (htold h).tail)
        rw [List.cons_append, List.takeWhile_append_dropWhile] at hwhole
        rw [hlt]
        exact hwhole
      · -- a `<` alone
        obtain ⟨cut, hcut', rfl⟩ := Option.map_eq_some_iff.mp hcut
        obtain ⟨d, ds, hnext, hplain, hother⟩ : ∃ d ds, cs ++ rest = d :: ds ∧
            isAsciiLetter d = false ∧ d ∉ ['/', '?', '!'] := by
          -- the `<` stands before another character, or before the tag that follows
          cases cs with
          | nil =>
            rcases hrest with hrest | hrest
            · obtain ⟨ds, hds⟩ := hrest.cons
              exact ⟨'<', ds, hds, by decide, by decide⟩
            · -- nothing follows, so that it would not be told
              rw [← Option.some.inj ((cutText_nil n).symm.trans hcut')] at htold
              exact absurd rfl (htold hrest ['<'] rfl).1
          | cons d ds =>
            refine ⟨d, ds ++ rest, rfl, ?_, ?_⟩
            · simpa using hletter
            · simpa using hmarkup
        have hpiece : Reads lower refs markedSection ['<'] [.data "<"] (cs ++ rest) := by
          rw [hnext]
          exact reads_lone hplain hother
        have hwhole := hpiece.append (ih hcut' fun h => (htold h).tail)
        rw [hlt]
        exact hwhole
      · -- characters up to the next `<`
        obtain ⟨cut, hcut', rfl⟩ := Option.map_eq_some_iff.mp hcut
        -- it is not empty, and has no `<` in it
        have hne : (c :: cs).takeWhile (fun d => decide (d ≠ '<')) ≠ [] := by
          rw [List.takeWhile_cons_of_pos (by simpa using hlt)]
          exact List.cons_ne_nil _ _
        have hno : '<' ∉ (c :: cs).takeWhile (fun d => decide (d ≠ '<')) := by
          intro hmem
          simpa using List.mem_takeWhile_imp hmem
        -- what follows is a `<`, or the end of the page
        have hafter : (∃ ds, (c :: cs).dropWhile (fun d => decide (d ≠ '<')) ++ rest = '<' :: ds) ∨
            (c :: cs).dropWhile (fun d => decide (d ≠ '<')) ++ rest = [] := by
          cases hdrop : (c :: cs).dropWhile (fun d => decide (d ≠ '<')) with
          | nil => exact hrest.imp_left StartsTag.cons
          | cons d ds =>
            have hd := List.head?_dropWhile_not (fun d => decide (d ≠ '<')) (c :: cs)
            rw [hdrop] at hd
            refine .inl ⟨ds ++ rest, ?_⟩
            have hlt' : d = '<' := by simpa using hd
            rw [hlt', List.cons_append]
        -- at the end no reference may be cut off
        have hends : (c :: cs).dropWhile (fun d => decide (d ≠ '<')) ++ rest = [] →
            cutOff ((c :: cs).takeWhile (fun d => decide (d ≠ '<'))) = false := by
          intro hnil
          obtain ⟨hdrop, hrest'⟩ := List.append_eq_nil_iff.mp hnil
          rw [hdrop, cutText_nil] at hcut'
          rw [← Option.some.inj hcut'] at htold
          exact (htold hrest' _ rfl).2
        have hpiece : Reads lower refs markedSection _ _ _ := reads_segment hne hno hafter hends
        have hwhole := hpiece.append (ih hcut' fun h => (htold h).tail)
        rw [List.takeWhile_append_dropWhile] at hwhole
        exact hwhole

end Plaidify.Dom
