import Mathlib.Algebra.GroupWithZero.Nat
import Plaidify.Dom.Reading

/-!
# What the parser leaves

Markup goes up to a `>`, whatever stands in it, and the only `>` of a tag that was written
is its last character. So where the parser takes something in a text for markup, it goes
on behind whole tags, and what it took is longer than these: less is told of the texts
than they have. `fitsWith` says so of every text between tags: what is told of the texts
has room between the tags, and fills it only if each text is cut into pieces of data.
-/

namespace Plaidify.Dom

/-! ## Suffixes -/

/-- The text is used up to a `>`. -/
def ThroughGt (cs rest : List Char) : Prop :=
  ∃ used, cs = used ++ '>' :: rest

theorem ThroughGt.of_suffix {cs rest whole : List Char} (h : ThroughGt cs rest)
    (hsuffix : cs <:+ whole) : ThroughGt whole rest := by
  obtain ⟨used, rfl⟩ := h
  obtain ⟨before, rfl⟩ := hsuffix
  exact ⟨before ++ used, by rw [List.append_assoc]⟩

theorem throughGt_afterGt {cs rest : List Char} (h : afterGt cs = some rest) :
    ThroughGt cs rest := by
  unfold afterGt at h
  split at h
  · cases h
  · next c rest' hdrop =>
    obtain rfl := Option.some.inj h
    have hc := List.head?_dropWhile_not (fun d => decide (d ≠ '>')) cs
    rw [hdrop] at hc
    have hgt : c = '>' := by simpa using hc
    rw [hgt] at hdrop
    refine ⟨cs.takeWhile (fun d => decide (d ≠ '>')), ?_⟩
    rw [← hdrop, List.takeWhile_append_dropWhile]

theorem throughGt_afterComment {rest : List Char} : ∀ {cs : List Char},
    afterComment cs = some rest → ThroughGt cs rest := by
  intro cs
  fun_induction afterComment cs with
  | case1 =>
    intro h
    cases h
  | case2 cs rest' hdrop =>
    intro h
    obtain rfl := Option.some.inj h
    have hthrough : ThroughGt (cs.dropWhile Text.isSpace) rest' := ⟨[], hdrop⟩
    exact hthrough.of_suffix ((List.dropWhile_suffix _).trans ((List.suffix_cons _ _).trans
      (List.suffix_cons _ _)))
  | case3 cs hdrop ih =>
    intro h
    exact (ih h).of_suffix (List.suffix_cons _ _)
  | case4 c cs hother ih =>
    intro h
    exact (ih h).of_suffix (List.suffix_cons _ _)

/-- What is skipped in front of an attribute stands in front of the rest. -/
theorem skipSlashes_suffix (cs : List Char) : skipSlashes cs <:+ cs := by
  induction cs with
  | nil => exact List.suffix_refl _
  | cons c cs ih =>
    rw [skipSlashes]
    split
    · exact ih.trans (List.suffix_cons _ _)
    · exact List.suffix_refl _

/-- A slash that is not skipped stands in front of a `>`. -/
theorem head?_of_skipSlashes {cs rest : List Char} (h : skipSlashes cs = '/' :: rest) :
    rest.head? = some '>' := by
  induction cs with
  | nil => cases h
  | cons c cs ih =>
    rw [skipSlashes] at h
    split at h
    · exact ih h
    · next hkept =>
      obtain ⟨rfl, rfl⟩ := List.cons.inj h
      by_contra hhead
      exact hkept (.inr ⟨rfl, hhead⟩)

theorem bareValue_suffix {cs rest : List Char} {value : Option (List Char)}
    (h : bareValue cs = (value, rest)) : rest <:+ cs := by
  have hrest : cs.dropWhile inBare = rest := congrArg Prod.snd h
  rw [← hrest]
  exact List.dropWhile_suffix _

/-- What follows the value of an attribute is an end of the text. -/
theorem attrValue_suffix {cs rest : List Char} {value : Option (List Char)}
    (h : attrValue cs = some (value, rest)) : rest <:+ cs := by
  unfold attrValue at h
  dsimp only at h
  split at h
  · obtain ⟨-, rfl⟩ := Prod.mk.inj (Option.some.inj h)
    exact List.suffix_refl _
  · next hequals =>
    generalize hblanks : cs.takeWhile Text.isSpace = blanks at h hequals
    generalize heq : (cs.drop blanks.length).takeWhile (· == '=') = equals at h hequals
    have hafter : cs.drop (blanks.length + equals.length) <:+ cs := List.drop_suffix _ _
    split at h
    · cases h
    · next q body hopening =>
      have hbody : q :: body <:+ cs := by
        rw [← hopening]
        exact (List.dropWhile_suffix _).trans hafter
      split_ifs at h with hquote hclosed hspace htwo hnone
      · -- the value is closed
        rw [← (Prod.mk.inj (Option.some.inj h)).2]
        exact ((List.tail_suffix _).trans (List.dropWhile_suffix _)).trans
          ((List.suffix_cons _ _).trans hbody)
      · rw [← (Prod.mk.inj (Option.some.inj h)).2]
        exact hbody
      · -- the last equals sign is read again
        refine (bareValue_suffix (Option.some.inj h)).trans ?_
        have hopening' : cs.drop (blanks.length + equals.length) = q :: body := by
          cases hdrop : cs.drop (blanks.length + equals.length) with
          | nil =>
            rw [hdrop] at hopening
            cases hopening
          | cons d ds =>
            rw [hdrop] at hspace hopening
            have hd : Text.isSpace d = false := by simpa using hspace
            rwa [List.dropWhile_cons_of_neg (by simp [hd])] at hopening
        have hsplit : cs.drop blanks.length = equals ++ q :: body := by
          have hdrop : (cs.drop blanks.length).drop equals.length = q :: body := by
            rw [List.drop_drop]
            exact hopening'
          have htake : (cs.drop blanks.length).take equals.length = equals := by
            have hprefix : equals <+: cs.drop blanks.length := heq ▸ List.takeWhile_prefix _
            exact (List.prefix_iff_eq_take.mp hprefix).symm
          rw [← hdrop]
          conv_lhs => rw [← List.take_append_drop equals.length (cs.drop blanks.length), htake]
        have hlast : equals.getLast hequals = '=' := by
          have hmem : equals.getLast hequals ∈ (cs.drop blanks.length).takeWhile (· == '=') := by
            rw [heq]
            exact List.getLast_mem _
          simpa using List.mem_takeWhile_imp hmem
        refine List.IsSuffix.trans ?_ (List.drop_suffix blanks.length cs)
        rw [hsplit, ← List.dropLast_append_getLast hequals, hlast, List.append_assoc]
        exact List.suffix_append _ _
      · obtain ⟨-, rfl⟩ := Prod.mk.inj (Option.some.inj h)
        exact List.suffix_refl _
      · exact (bareValue_suffix (Option.some.inj h)).trans hbody

/-- A tag whose attributes are read goes up to a `>`. -/
theorem throughGt_attributes {closed : Bool} {rest : List Char} (fuel : Nat) :
    ∀ {cs : List Char} {attrs : List (List Char × Option (List Char))},
      attributes fuel cs = some (attrs, closed, rest) → ThroughGt cs rest := by
  induction fuel with
  | zero =>
    intro cs attrs h
    cases h
  | succ fuel ih =>
    intro cs attrs h
    have hskip := skipSlashes_suffix cs
    rw [attributes] at h
    split at h
    · cases h
    · next c cs' hcs =>
      rw [hcs] at hskip
      split_ifs at h with hgt hslash
      · have hrest : cs' = rest := (Prod.mk.inj (Prod.mk.inj (Option.some.inj h)).2).2
        have hthrough : ThroughGt (c :: cs') rest := ⟨[], by rw [hgt, hrest]; rfl⟩
        exact hthrough.of_suffix hskip
      · -- a slash is left only in front of a `>`
        have hrest : cs'.drop 1 = rest := (Prod.mk.inj (Prod.mk.inj (Option.some.inj h)).2).2
        have hhead : cs'.head? = some '>' := head?_of_skipSlashes (hslash ▸ hcs)
        have hthrough : ThroughGt (c :: cs') rest := by
          refine ⟨[c], ?_⟩
          cases cs' with
          | nil => cases hhead
          | cons d ds =>
            rw [← hrest, Option.some.inj hhead]
            rfl
        exact hthrough.of_suffix hskip
      · split at h
        · cases h
        · next value after hvalue =>
          obtain ⟨⟨attrs', closed', rest'⟩, hattrs, heq⟩ := Option.map_eq_some_iff.mp h
          obtain ⟨-, hclosed, hrest⟩ : _ ∧ closed' = closed ∧ rest' = rest := by
            simpa using heq
          subst hclosed
          subst hrest
          exact (ih hattrs).of_suffix ((attrValue_suffix hvalue).trans
            ((List.dropWhile_suffix _).trans ((List.suffix_cons _ _).trans hskip)))

/-! ## Markup -/

/-- How many characters the cleaner writes of the text that a token tells. -/
def Token.textWidth : Token → Nat
  | .data text => (collapseWhitespace text).toList.length
  | _ => 0

/-- The same of all tokens. -/
def textWidth (tokens : List Token) : Nat :=
  (tokens.map Token.textWidth).sum

theorem textWidth_append (s t : List Token) : textWidth (s ++ t) = textWidth s + textWidth t := by
  unfold textWidth
  rw [List.map_append, List.sum_append]

variable {lower : String → String} {refs : References}
  {markedSection : List Char → Option (List Char)}

/-- A `<` that opens nothing, in front of something else. -/
def Lone (cs : List Char) : Prop :=
  ∃ d ds, cs = d :: ds ∧ isAsciiLetter d = false ∧ d ∉ ['/', '?', '!']

/-- The name of a tag, in front of a null character. -/
def Broken (cs : List Char) : Prop :=
  cs.head?.any isAsciiLetter = true ∧ (cs.dropWhile inTag).head? = some '\x00'

/-- What the parser takes for markup goes up to a `>` and tells no text; raw content
follows a start tag only. -/
def Taken (cs : List Char) (tokens : List Token) (rawOf : Option String) (rest : List Char) :
    Prop :=
  ThroughGt cs rest ∧ textWidth tokens = 0 ∧
    ∀ tag ∈ rawOf, tag ∈ cdataContentElements ∧ ∃ attrs, Token.start tag attrs ∈ tokens

/-- A marked section ends with a `>`. -/
def SectionsEnd (markedSection : List Char → Option (List Char)) : Prop :=
  ∀ cs rest, markedSection cs = some rest → ThroughGt cs rest

theorem taken_silent {after : Option (List Char)} {cs rest : List Char} {tokens : List Token}
    {rawOf : Option String} (hafter : ∀ rest, after = some rest → ThroughGt cs rest)
    (h : silent after = .more tokens rawOf rest) : Taken cs tokens rawOf rest := by
  cases after with
  | none => cases h
  | some rest' =>
    obtain ⟨rfl, rfl, rfl⟩ := Step.more.inj h
    exact ⟨hafter _ rfl, rfl, fun tag htag => absurd htag (Option.not_mem_none _)⟩

/-- An end tag is taken up to its first `>`. -/
theorem taken_parseEndtag {cs rest : List Char} {tokens : List Token} {rawOf : Option String}
    (h : parseEndtag lower cs = .more tokens rawOf rest) : Taken cs tokens rawOf rest := by
  unfold parseEndtag at h
  split at h
  · cases h
  · next after hafter =>
    have hthrough := throughGt_afterGt hafter
    have hnone : ∀ tag ∈ (none : Option String), tag ∈ cdataContentElements ∧
        ∃ attrs, Token.start tag attrs ∈ tokens :=
      fun tag htag => absurd htag (Option.not_mem_none _)
    dsimp only at h
    split_ifs at h with hregular hletter
    · obtain ⟨rfl, rfl, rfl⟩ := Step.more.inj h
      exact ⟨hthrough, rfl, hnone⟩
    · obtain ⟨rfl, rfl, rfl⟩ := Step.more.inj h
      exact ⟨hthrough, rfl, hnone⟩
    · obtain ⟨rfl, rfl, rfl⟩ := Step.more.inj h
      exact ⟨hthrough, rfl, hnone⟩

/-- A start tag is taken up to the `>` behind its attributes, unless its name is broken. -/
theorem taken_parseStarttag {cs rest : List Char} {tokens : List Token} {rawOf : Option String}
    (hopens : cs.head?.any isAsciiLetter = true)
    (h : parseStarttag lower refs cs = .more tokens rawOf rest) :
    Taken cs tokens rawOf rest ∨
      (Broken cs ∧ rawOf = none ∧ rest = cs.dropWhile inTag ∧
        tokens = [.data (String.ofList ('<' :: cs.takeWhile inTag))]) := by
  unfold parseStarttag at h
  dsimp only at h
  split at h
  · next hnull =>
    obtain ⟨rfl, rfl, rfl⟩ := Step.more.inj h
    exact .inr ⟨⟨hopens, hnull⟩, rfl, rfl, rfl⟩
  · split at h
    · cases h
    · next attrs closed after hattrs =>
      have hthrough : ThroughGt cs after :=
        (throughGt_attributes _ hattrs).of_suffix (List.dropWhile_suffix _)
      left
      split at h
      · obtain ⟨rfl, rfl, rfl⟩ := Step.more.inj h
        exact ⟨hthrough, rfl, fun tag htag => absurd htag (Option.not_mem_none _)⟩
      · obtain ⟨rfl, hraw, rfl⟩ := Step.more.inj h
        refine ⟨hthrough, rfl, ?_⟩
        intro tag htag
        rw [← hraw, Option.mem_def] at htag
        split at htag
        · next hcdata =>
          obtain rfl := Option.some.inj htag
          exact ⟨hcdata, _, List.mem_singleton_self _⟩
        · cases htag

/-- A piece of markup is taken, or its `<` is told as a text, by itself or with the broken
name that follows it. -/
theorem markup_cases (hsection : SectionsEnd markedSection)
    {cs rest : List Char} {tokens : List Token} {rawOf : Option String}
    (h : markup lower refs markedSection cs = .more tokens rawOf rest) :
    Taken cs tokens rawOf rest ∨
      (Lone cs ∧ rawOf = none ∧ rest = cs ∧ tokens = [.data "<"]) ∨
      (Broken cs ∧ rawOf = none ∧ rest = cs.dropWhile inTag ∧
        tokens = [.data (String.ofList ('<' :: cs.takeWhile inTag))]) := by
  cases cs with
  | nil => cases h
  | cons c cs =>
    have hbehind : ∀ {tokens : List Token} {rawOf : Option String} {rest : List Char},
        Taken cs tokens rawOf rest → Taken (c :: cs) tokens rawOf rest :=
      fun htaken => ⟨htaken.1.of_suffix (List.suffix_cons _ _), htaken.2⟩
    rw [markup] at h
    split_ifs at h with hletter hslash hquestion hbang
    · have hopens : (c :: cs).head?.any isAsciiLetter = true := hletter
      rcases taken_parseStarttag hopens h with htaken | hbroken
      · exact .inl htaken
      · exact .inr (.inr hbroken)
    · exact .inl (hbehind (taken_parseEndtag h))
    · exact .inl (hbehind (taken_silent (fun _ => throughGt_afterGt) h))
    · refine .inl (hbehind (taken_silent ?_ h))
      intro after hafter
      unfold afterDeclaration at hafter
      split_ifs at hafter with hcomment hmarked
      · exact (throughGt_afterComment hafter).of_suffix (List.drop_suffix _ _)
      · exact (hsection _ _ hafter).of_suffix (List.drop_suffix _ _)
      · exact throughGt_afterGt hafter
    · obtain ⟨rfl, rfl, rfl⟩ := Step.more.inj h
      refine .inr (.inl ⟨⟨c, cs, rfl, ?_, ?_⟩, rfl, rfl, rfl⟩)
      · simpa using hletter
      · simp only [List.mem_cons, List.not_mem_nil, or_false, not_or]
        exact ⟨hslash, hquestion, hbang⟩

/-! ## Texts get no longer -/

/-- Runs of spaces get shorter. -/
theorem length_subSpaces (inRun : Bool) (cs : List Char) :
    (subSpaces inRun cs).length ≤ cs.length := by
  induction cs generalizing inRun with
  | nil => exact Nat.le_refl _
  | cons c cs ih =>
    have hrun := ih true
    have hword := ih false
    rw [subSpaces]
    split_ifs
    · rw [List.length_cons]
      omega
    · rw [List.length_cons, List.length_cons]
      omega
    · rw [List.length_cons, List.length_cons]
      omega

theorem length_collapseWhitespace (text : String) :
    (collapseWhitespace text).toList.length ≤ text.toList.length := by
  have hspaces := length_subSpaces false text.toList
  have hfront := ((subSpaces false text.toList).dropWhile_suffix Text.isSpace).length_le
  have hback : (((subSpaces false text.toList).dropWhile Text.isSpace).rdropWhile
      Text.isSpace).length ≤ ((subSpaces false text.toList).dropWhile Text.isSpace).length :=
    List.IsPrefix.length_le <| List.rdropWhile_prefix _ _
  unfold collapseWhitespace
  rw [Text.toList_strip, String.toList_ofList]
  omega

/-- No reference stands for more characters than it is spelled with. -/
structure References.Short (refs : References) : Prop where
  named : ∀ name text, refs.named name = some text → text.length ≤ name.length + 1
  numeric : ∀ n, (refs.numeric n).length ≤ 1

/-- A name that is not in the table keeps its ampersand, and with it its length. -/
theorem length_longestName (hshort : refs.Short) (name : List Char) (n : Nat) :
    (longestName refs name n).length ≤ name.length + 1 := by
  fun_induction longestName refs name n with
  | case1 n text hnamed =>
    have htext := hshort.named _ _ hnamed
    rw [List.length_take] at htext
    rw [List.length_append, List.length_drop]
    omega
  | case2 n hnamed ih => exact ih
  | case3 n hn => exact Nat.le_refl _

/-- A reference has the characters that it is spelled with, and stands for no more. -/
theorem length_reference (hshort : refs.Short) {cs text : List Char} {n : Nat}
    (h : reference refs cs = some (text, n)) : text.length ≤ n + 1 ∧ n ≤ cs.length := by
  have hsemicolon : ∀ l : List Char, (semicolon l).length ≤ l.length := by
    intro l
    fun_cases semicolon l with
    | case1 rest => simp
    | case2 l hl => exact Nat.zero_le _
  unfold reference at h
  split at h
  · next cs =>
    dsimp only at h
    have hdecimal : (cs.takeWhile isAsciiDigit).length ≤ cs.length :=
      List.IsPrefix.length_le <| List.takeWhile_prefix _
    have hbehind := hsemicolon (cs.drop (cs.takeWhile isAsciiDigit).length)
    rw [List.length_drop] at hbehind
    split at h
    · obtain ⟨rfl, rfl⟩ := Prod.mk.inj (Option.some.inj h)
      have hone := hshort.numeric (digitsValue 10 (cs.takeWhile isAsciiDigit))
      rw [List.length_cons]
      omega
    · split at h
      · next x cs' hno =>
        have hhex : (cs'.takeWhile isHexDigit).length ≤ cs'.length :=
          List.IsPrefix.length_le <| List.takeWhile_prefix _
        have hbehind' := hsemicolon (cs'.drop (cs'.takeWhile isHexDigit).length)
        rw [List.length_drop] at hbehind'
        split at h
        · obtain ⟨rfl, rfl⟩ := Prod.mk.inj (Option.some.inj h)
          have hone := hshort.numeric (digitsValue 16 (cs'.takeWhile isHexDigit))
          rw [List.length_cons, List.length_cons]
          omega
        · cases h
      · cases h
  · dsimp only at h
    split at h
    · cases h
    · obtain ⟨rfl, rfl⟩ := Prod.mk.inj (Option.some.inj h)
      have hfront : ((cs.takeWhile inName).take 32).length ≤ cs.length := by
        have hname : (cs.takeWhile inName).length ≤ cs.length :=
          List.IsPrefix.length_le <| List.takeWhile_prefix _
        rw [List.length_take]
        omega
      have hbehind := hsemicolon (cs.drop ((cs.takeWhile inName).take 32).length)
      rw [List.length_drop] at hbehind
      refine ⟨?_, ?_⟩
      · cases hnamed : refs.named _ with
        | none => exact length_longestName hshort _ _
        | some text => exact hshort.named _ _ hnamed
      · rw [List.length_append]
        omega

/-- What is left of a reference is dropped, and the next one is no longer than it was. -/
theorem length_unescapeFrom (hshort : refs.Short) (n : Nat) (cs : List Char) :
    (unescapeFrom refs n cs).length ≤ cs.length - n := by
  fun_induction unescapeFrom refs n cs with
  | case1 n => simp
  | case2 n c cs ih =>
    rw [List.length_cons]
    omega
  | case3 cs text n href ih =>
    obtain ⟨htext, hn⟩ := length_reference hshort href
    rw [List.length_append, List.length_cons]
    omega
  | case4 cs href ih =>
    rw [List.length_cons, List.length_cons]
    omega
  | case5 c cs hamp ih =>
    rw [List.length_cons, List.length_cons]
    omega

theorem length_unescape (hshort : refs.Short) (cs : List Char) :
    (unescape refs cs).length ≤ cs.length :=
  length_unescapeFrom hshort 0 cs

/-! ## Tags between texts -/

/-- A tag as it is written, the token that it is read as, and the text behind it. -/
structure Chunk where
  tag : List Char
  token : Token
  text : List Char

/-- What is written of tags and the texts behind them. -/
def spell (chunks : List Chunk) : List Char :=
  chunks.flatMap fun chunk => chunk.tag ++ chunk.text

/-- The length of the tags. -/
def tagWidth (chunks : List Chunk) : Nat :=
  (chunks.map fun chunk => chunk.tag.length).sum

variable (lower refs markedSection) in
/-- A tag that is read by itself, whatever follows it. -/
structure Chunk.Written (chunk : Chunk) : Prop where
  starts : StartsTag chunk.tag
  ends : ∃ inside, chunk.tag = inside ++ ['>'] ∧ '>' ∉ inside
  stops : (chunk.tag.dropWhile inTag).head? ≠ some '\x00'
  noText : chunk.token.textWidth = 0
  reads : ∀ rest,
    markup lower refs markedSection (chunk.tag.tail ++ rest) = .more [chunk.token] none rest

theorem spell_cons (chunk : Chunk) (chunks : List Chunk) :
    spell (chunk :: chunks) = chunk.tag ++ (chunk.text ++ spell chunks) := by
  unfold spell
  rw [List.flatMap_cons, List.append_assoc]

theorem tagWidth_cons (chunk : Chunk) (chunks : List Chunk) :
    tagWidth (chunk :: chunks) = chunk.tag.length + tagWidth chunks := by
  unfold tagWidth
  rw [List.map_cons, List.sum_cons]

theorem tagWidth_le (chunks : List Chunk) : tagWidth chunks ≤ (spell chunks).length := by
  induction chunks with
  | nil => exact Nat.le_refl _
  | cons chunk chunks ih =>
    rw [spell_cons, tagWidth_cons, List.length_append, List.length_append]
    omega

/-- Nothing stands behind the only `>` of a tag. -/
theorem nil_behind_gt {inside used behind : List Char}
    (h : inside ++ ['>'] = used ++ '>' :: behind) (hgt : '>' ∉ inside) : behind = [] := by
  rcases List.eq_nil_or_concat behind with rfl | ⟨init, last, rfl⟩
  · rfl
  · exfalso
    have hinside : inside = used ++ '>' :: init := by
      have hinit := congrArg List.dropLast h
      rwa [List.dropLast_concat, List.concat_eq_append, ← List.cons_append, ← List.append_assoc,
        List.dropLast_concat] at hinit
    rw [hinside] at hgt
    exact hgt (List.mem_append_right _ List.mem_cons_self)

/-- What goes up to a `>` ends in a text: it has the tags in front of it as a whole. -/
theorem spell_throughGt {chunks : List Chunk} :
    (∀ chunk ∈ chunks, chunk.Written lower refs markedSection) →
      ∀ {a rest : List Char}, ThroughGt (a ++ spell chunks) rest →
        ∃ b left, rest = b ++ spell left ∧ (∀ chunk ∈ left, chunk ∈ chunks) ∧
          tagWidth chunks + rest.length ≤ tagWidth left + (a ++ spell chunks).length := by
  induction chunks with
  | nil =>
    intro _ a rest hthrough
    obtain ⟨used, hused⟩ := hthrough
    refine ⟨rest, [], (List.append_nil _).symm, fun chunk hchunk => hchunk, ?_⟩
    rw [hused, List.length_append, List.length_cons]
    omega
  | cons chunk chunks ih =>
    intro htags a rest hthrough
    have htag : chunk.Written lower refs markedSection := htags _ List.mem_cons_self
    have htags' : ∀ chunk ∈ chunks, chunk.Written lower refs markedSection :=
      fun chunk hchunk => htags chunk (List.mem_cons_of_mem _ hchunk)
    obtain ⟨inside, hinside, hgt⟩ := htag.ends
    -- the induction is on the tags: a `>` behind the first one is sought behind its text
    have hbehind : ThroughGt (chunk.text ++ spell chunks) rest →
        ∃ b left, rest = b ++ spell left ∧ (∀ c ∈ left, c ∈ chunk :: chunks) ∧
          tagWidth (chunk :: chunks) + rest.length ≤
            tagWidth left + (a ++ spell (chunk :: chunks)).length := by
      intro hthrough'
      obtain ⟨b, left, hrest, hleft, hwidth⟩ := ih htags' hthrough'
      refine ⟨b, left, hrest, fun chunk hchunk => List.mem_cons_of_mem _ (hleft chunk hchunk), ?_⟩
      rw [spell_cons, tagWidth_cons]
      simp only [List.length_append] at hwidth ⊢
      omega
    obtain ⟨used, hused⟩ := hthrough
    rw [spell_cons] at hused
    rcases List.append_eq_append_iff.mp hused with ⟨used', rfl, htail⟩ | ⟨b, rfl, htail⟩
    · rcases List.append_eq_append_iff.mp htail with ⟨used'', rfl, htail'⟩ | ⟨last, hlast, htail'⟩
      · exact hbehind ⟨used'', htail'⟩
      · cases last with
        | nil => exact hbehind ⟨[], htail'.symm⟩
        | cons c last =>
          -- the `>` is the one at the end of the tag
          obtain ⟨rfl, hrest⟩ := List.cons.inj htail'
          obtain rfl : last = [] := nil_behind_gt (hinside.symm.trans hlast) hgt
          have hrest : rest = chunk.text ++ spell chunks := hrest
          refine ⟨chunk.text, chunks, hrest, fun chunk hchunk => List.mem_cons_of_mem _ hchunk, ?_⟩
          rw [hrest, spell_cons, tagWidth_cons]
          simp only [List.length_append]
          omega
    · cases b with
      | nil =>
        obtain ⟨d, ds, hstarts, -⟩ := htag.starts
        rw [hstarts] at htail
        cases htail
      | cons c b =>
        -- the `>` stands in the text in front of the tag
        have hrest : rest = b ++ (chunk.tag ++ (chunk.text ++ spell chunks)) :=
          (List.cons.inj htail).2
        refine ⟨b, chunk :: chunks, ?_, fun chunk hchunk => hchunk, ?_⟩
        · rw [hrest, spell_cons]
        · rw [hrest, spell_cons]
          simp only [List.length_append, List.length_cons]
          omega

/-! ## Texts that are cut -/

/-- A text is cut into pieces, and told to the end if nothing follows. -/
def Cuts (text : List Char) (last : Prop) : Prop :=
  ∀ n, text.length ≤ n → ∃ pieces, cutText n text = some pieces ∧ (last → Told pieces)

/-- So is every text between the tags. -/
def Clean : List Char → List Chunk → Prop
  | text, [] => Cuts text True
  | text, chunk :: chunks => Cuts text False ∧ Clean chunk.text chunks

/-- A text with something in it has a piece. -/
theorem cutText_ne_nil {n : Nat} {c : Char} {cs : List Char} :
    cutText n (c :: cs) ≠ some [] := by
  intro h
  cases n with
  | zero => cases h
  | succ n =>
    rw [cutText] at h
    split_ifs at h with hlt hletter hnull hmarkup
    · obtain ⟨pieces, -, hpieces⟩ := Option.map_eq_some_iff.mp h
      cases hpieces
    · obtain ⟨pieces, -, hpieces⟩ := Option.map_eq_some_iff.mp h
      cases hpieces
    · obtain ⟨pieces, -, hpieces⟩ := Option.map_eq_some_iff.mp h
      cases hpieces

/-- A text is cut where it is cut behind its first piece. -/
theorem Cuts.step {text rest piece : List Char} {last : Prop}
    (hcut : ∀ n, cutText (n + 1) text = (cutText n rest).map (piece :: ·))
    (hlength : rest.length < text.length) (hlast : last → rest = [] → Told [piece])
    (h : Cuts rest last) : Cuts text last := by
  intro n hn
  obtain ⟨n, rfl⟩ := Nat.exists_eq_succ_of_ne_zero (n := n) (by omega)
  obtain ⟨pieces, hpieces, htold⟩ := h n (by omega)
  refine ⟨piece :: pieces, ?_, ?_⟩
  · rw [hcut, hpieces]
    rfl
  · intro hends
    cases rest with
    | nil =>
      rw [cutText_nil] at hpieces
      rw [← Option.some.inj hpieces]
      exact hlast hends rfl
    | cons c cs =>
      cases pieces with
      | nil => exact absurd hpieces cutText_ne_nil
      | cons next pieces =>
        intro final hfinal
        refine htold hends final ?_
        rwa [List.getLast?_cons_cons] at hfinal

/-- The same in front of tags. -/
theorem Clean.step {text rest piece : List Char} {chunks : List Chunk}
    (hcut : ∀ n, cutText (n + 1) text = (cutText n rest).map (piece :: ·))
    (hlength : rest.length < text.length) (hlast : chunks = [] → rest = [] → Told [piece])
    (h : Clean rest chunks) : Clean text chunks := by
  cases chunks with
  | nil => exact Cuts.step hcut hlength (fun _ => hlast rfl) h
  | cons chunk chunks =>
    exact ⟨Cuts.step hcut hlength (fun hfalse => hfalse.elim) h.1, h.2⟩

theorem cuts_nil (last : Prop) : Cuts [] last := by
  intro n _
  refine ⟨[], cutText_nil n, ?_⟩
  intro _ piece hpiece
  cases hpiece

/-! ## Room for texts -/

/-- Texts of this width have room between the tags, and they fill it only if each text
there is cut. -/
def Fits (width : Nat) (text : List Char) (chunks : List Chunk) : Prop :=
  width + tagWidth chunks ≤ (text ++ spell chunks).length ∧
    ((text ++ spell chunks).length ≤ width + tagWidth chunks → Clean text chunks)

/-- Where there is room left, nothing is claimed of the texts. -/
theorem fits_of_lt {width : Nat} {text : List Char} {chunks : List Chunk}
    (h : width + tagWidth chunks < (text ++ spell chunks).length) : Fits width text chunks :=
  ⟨Nat.le_of_lt h, fun hle => absurd h (Nat.not_lt.mpr hle)⟩

/-- A piece is told in front of the rest of its text. -/
theorem Fits.step {width width' : Nat} {text rest : List Char} {chunks : List Chunk}
    (h : Fits width rest chunks) (piece : List Char) (htext : text = piece ++ rest)
    (hne : piece ≠ []) (hcut : ∀ n, cutText (n + 1) text = (cutText n rest).map (piece :: ·))
    (hwidth : width' ≤ piece.length) (hlast : chunks = [] → rest = [] → Told [piece]) :
    Fits (width' + width) text chunks := by
  obtain ⟨hroom, hclean⟩ := h
  have hpos := List.length_pos_of_ne_nil hne
  have hlength : (text ++ spell chunks).length = piece.length + (rest ++ spell chunks).length := by
    rw [htext, List.append_assoc, List.length_append]
  refine ⟨by omega, ?_⟩
  intro hfull
  refine Clean.step hcut ?_ hlast (hclean (by omega))
  rw [htext, List.length_append]
  omega

/-- A tag is read between two texts. -/
theorem Fits.tag {width : Nat} {chunk : Chunk} {chunks : List Chunk}
    (h : Fits width chunk.text chunks) : Fits width [] (chunk :: chunks) := by
  obtain ⟨hroom, hclean⟩ := h
  have hlength : ([] ++ spell (chunk :: chunks)).length =
      chunk.tag.length + (chunk.text ++ spell chunks).length := by
    rw [List.nil_append, spell_cons, List.length_append]
  have hwidth := tagWidth_cons chunk chunks
  refine ⟨by omega, ?_⟩
  intro hfull
  exact ⟨cuts_nil False, hclean (by omega)⟩

/-- A name that is broken is broken in its text, since no tag stands in front of a null
character. -/
theorem Broken.of_append {cs : List Char} {chunks : List Chunk}
    (htags : ∀ chunk ∈ chunks, chunk.Written lower refs markedSection)
    (h : Broken (cs ++ spell chunks)) :
    Broken cs ∧ (cs ++ spell chunks).takeWhile inTag = cs.takeWhile inTag ∧
      (cs ++ spell chunks).dropWhile inTag = cs.dropWhile inTag ++ spell chunks := by
  obtain ⟨hopens, hnull⟩ := h
  have hstops : (spell chunks).dropWhile inTag = [] ∨
      ((spell chunks).dropWhile inTag).head? ≠ some '\x00' := by
    cases chunks with
    | nil => exact .inl rfl
    | cons chunk chunks =>
      have htag : chunk.Written lower refs markedSection := htags _ List.mem_cons_self
      obtain ⟨inside, hinside, -⟩ := htag.ends
      have hne : chunk.tag.dropWhile inTag ≠ [] := by
        intro hnil
        rw [List.dropWhile_eq_nil_iff] at hnil
        have hgt := hnil '>' (by simp [hinside])
        exact absurd hgt (by decide)
      right
      rw [spell_cons, List.dropWhile_append, if_neg (by simpa using hne),
        List.head?_append_of_ne_nil _ hne]
      exact htag.stops
  -- a name that goes on to the end of its text ends in the tag behind it
  have hne : cs.dropWhile inTag ≠ [] := by
    intro hnil
    rw [List.dropWhile_append, if_pos (by simp [hnil])] at hnull
    rcases hstops with hstops | hstops
    · rw [hstops] at hnull
      cases hnull
    · exact hstops hnull
  have hdrop : (cs ++ spell chunks).dropWhile inTag = cs.dropWhile inTag ++ spell chunks := by
    rw [List.dropWhile_append, if_neg (by simpa using hne)]
  refine ⟨⟨?_, ?_⟩, ?_, hdrop⟩
  · cases cs with
    | nil => exact absurd rfl hne
    | cons c cs => exact hopens
  · rwa [hdrop, List.head?_append_of_ne_nil _ hne] at hnull
  · have hwhole := List.takeWhile_append_dropWhile (p := inTag) (l := cs ++ spell chunks)
    rw [hdrop, ← List.append_assoc] at hwhole
    have hfront := List.append_cancel_right hwhole
    conv_rhs at hfront => rw [← List.takeWhile_append_dropWhile (p := inTag) (l := cs)]
    exact List.append_cancel_right hfront

/-- A front ends where it ended before a rest that does not go on with it. -/
theorem span_append {p : Char → Bool} {rest : List Char} (hrest : rest.takeWhile p = [])
    (cs : List Char) : (cs ++ rest).takeWhile p = cs.takeWhile p ∧
      (cs ++ rest).dropWhile p = cs.dropWhile p ++ rest := by
  induction cs with
  | nil =>
    have hsplit := List.takeWhile_append_dropWhile (p := p) (l := rest)
    rw [hrest, List.nil_append] at hsplit
    exact ⟨hrest, hsplit⟩
  | cons c cs ih =>
    rw [List.cons_append]
    by_cases hc : p c = true
    · rw [List.takeWhile_cons_of_pos hc, List.takeWhile_cons_of_pos hc,
        List.dropWhile_cons_of_pos hc, List.dropWhile_cons_of_pos hc, ih.1, ih.2]
      exact ⟨rfl, rfl⟩
    · rw [List.takeWhile_cons_of_neg hc, List.takeWhile_cons_of_neg hc,
        List.dropWhile_cons_of_neg hc, List.dropWhile_cons_of_neg hc]
      exact ⟨rfl, rfl⟩

/-- Characters up to the next `<` end with their text. -/
theorem takeWhile_spell {chunks : List Chunk}
    (htags : ∀ chunk ∈ chunks, chunk.Written lower refs markedSection) :
    (spell chunks).takeWhile (fun c => decide (c ≠ '<')) = [] := by
  cases chunks with
  | nil => rfl
  | cons chunk chunks =>
    have htag : chunk.Written lower refs markedSection := htags _ List.mem_cons_self
    obtain ⟨ds, hds⟩ := htag.starts.cons
    rw [spell_cons, hds, List.cons_append, List.takeWhile_cons_of_neg (by simp)]

/-- No element with raw content is started. -/
def NoRaw (tokens : List Token) : Prop :=
  ∀ tag attrs, Token.start tag attrs ∈ tokens → tag ∉ cdataContentElements

theorem NoRaw.of_append {s t : List Token} (h : NoRaw (s ++ t)) : NoRaw s ∧ NoRaw t :=
  ⟨fun tag attrs hstart => h tag attrs (List.mem_append_left _ hstart),
    fun tag attrs hstart => h tag attrs (List.mem_append_right _ hstart)⟩

variable (lower refs markedSection) in
/-- With this fuel, the texts that are told fit between tags that were written. -/
def FitsWith (fuel : Nat) : Prop :=
  ∀ {text : List Char} {chunks : List Chunk},
    (∀ chunk ∈ chunks, chunk.Written lower refs markedSection) →
    (text ++ spell chunks).length < fuel →
    NoRaw (goahead lower refs markedSection fuel none (text ++ spell chunks)) →
      Fits (textWidth (goahead lower refs markedSection fuel none (text ++ spell chunks))) text
        chunks

/-- A text is written with no more characters than it has. -/
theorem textWidth_data (text : String) : textWidth [.data text] ≤ text.toList.length := by
  have htext := length_collapseWhitespace text
  unfold textWidth Token.textWidth
  simpa using htext

/-- A tag is read as it was written. -/
theorem FitsWith.tag {fuel : Nat} (h : FitsWith lower refs markedSection fuel)
    {chunk : Chunk} {chunks : List Chunk}
    (htags : ∀ c ∈ chunk :: chunks, c.Written lower refs markedSection)
    (hfuel : (spell (chunk :: chunks)).length < fuel + 1)
    (hraw : NoRaw (goahead lower refs markedSection (fuel + 1) none
      (spell (chunk :: chunks)))) :
    Fits (textWidth (goahead lower refs markedSection (fuel + 1) none
      (spell (chunk :: chunks)))) [] (chunk :: chunks) := by
  have htag : chunk.Written lower refs markedSection := htags _ List.mem_cons_self
  obtain ⟨ds, hds⟩ := htag.starts.cons
  have hmarkup := htag.reads (chunk.text ++ spell chunks)
  have hgo : goahead lower refs markedSection (fuel + 1) none (spell (chunk :: chunks)) =
      [chunk.token] ++ goahead lower refs markedSection fuel none (chunk.text ++ spell chunks) := by
    rw [hds, List.tail_cons] at hmarkup
    rw [spell_cons, hds, List.cons_append, goahead, if_pos rfl, hmarkup]
  have hlength : (chunk.text ++ spell chunks).length < fuel := by
    rw [spell_cons, hds, List.cons_append, List.length_cons, List.length_append] at hfuel
    omega
  rw [hgo] at hraw ⊢
  have hrest := h (fun chunk hchunk => htags chunk (List.mem_cons_of_mem _ hchunk)) hlength
    hraw.of_append.2
  have hnone : textWidth [chunk.token] = 0 := by
    unfold textWidth
    simpa using htag.noText
  rw [textWidth_append, hnone, Nat.zero_add]
  exact hrest.tag

/-- A `<` in a text: what is taken for markup leaves too little room, and otherwise it is
told. -/
theorem FitsWith.markup (hsection : SectionsEnd markedSection)
    {fuel : Nat} (h : FitsWith lower refs markedSection fuel) {cs : List Char}
    {chunks : List Chunk} (htags : ∀ chunk ∈ chunks, chunk.Written lower refs markedSection)
    (hfuel : (cs ++ spell chunks).length < fuel)
    (hraw : NoRaw (goahead lower refs markedSection (fuel + 1) none
      ('<' :: (cs ++ spell chunks)))) :
    Fits (textWidth (goahead lower refs markedSection (fuel + 1) none
      ('<' :: (cs ++ spell chunks)))) ('<' :: cs) chunks := by
  have hlength : ('<' :: cs ++ spell chunks).length = (cs ++ spell chunks).length + 1 := rfl
  have htagWidth := tagWidth_le chunks
  rw [goahead, if_pos rfl] at hraw ⊢
  cases hmarkup : Dom.markup lower refs markedSection (cs ++ spell chunks) with
  | incomplete =>
    -- nothing more is told, and the `<` itself had room
    refine fits_of_lt ?_
    have hnone : textWidth [] = 0 := rfl
    rw [hnone, hlength, List.length_append]
    omega
  | more tokens rawOf rest =>
    rw [hmarkup] at hraw
    dsimp only at hraw ⊢
    rcases markup_cases hsection hmarkup with htaken | ⟨hlone, rfl, rfl, rfl⟩ |
      ⟨hbroken, rfl, rfl, rfl⟩
    · -- the tags that were skipped and the `<` have more characters than are told of them
      obtain ⟨hthrough, hnone, hstart⟩ := htaken
      obtain rfl : rawOf = none := by
        rw [Option.eq_none_iff_forall_not_mem]
        intro tag htag
        obtain ⟨hcdata, attrs, hmem⟩ := hstart tag htag
        exact hraw.of_append.1 tag attrs hmem hcdata
      obtain ⟨b, left, rfl, hleft, hwidth⟩ := spell_throughGt htags hthrough
      have hused : (b ++ spell left).length ≤ (cs ++ spell chunks).length := by
        obtain ⟨used, hused⟩ := hthrough
        rw [hused]
        simp only [List.length_append, List.length_cons]
        omega
      have hrest := (h (fun chunk hchunk => htags chunk (hleft chunk hchunk)) (by omega)
        hraw.of_append.2).1
      refine fits_of_lt ?_
      rw [textWidth_append, hnone, Nat.zero_add, hlength]
      omega
    · -- a piece of one character
      obtain ⟨d, ds, hds, hletter, hmark⟩ := hlone
      rw [textWidth_append]
      refine (h htags hfuel hraw.of_append.2).step ['<'] rfl (List.cons_ne_nil _ _) ?_
        (textWidth_data "<") ?_
      · intro n
        rw [cutText, if_pos rfl]
        cases cs with
        | nil => rfl
        | cons d' ds' =>
          obtain ⟨rfl, -⟩ := List.cons.inj hds
          rw [if_neg (by simpa using hletter), if_neg (by simpa using hmark)]
      · rintro rfl rfl
        cases hds
    · -- a piece with the name, which is told as it is
      obtain ⟨hbroken', htake, hdrop⟩ := hbroken.of_append htags
      obtain ⟨hopens, hnull⟩ := hbroken'
      have hlength' : (cs.dropWhile inTag ++ spell chunks).length < fuel := by
        have hsuffix := (cs.dropWhile_suffix inTag).length_le
        rw [List.length_append] at hfuel ⊢
        omega
      rw [hdrop] at hraw ⊢
      rw [htake, textWidth_append]
      refine (h htags hlength' hraw.of_append.2).step ('<' :: cs.takeWhile inTag) ?_
        (List.cons_ne_nil _ _) ?_ ?_ ?_
      · rw [List.cons_append, List.takeWhile_append_dropWhile]
      · intro n
        rw [cutText, if_pos rfl, if_pos hopens, if_pos hnull]
      · have hdata := textWidth_data (String.ofList ('<' :: cs.takeWhile inTag))
        rwa [String.toList_ofList] at hdata
      · intro _ hnil
        rw [hnil] at hnull
        cases hnull

/-- Characters up to the next `<`. -/
theorem FitsWith.segment (hshort : refs.Short) {fuel : Nat}
    (h : FitsWith lower refs markedSection fuel) {c : Char} {cs : List Char} (hc : c ≠ '<')
    {chunks : List Chunk} (htags : ∀ chunk ∈ chunks, chunk.Written lower refs markedSection)
    (hfuel : (cs ++ spell chunks).length < fuel)
    (hraw : NoRaw (goahead lower refs markedSection (fuel + 1) none (c :: (cs ++ spell chunks)))) :
    Fits (textWidth (goahead lower refs markedSection (fuel + 1) none
      (c :: (cs ++ spell chunks)))) (c :: cs) chunks := by
  obtain ⟨htake, hdrop⟩ := span_append (takeWhile_spell htags) (c :: cs)
  rw [List.cons_append] at htake hdrop
  rw [goahead, if_neg hc] at hraw ⊢
  dsimp only at hraw ⊢
  rw [htake, hdrop] at hraw ⊢
  have hcons : (c :: cs).takeWhile (fun d => decide (d ≠ '<')) ≠ [] := by
    rw [List.takeWhile_cons_of_pos (by simpa using hc)]
    exact List.cons_ne_nil _ _
  by_cases hends : (c :: cs).dropWhile (fun d => decide (d ≠ '<')) ++ spell chunks = [] ∧
      cutOff ((c :: cs).takeWhile fun d => decide (d ≠ '<')) = true
  · -- the text is kept for what may follow, and is not told
    rw [if_pos hends] at hraw ⊢
    have htagWidth := tagWidth_le chunks
    refine fits_of_lt ?_
    have hnone : textWidth [] = 0 := rfl
    rw [hnone, List.length_append, List.length_cons]
    omega
  · -- a piece whose references are replaced
    rw [if_neg hends] at hraw ⊢
    have hlength : ((c :: cs).dropWhile (fun d => decide (d ≠ '<')) ++ spell chunks).length <
        fuel := by
      have hsplit := congrArg List.length
        (List.takeWhile_append_dropWhile (p := fun d => decide (d ≠ '<')) (l := c :: cs))
      have hpos := List.length_pos_of_ne_nil hcons
      rw [List.length_append, List.length_cons] at hsplit
      rw [List.length_append] at hfuel ⊢
      omega
    rw [← List.singleton_append] at hraw ⊢
    rw [textWidth_append]
    refine (h htags hlength hraw.of_append.2).step _ ?_ hcons ?_ ?_ ?_
    · rw [List.takeWhile_append_dropWhile]
    · intro n
      rw [cutText, if_neg hc]
    · have hdata := textWidth_data (String.ofList
        (unescape refs ((c :: cs).takeWhile fun d => decide (d ≠ '<'))))
      have hunescape := length_unescape hshort ((c :: cs).takeWhile fun d => decide (d ≠ '<'))
      rw [String.toList_ofList] at hdata
      omega
    · intro hnil hrest piece hpiece
      obtain rfl : (c :: cs).takeWhile (fun d => decide (d ≠ '<')) = piece :=
        Option.some.inj hpiece
      refine ⟨?_, ?_⟩
      · rw [List.takeWhile_cons_of_pos (by simpa using hc)]
        intro heq
        exact hc (List.cons.inj heq).1
      · rw [hnil, hrest] at hends
        simpa [spell] using hends

/-- The texts that are told fit between the tags that were written. -/
theorem fitsWith (hsection : SectionsEnd markedSection)
    (hshort : refs.Short) (fuel : Nat) : FitsWith lower refs markedSection fuel := by
  induction fuel with
  | zero =>
    intro text chunks _ hfuel
    omega
  | succ fuel ih =>
    intro text chunks htags hfuel hraw
    cases text with
    | nil =>
      cases chunks with
      | nil => exact ⟨Nat.le_refl _, fun _ => cuts_nil True⟩
      | cons chunk chunks => exact ih.tag htags hfuel hraw
    | cons c cs =>
      have hlength : (cs ++ spell chunks).length < fuel := Nat.lt_of_succ_lt_succ hfuel
      by_cases hc : c = '<'
      · subst hc
        exact ih.markup hsection htags hlength hraw
      · exact ih.segment hshort hc htags hlength hraw

end Plaidify.Dom
