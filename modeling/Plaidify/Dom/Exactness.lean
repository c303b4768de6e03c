import Plaidify.Dom.Spelling

/-!
# Which pages read back

`roundTrips_iff`: what `simplify_html` writes of a well-nested page reads back as it
should just where the texts that are left of the page do, one by one.

A page that reads back has as many characters as its tags and the texts that were read,
and the tags are those that were written. So the texts have all the room there is between
the tags, and none of them can have lost anything to what the parser took for markup.
-/

namespace Plaidify.Dom

variable {lower : String → String} {refs : References}
  {markedSection : List Char → Option (List Char)} {page : Forest Markup String}

/-! ## Texts that are cut -/

theorem Clean.tail {text : List Char} {chunks : List Chunk} (h : Clean text chunks) :
    Clean [] chunks := by
  cases chunks with
  | nil => exact cuts_nil True
  | cons chunk chunks => exact ⟨cuts_nil False, h.2⟩

/-- The text in front is cut. -/
theorem Clean.cut {text : String} {chunks : List Chunk} (h : Clean text.toList chunks) :
    (Dom.cut text).isSome = true := by
  have hcuts : ∃ last, Cuts text.toList last := by
    cases chunks with
    | nil => exact ⟨True, h⟩
    | cons chunk chunks => exact ⟨False, h.1⟩
  obtain ⟨last, hlast⟩ := hcuts
  obtain ⟨pieces, hpieces, -⟩ := hlast _ (Nat.le_refl _)
  unfold Dom.cut
  rw [hpieces]
  rfl

/-- Where the texts between the tags are cut, so are the texts of the forest. -/
theorem clean_spellForest {f : Forest KeptTag String} : ∀ {n : Nat} {after : Spelled},
    f.LeavesApart → f.AllNodes (KeptNode lower) → after.1 = [] →
      Clean (spellForest lower n f after).1 (spellForest lower n f after).2 →
        Clean [] after.2 ∧ f.AllLeaves (fun text => (cut text).isSome = true) ∧
          (after.2 = [] → ∀ text ∈ f.lastLeaf, ∀ pieces ∈ cut text, Told pieces) := by
  induction f with
  | nil =>
    intro n after _ _ hafter hclean
    exact ⟨hclean.tail, trivial, fun _ text htext => absurd htext (Option.not_mem_none _)⟩
  | leaf text f ih =>
    intro n after hapart hnodes hafter hclean
    obtain ⟨hapart', hnext⟩ := hapart.after_leaf
    -- behind a text there is a tag or nothing, so that it is all of the text between two tags
    have hnil : (spellForest lower n f after).1 = [] := by
      rcases hnext with rfl | ⟨k, inner, rest, rfl⟩
      · exact hafter
      · rfl
    rw [spellForest] at hclean
    dsimp only at hclean
    rw [hnil, List.append_nil] at hclean
    have hrest := hclean.tail
    rw [← hnil] at hrest
    obtain ⟨hclean', hleaves, htold⟩ := ih hapart' hnodes hafter hrest
    refine ⟨hclean', ⟨hclean.cut, hleaves⟩, ?_⟩
    -- the last text is the one behind which there is nothing
    intro hends last hlast pieces hpieces
    rcases hnext with rfl | ⟨k, inner, rest, rfl⟩
    · obtain rfl : text = last := Option.some.inj hlast
      rw [spellForest, hends] at hclean
      obtain ⟨pieces', hpieces', htold'⟩ := hclean _ (Nat.le_refl _)
      obtain rfl : pieces' = pieces := Option.some.inj (hpieces'.symm.trans hpieces)
      exact htold' trivial
    · exact htold hends last hlast pieces hpieces
  | node k inner f ihInner ihRest =>
    intro n after hapart hnodes hafter hclean
    obtain ⟨hk, hinner, hrest⟩ := hnodes
    obtain ⟨-, hbehind⟩ := hclean
    -- without an end tag, what follows the element follows its opening tag
    by_cases hvoid : k.tag ∈ voidTags
    · obtain rfl := hk.void hvoid
      unfold spellClosing at hbehind
      rw [if_pos hvoid] at hbehind
      obtain ⟨hclean', hleaves, htold⟩ := ihRest hapart.2 hrest hafter hbehind
      exact ⟨hclean', ⟨trivial, hleaves⟩, htold⟩
    · unfold spellClosing at hbehind
      rw [if_neg hvoid] at hbehind
      obtain ⟨hclosing, hleaves, -⟩ := ihInner hapart.1 hinner rfl hbehind
      obtain ⟨hclean', hleaves', htold⟩ := ihRest hapart.2 hrest hafter hclosing.2
      exact ⟨hclean', ⟨hleaves, hleaves'⟩, htold⟩

/-! ## Names that are read -/

/-- The length of the names of the end tags. -/
def Token.nameWidth (lower : String → String) : Token → Nat
  | .finish name => (lower name).toList.length
  | _ => 0

variable (lower) in
/-- The same of all tokens. -/
def nameWidth (tokens : List Token) : Nat :=
  (tokens.map (Token.nameWidth lower)).sum

theorem nameWidth_append (s t : List Token) :
    nameWidth lower (s ++ t) = nameWidth lower s + nameWidth lower t := by
  unfold nameWidth
  rw [List.map_append, List.sum_append]

/-- Texts that are cut leave the tokens of the tags between them. -/
theorem reads_clean {chunks : List Chunk} : ∀ {text : List Char},
    (∀ chunk ∈ chunks, chunk.Written lower refs markedSection) → Clean text chunks →
      ∃ tokens, Reads lower refs markedSection (text ++ spell chunks) tokens [] ∧
        nameWidth lower tokens = nameWidth lower (chunks.map Chunk.token) := by
  -- pieces of text count no name
  have hdata : ∀ pieces : List (List Char),
      nameWidth lower (pieces.map fun piece => .data (readPiece refs piece)) = 0 := by
    intro pieces
    induction pieces with
    | nil => rfl
    | cons piece pieces ih =>
      rw [List.map_cons, ← List.singleton_append, nameWidth_append, ih]
      rfl
  induction chunks with
  | nil =>
    intro text _ hclean
    -- the last text ends the page, so that nothing is kept back
    obtain ⟨pieces, hpieces, htold⟩ := hclean _ (Nat.le_refl _)
    refine ⟨_, ?_, hdata pieces⟩
    have hreads : Reads lower refs markedSection text _ [] :=
      reads_text (.inr rfl) hpieces fun _ => htold trivial
    rwa [spell, List.flatMap_nil, List.append_nil]
  | cons chunk chunks ih =>
    intro text htags hclean
    have htag : chunk.Written lower refs markedSection := htags _ List.mem_cons_self
    obtain ⟨hcuts, hbehind⟩ := hclean
    obtain ⟨pieces, hpieces, -⟩ := hcuts _ (Nat.le_refl _)
    -- what follows the next tag is told first
    obtain ⟨tokens, hreads, hwidth⟩ :=
      ih (fun c hc => htags c (List.mem_cons_of_mem _ hc)) hbehind
    obtain ⟨d, ds, hds, hopens⟩ := htag.starts
    -- the tag is told as itself, whatever follows it
    have htagged : Reads lower refs markedSection chunk.tag [chunk.token]
        ((chunk.text ++ spell chunks) ++ []) := by
      have hmarkup := htag.reads ((chunk.text ++ spell chunks) ++ [])
      rw [hds, List.tail_cons] at hmarkup
      rw [hds]
      exact Reads.of_markup hmarkup
    have hrest := htagged.append hreads
    rw [← spell_cons] at hrest
    -- the text in front of the tag is told in its pieces
    have htext : Reads lower refs markedSection text
        (pieces.map fun piece => .data (readPiece refs piece)) (spell (chunk :: chunks) ++ []) := by
      refine reads_text (.inl ⟨d, ds ++ (chunk.text ++ spell chunks), ?_, hopens⟩) hpieces ?_
      · rw [List.append_nil, spell_cons, hds]
        rfl
      · intro hnil
        rw [List.append_nil, spell_cons, hds] at hnil
        cases hnil
    refine ⟨_, htext.append hrest, ?_⟩
    rw [nameWidth_append, hdata, Nat.zero_add, nameWidth_append, hwidth, ← nameWidth_append]
    rfl

/-- The length of the name in the end tag of an element. -/
def closingWidth (info : ElementInfo) : Nat :=
  if info.tag ∈ voidTags then 0 else info.tag.toList.length

/-- Every element that needs an end tag has one under its name. -/
theorem closingWidth_le : Proper lower page → (∀ e ∈ readMap page, KeptInfo lower e.2) →
    ((readMap page).map fun e => closingWidth e.2).sum ≤ nameWidth lower (tokens page) := by
  induction page with
  | nil => exact fun _ _ => Nat.le_refl _
  | leaf text page ih =>
    intro hproper hkept
    have hrest := ih hproper hkept
    have hdata : nameWidth lower [.data text] = 0 := rfl
    rw [tokens, ← List.singleton_append, nameWidth_append, hdata, Nat.zero_add]
    exact hrest
  | node m inner page ihInner ihRest =>
    rintro ⟨hshape, hname, hproper, hproper'⟩ hkept
    have hlowered : lower m.tag = m.tag := (hkept _ List.mem_cons_self).lowered
    obtain ⟨-, hinner, hrest⟩ := keptForest_node hkept
    have hinner' := ihInner hproper hinner
    have hrest' := ihRest hproper' hrest
    -- a void element may have an end tag all the same, which adds to what is read
    have hclosing : (if m.tag ∈ voidTags then 0 else m.tag.toList.length) ≤
        nameWidth lower (m.closing.toList.map Token.finish) := by
      split
      · exact Nat.zero_le _
      · next hvoid =>
        rw [hlowered, if_neg hvoid] at hshape
        obtain ⟨name, hsome⟩ := Option.isSome_iff_exists.mp hshape
        have hsame := hname name hsome
        rw [hsome]
        simp [nameWidth, Token.nameWidth, hsame, hlowered]
    have hstart : nameWidth lower [.start m.tag m.attrs] = 0 := rfl
    rw [readMap, List.map_cons, List.sum_cons, List.map_append, List.sum_append, tokens,
      ← List.singleton_append, nameWidth_append, nameWidth_append, nameWidth_append, hstart]
    unfold closingWidth at hinner' hrest' ⊢
    dsimp only
    omega

/-- The names that are read are as long as the names of the elements only if each of them
is read as a whole. -/
theorem names_spellForest (hlower : Lowering lower)
    (hplain : KeepsPlain lower) {f : Forest KeptTag String} :
    ∀ (n : Nat) (after : Spelled), f.AllNodes (KeptNode lower) →
      let read := nameWidth lower ((spellForest lower n f after).2.map Chunk.token)
      let all := ((f.nodes n).map fun node => closingWidth (entry lower node).2).sum +
        nameWidth lower (after.2.map Chunk.token)
      read ≤ all ∧ (all ≤ read → f.AllNodes fun k _ => EndsName k.tag.toList) := by
  -- the names of the void elements are read as a whole
  have hvoidName : ∀ tag ∈ voidTags, tag.toList.dropWhile inEndTag = [] := by decide
  induction f with
  | nil =>
    intro n after _
    refine ⟨?_, fun _ => trivial⟩
    rw [spellForest, Forest.nodes, List.map_nil, List.sum_nil, Nat.zero_add]
  | leaf text f ih => exact ih
  | node k inner f ihInner ihRest =>
    rintro n after ⟨hk, hinner, hrest⟩
    obtain ⟨hle, hends⟩ := ihInner (n + 1)
      (spellClosing lower k (spellForest lower (n + 1 + inner.size) f after)) hinner
    obtain ⟨hle', hends'⟩ := ihRest (n + 1 + inner.size) after hrest
    -- an opening tag counts no name of an end tag
    have hopening : ∀ text chunks, nameWidth lower
        ((openingChunk lower n k text :: chunks).map Chunk.token) =
          nameWidth lower (chunks.map Chunk.token) := by
      intro text chunks
      unfold nameWidth
      simp [openingChunk, Token.nameWidth]
    -- a closing tag counts what is read of its name
    have hclosing : nameWidth lower ((spellClosing lower k
        (spellForest lower (n + 1 + inner.size) f after)).2.map Chunk.token) =
          (if k.tag ∈ voidTags then 0 else (lower (endName k.tag)).toList.length) +
            nameWidth lower
              ((spellForest lower (n + 1 + inner.size) f after).2.map Chunk.token) := by
      unfold spellClosing
      split
      · rw [Nat.zero_add]
      · unfold nameWidth
        simp [closingChunk, Token.nameWidth, hlower.lower_lower]
    -- which is as long as the name only if it is the name
    have hnode : (if k.tag ∈ voidTags then 0 else (lower (endName k.tag)).toList.length) ≤
        (if k.tag ∈ voidTags then 0 else k.tag.toList.length) ∧
          ((if k.tag ∈ voidTags then 0 else k.tag.toList.length) ≤
            (if k.tag ∈ voidTags then 0 else (lower (endName k.tag)).toList.length) →
              EndsName k.tag.toList) := by
      split
      · next hvoid => exact ⟨Nat.le_refl _, fun _ => .inl (hvoidName _ hvoid)⟩
      · by_cases hwhole : EndsName k.tag.toList
        · rw [endName_of_endsName hwhole, hk.lowered]
          exact ⟨Nat.le_refl _, fun _ => hwhole⟩
        · -- what is read is a front of the name, and does not get longer
          obtain ⟨hin, hshorter⟩ := endName_shorter hwhole
          have hlength := hplain _ hin
          exact ⟨by omega, fun h => by omega⟩
    obtain ⟨hle'', hends''⟩ := hnode
    rw [hclosing] at hle hends
    dsimp only
    rw [spellForest, hopening, Forest.nodes, List.map_cons, List.sum_cons, List.map_append,
      List.sum_append]
    have hentry : closingWidth (entry lower ⟨n + 1, k, inner.leaves, inner.tops (n + 1)⟩).2 =
        if k.tag ∈ voidTags then 0 else k.tag.toList.length := rfl
    rw [hentry]
    refine ⟨by omega, fun hall => ⟨hends'' (by omega), hends (by omega), hends' (by omega)⟩⟩

/-! ## A page is read in one way -/

/-- What follows a forest within the tokens of a page. -/
def EndsForest (lower : String → String) (tokens : List Token) : Prop :=
  tokens = [] ∨ ∃ name rest, tokens = .finish name :: rest ∧ lower name ∉ voidTags

theorem EndsForest.not_start {name : String} {attrs : List (String × Option String)}
    {rest : List Token} : ¬ EndsForest lower (.start name attrs :: rest) := by
  rintro (hnil | ⟨name', rest', heq, -⟩)
  · cases hnil
  · cases heq

theorem EndsForest.not_data {text : String} {rest : List Token} :
    ¬ EndsForest lower (.data text :: rest) := by
  rintro (hnil | ⟨name', rest', heq, -⟩)
  · cases hnil
  · cases heq

/-- An end tag that a void element lacks does not follow it either. -/
theorem EndsForest.not_void {f : Forest Markup String} {name : String} {s rest : List Token}
    (hs : EndsForest lower s) (heq : tokens f ++ s = .finish name :: rest) :
    lower name ∉ voidTags := by
  cases f with
  | nil =>
    rcases hs with rfl | ⟨name', rest', rfl, hvoid⟩
    · cases heq
    · obtain ⟨hname, -⟩ := List.cons.inj heq
      rwa [← Token.finish.inj hname]
  | leaf text f => cases heq
  | node m inner f => cases heq

/-- The tokens of a well-nested page are those of no other one. -/
theorem tokens_unique {f : Forest Markup String} : ∀ {g : Forest Markup String}
    {s t : List Token}, Proper lower f → Proper lower g → EndsForest lower s →
      EndsForest lower t → tokens f ++ s = tokens g ++ t → f = g ∧ s = t := by
  induction f with
  | nil =>
    intro g s t _ _ hs _ heq
    -- tokens that begin with a text or a start tag are not those of the empty page
    rw [tokens, List.nil_append] at heq
    cases g with
    | nil => exact ⟨rfl, heq⟩
    | leaf text g =>
      rw [heq] at hs
      exact absurd hs EndsForest.not_data
    | node m inner g =>
      rw [heq] at hs
      exact absurd hs EndsForest.not_start
  | leaf text f ih =>
    intro g s t hf hg hs ht heq
    cases g with
    | nil =>
      rw [tokens, tokens, List.nil_append] at heq
      rw [← heq] at ht
      exact absurd ht EndsForest.not_data
    | leaf text' g =>
      obtain ⟨htext, hrest⟩ := List.cons.inj heq
      -- the same text is told first
      obtain ⟨hsame, hafter⟩ : f = g ∧ s = t := ih hf hg hs ht hrest
      rw [Token.data.inj htext, hsame]
      exact ⟨rfl, hafter⟩
    | node m inner g => cases heq
  | node m inner f ihInner ihRest =>
    rintro g s t ⟨hshape, hname, hinner, hrest⟩ hg hs ht heq
    cases g with
    | nil =>
      rw [tokens, tokens, List.nil_append] at heq
      rw [← heq] at ht
      exact absurd ht EndsForest.not_start
    | leaf text g => cases heq
    | node m' inner' g =>
      obtain ⟨hshape', hname', hinner', hrest'⟩ := hg
      obtain ⟨tag, attrs, closing⟩ := m
      obtain ⟨tag', attrs', closing'⟩ := m'
      obtain ⟨hstart, hbehind⟩ := List.cons.inj heq
      -- the same start tag is told first
      obtain ⟨rfl, rfl⟩ := Token.start.inj hstart
      dsimp only at hshape hshape' hname hname' hbehind
      simp only [List.append_eq, List.append_assoc] at hbehind
      by_cases hvoid : lower tag ∈ voidTags
      · -- an end tag that only one of them has would have to end what they stand in
        rw [if_pos hvoid] at hshape hshape'
        subst hshape hshape'
        cases closing with
        | none =>
          cases closing' with
          | none =>
            obtain ⟨rfl, rfl⟩ := ihRest hrest hrest' hs ht hbehind
            exact ⟨rfl, rfl⟩
          | some name =>
            exact absurd (hname' name rfl ▸ hvoid) (hs.not_void hbehind)
        | some name =>
          cases closing' with
          | none =>
            exact absurd (hname name rfl ▸ hvoid) (ht.not_void hbehind.symm)
          | some name' =>
            obtain ⟨hsame, hbehind'⟩ := List.cons.inj hbehind
            obtain ⟨rfl, rfl⟩ := ihRest hrest hrest' hs ht hbehind'
            rw [Token.finish.inj hsame]
            exact ⟨rfl, rfl⟩
      · -- both have an end tag, which the texts and elements in them end in front of
        rw [if_neg hvoid] at hshape hshape'
        obtain ⟨name, rfl⟩ := Option.isSome_iff_exists.mp hshape
        obtain ⟨name', rfl⟩ := Option.isSome_iff_exists.mp hshape'
        have hends : EndsForest lower (.finish name :: (tokens f ++ s)) :=
          .inr ⟨_, _, rfl, by rwa [hname name rfl]⟩
        have hends' : EndsForest lower (.finish name' :: (tokens g ++ t)) :=
          .inr ⟨_, _, rfl, by rwa [hname' name' rfl]⟩
        obtain ⟨rfl, hafter⟩ := ihInner hinner hinner' hends hends' hbehind
        obtain ⟨hsame, hbehind'⟩ := List.cons.inj hafter
        obtain ⟨rfl, rfl⟩ := ihRest hrest hrest' hs ht hbehind'
        rw [Token.finish.inj hsame]
        exact ⟨rfl, rfl⟩

/-! ## Texts that are read as they were -/

/-- The pieces of a text are the text. -/
theorem cutText_flatten (n : Nat) : ∀ {text : List Char} {pieces : List (List Char)},
    cutText n text = some pieces → pieces.flatten = text := by
  induction n with
  | zero =>
    intro text pieces h
    cases text with
    | nil =>
      rw [← Option.some.inj h]
      rfl
    | cons c cs => cases h
  | succ n ih =>
    intro text pieces h
    cases text with
    | nil =>
      rw [← Option.some.inj h]
      rfl
    | cons c cs =>
      rw [cutText] at h
      split_ifs at h with hlt hletter hnull hmarkup
      · obtain ⟨rest, hrest, rfl⟩ := Option.map_eq_some_iff.mp h
        rw [List.flatten_cons, ih hrest, List.cons_append, List.takeWhile_append_dropWhile, hlt]
      · obtain ⟨rest, hrest, rfl⟩ := Option.map_eq_some_iff.mp h
        rw [List.flatten_cons, ih hrest, hlt]
        rfl
      · obtain ⟨rest, hrest, rfl⟩ := Option.map_eq_some_iff.mp h
        rw [List.flatten_cons, ih hrest, List.takeWhile_append_dropWhile]

theorem length_readPiece (hshort : refs.Short) (piece : List Char) :
    (readPiece refs piece).toList.length ≤ piece.length := by
  unfold readPiece
  split
  · rw [String.toList_ofList]
  · rw [String.toList_ofList]
    exact length_unescape hshort piece

/-- What is read of a text is written with no more characters. -/
theorem length_readings (hshort : refs.Short) (text : String) :
    ((visible (readings refs text)).flatMap String.toList).length ≤ text.toList.length := by
  have hvisible : ∀ pieces : List (List Char),
      ((visible (pieces.map (readPiece refs))).flatMap String.toList).length ≤
        pieces.flatten.length := by
    intro pieces
    induction pieces with
    | nil => exact Nat.le_refl _
    | cons piece pieces ih =>
      have hsplit : visible (readPiece refs piece :: pieces.map (readPiece refs)) =
          visible [readPiece refs piece] ++ visible (pieces.map (readPiece refs)) :=
        visible_append [readPiece refs piece] _
      have hpiece := length_readPiece hshort piece
      have hcollapsed := length_collapseWhitespace (readPiece refs piece)
      rw [List.map_cons, hsplit, List.flatMap_append, List.length_append, List.flatten_cons,
        List.length_append, visible_singleton]
      split
      · rw [List.flatMap_nil, List.length_nil]
        omega
      · rw [List.flatMap_singleton]
        omega
  unfold readings
  cases hcut : cut text with
  | none => exact Nat.zero_le _
  | some pieces =>
    have hflatten := cutText_flatten _ hcut
    have hlength := hvisible pieces
    rwa [hflatten] at hlength

/-- What is read of a forest is written with no more characters than it was read from. -/
theorem length_reread (hlower : Lowering lower) (hshort : refs.Short)
    {f : Forest KeptTag String} : ∀ {n : Nat}, f.AllNodes (KeptNode lower) →
      (writeAll (pieces lower n (keptForest lower (readForest lower refs n f)))).length ≤
        (writeForest lower n f).length := by
  induction f with
  | nil => exact fun _ => Nat.le_refl _
  | leaf text f ih =>
    intro n hnodes
    have htext := length_readings hshort text
    have hrest := ih (n := n) hnodes
    rw [writeAll_readLeaf, writeForest, List.length_append, List.length_append]
    omega
  | node k inner f ihInner ihRest =>
    rintro n ⟨hk, hinner, hrest⟩
    have hinner' := ihInner (n := n + 1) hinner
    have hrest' := ihRest (n := n + 1 + inner.size) hrest
    rw [writeAll_readNode hlower hk hinner, write_opening, writeForest]
    simp only [List.length_append, List.length_cons, List.length_nil]
    omega

/-- If what is read is written as it was, so is each of its texts. -/
theorem texts_of_writeAll (hlower : Lowering lower) (hshort : refs.Short)
    {f : Forest KeptTag String} : ∀ {n : Nat} {a b : List Char}, f.AllNodes (KeptNode lower) →
      a.length ≤ b.length →
      writeAll (pieces lower n (keptForest lower (readForest lower refs n f))) ++ a =
        writeForest lower n f ++ b →
        a = b ∧ f.AllLeaves fun text =>
          (visible (readings refs text)).flatMap String.toList = text.toList := by
  induction f with
  | nil => exact fun _ _ heq => ⟨heq, trivial⟩
  | leaf text f ih =>
    intro n a b hnodes hle heq
    have htext := length_readings hshort text
    have hrest := length_reread hlower hshort (f := f) (n := n) hnodes
    rw [writeAll_readLeaf, writeForest, List.append_assoc, List.append_assoc] at heq
    have hlength := congrArg List.length heq
    simp only [List.length_append] at hlength
    -- no part is longer than what it was read from, so that each is as long
    obtain ⟨hsame, hbehind⟩ := List.append_inj heq (by omega)
    obtain ⟨hend, hleaves⟩ := ih hnodes hle hbehind
    exact ⟨hend, hsame, hleaves⟩
  | node k inner f ihInner ihRest =>
    rintro n a b ⟨hk, hinner, hrest⟩ hle heq
    have hrest' := length_reread hlower hshort (n := n + 1 + inner.size) hrest
    rw [writeAll_readNode hlower hk hinner, write_opening, writeForest] at heq
    simp only [List.cons_append, List.append_assoc, List.nil_append, List.cons.injEq,
      List.append_cancel_left_eq, true_and] at heq
    obtain ⟨hbehind, hleaves⟩ := ihInner hinner (by
      simp only [List.length_append]
      omega) heq
    rw [List.append_cancel_left_eq] at hbehind
    obtain ⟨hend, hleaves'⟩ := ihRest hrest hle hbehind
    exact ⟨hend, hleaves, hleaves'⟩

/-! ## Texts that are told apart -/

section

-- whether a text is empty is not to be computed below
attribute [local irreducible] glue


/-- Words that do not begin with a space leave no room for another one in front of them. -/
theorem nil_of_afterWord {words : List (List Char)} {gap a b : List Char}
    (hwords : ∀ word ∈ words, ∃ c cs, word = c :: cs ∧ Text.isSpace c = false)
    (hjoined : afterWord words = gap ++ a) (hchars : words.flatten = gap ++ b) : gap = [] := by
  cases words with
  | nil => exact (List.append_eq_nil_iff.mp hjoined.symm).1
  | cons word words =>
    obtain ⟨c, cs, rfl, hspace⟩ := hwords word List.mem_cons_self
    cases gap with
    | nil => rfl
    | cons d gap =>
      have hblank : ' ' = d := (List.cons.inj hjoined).1
      have hfirst : c = d := (List.cons.inj hchars).1
      rw [hfirst, ← hblank] at hspace
      exact absurd hspace (by decide)

/-- Such words are told by what they are joined to and by their characters. -/
theorem words_unique {a : List (List Char)} : ∀ {b : List (List Char)},
    (∀ word ∈ a, ∃ c cs, word = c :: cs ∧ Text.isSpace c = false) →
    (∀ word ∈ b, ∃ c cs, word = c :: cs ∧ Text.isSpace c = false) →
      [' '].intercalate a = [' '].intercalate b → a.flatten = b.flatten → a = b := by
  induction a with
  | nil =>
    intro b _ hb _ hchars
    cases b with
    | nil => rfl
    | cons word b =>
      obtain ⟨c, cs, rfl, -⟩ := hb word List.mem_cons_self
      cases hchars
  | cons word a ih =>
    intro b ha hb hjoined hchars
    cases b with
    | nil =>
      obtain ⟨c, cs, rfl, -⟩ := ha word List.mem_cons_self
      cases hchars
    | cons word' b =>
      obtain ⟨-, ha'⟩ := List.forall_mem_cons.mp ha
      obtain ⟨-, hb'⟩ := List.forall_mem_cons.mp hb
      rw [intercalate_cons, intercalate_cons] at hjoined
      rw [List.flatten_cons, List.flatten_cons] at hchars
      -- neither of the first words is a front of the other
      have hsame : word = word' := by
        rcases List.append_eq_append_iff.mp hjoined with ⟨gap, rfl, hafter⟩ | ⟨gap, rfl, hafter⟩
        · rw [List.append_assoc, List.append_cancel_left_eq] at hchars
          rw [nil_of_afterWord ha' hafter hchars, List.append_nil]
        · rw [List.append_assoc, List.append_cancel_left_eq] at hchars
          rw [nil_of_afterWord hb' hafter hchars.symm, List.append_nil]
      subst hsame
      rw [List.append_cancel_left_eq] at hjoined hchars
      have hrest : [' '].intercalate a = [' '].intercalate b := by
        cases a with
        | nil =>
          cases b with
          | nil => rfl
          | cons next b => cases hjoined
        | cons next a =>
          cases b with
          | nil => cases hjoined
          | cons next' b => exact (List.cons.inj hjoined).2
      rw [ih ha' hb' hrest hchars]

/-- Texts that are written are told by what they are joined to and by what they have. -/
theorem visible_unique {a b : List String}
    (hjoined : " ".intercalate (visible a) = " ".intercalate (visible b))
    (hchars : (visible a).flatMap String.toList = (visible b).flatMap String.toList) :
    visible a = visible b := by
  have hwords : ∀ texts, ∀ word ∈ (visible texts).map String.toList,
      ∃ c cs, word = c :: cs ∧ Text.isSpace c = false := by
    intro texts word hword
    obtain ⟨text, htext, rfl⟩ := List.mem_map.mp hword
    obtain ⟨hne, htrimmed⟩ := visible_trimmed text htext
    obtain ⟨c, cs, hcs⟩ := List.exists_cons_of_ne_nil (l := text.toList) (by simpa using hne)
    refine ⟨c, cs, hcs, ?_⟩
    have hleft := htrimmed.left
    by_contra hspace
    rw [hcs, List.dropWhile_cons_of_pos (by simpa using hspace)] at hleft
    have hlength := (cs.dropWhile_suffix Text.isSpace).length_le
    rw [hleft, List.length_cons] at hlength
    omega
  have hlists := congrArg String.toList hjoined
  rw [String.toList_intercalate, String.toList_intercalate] at hlists
  have hsame := words_unique (hwords a) (hwords b) hlists hchars
  exact List.map_injective_iff.mpr (fun s t => String.toList_inj.mp) hsame

/-- Texts that are put together have the characters that are written. -/
theorem flatMap_leaves_glue (f : Forest KeptTag String) :
    (glue f).leaves.flatMap String.toList = (visible f.leaves).flatMap String.toList := by
  have hjoin : ∀ (text : String) (g : Forest KeptTag String),
      (join text g).leaves.flatMap String.toList =
        text.toList ++ g.leaves.flatMap String.toList := by
    intro text g
    cases g with
    | nil => rfl
    | leaf next g =>
      rw [join, Forest.leaves, Forest.leaves, List.flatMap_cons, List.flatMap_cons,
        String.toList_append, List.append_assoc]
    | node k inner g => rfl
  induction f with
  | nil =>
    rw [glue]
    rfl
  | leaf text f ih =>
    have hsplit : visible (text :: f.leaves) = visible [text] ++ visible f.leaves :=
      visible_append [text] _
    rw [glue, Forest.leaves, hsplit, List.flatMap_append, visible_singleton]
    split
    · exact ih
    · rw [hjoin, ih, List.flatMap_singleton]
  | node k inner f _ ih =>
    rw [glue, Forest.leaves, Forest.leaves, ih]

/-- The text of each element is read as it was put together. -/
theorem flatMap_readings {texts : List String}
    (h : ∀ text ∈ texts, (visible (readings refs text)).flatMap String.toList = text.toList) :
    (visible (texts.flatMap (readings refs))).flatMap String.toList =
      texts.flatMap String.toList := by
  induction texts with
  | nil => rfl
  | cons text texts ih =>
    obtain ⟨htext, hrest⟩ := List.forall_mem_cons.mp h
    rw [List.flatMap_cons, visible_append, List.flatMap_append, htext, ih hrest,
      List.flatMap_cons]

theorem length_readMap (f : Forest KeptTag String) : ∀ n,
    (readMap (readForest lower refs n f)).length = f.size := by
  induction f with
  | nil =>
    intro n
    rfl
  | leaf text f ih =>
    intro n
    rw [readForest, (readMap_afterLeaves _ _).1]
    exact ih n
  | node k inner f ihInner ihRest =>
    intro n
    rw [readForest, readMap, List.length_cons, List.length_append, ihInner, ihRest, Forest.size]
    omega

theorem allNodes_of_glue {p : KeptTag → Forest KeptTag String → Prop}
    {f : Forest KeptTag String} :
    (glue f).AllNodes p → f.AllNodes fun k inner => p k (glue inner) := by
  have hjoin : ∀ (text : String) {g : Forest KeptTag String},
      (join text g).AllNodes p → g.AllNodes p := by
    intro text g hg
    cases g with
    | nil => trivial
    | leaf next g => exact hg
    | node k inner g => exact hg
  induction f with
  | nil => exact fun _ => trivial
  | leaf text f ih =>
    intro hnodes
    rcases glue_leaf text f with hglue | hglue
    · rw [hglue] at hnodes
      exact ih hnodes
    · rw [hglue] at hnodes
      exact ih (hjoin _ hnodes)
  | node k inner f ihInner ihRest =>
    intro hnodes
    rw [glue] at hnodes
    exact ⟨hnodes.1, ihInner hnodes.2.1, ihRest hnodes.2.2⟩

/-- Where the elements are read as the map has them, their texts are told apart. -/
theorem apart_of_readMap {f : Forest KeptTag String} : ∀ {n : Nat},
    (f.AllNodes fun _ inner => ∀ text ∈ (glue inner).leaves,
      (visible (readings refs text)).flatMap String.toList = text.toList) →
    readMap (readForest lower refs n (glue f)) = (f.nodes n).map (entry lower) →
      f.AllNodes fun _ inner =>
        visible ((glue inner).leaves.flatMap (readings refs)) = visible inner.leaves := by
  induction f with
  | nil => exact fun _ _ => trivial
  | leaf text f ih =>
    intro n htexts hmap
    rw [(readMap_glueLeaf n text f).1] at hmap
    exact ih htexts hmap
  | node k inner f ihInner ihRest =>
    rintro n ⟨htexts, hinner, hrest⟩ hmap
    rw [glue, readForest, readMap, Forest.nodes, List.map_cons, List.map_append, size_glue] at hmap
    obtain ⟨hnode, hbehind⟩ := List.cons.inj hmap
    have hlength : (readMap (readForest lower refs (n + 1) (glue inner))).length =
        ((inner.nodes (n + 1)).map (entry lower)).length := by
      have hnumbers := congrArg List.length (inner.nodes_numbers (n + 1))
      rw [List.length_map, List.length_range'] at hnumbers
      rw [length_readMap, size_glue, List.length_map, hnumbers]
    obtain ⟨hmapInner, hmapRest⟩ := List.append_inj hbehind hlength
    refine ⟨?_, ihInner hinner hmapInner, ihRest hrest hmapRest⟩
    -- the text of the entry, which is joined, and the characters, which were put together
    have htext := congrArg (fun e : String × ElementInfo => e.2.text) hnode
    dsimp only [entry] at htext
    rw [leaves_readForest] at htext
    refine visible_unique htext ?_
    rw [flatMap_readings htexts, flatMap_leaves_glue]

/-! ## The condition is exact -/

section

variable {f : Forest KeptTag String}

/-- Putting texts together leaves the elements. -/
theorem labels_glue (f : Forest KeptTag String) : ∀ n,
    ((glue f).nodes n).map Forest.Numbered.label = (f.nodes n).map Forest.Numbered.label := by
  have hjoin : ∀ (n : Nat) (text : String) (g : Forest KeptTag String),
      (join text g).nodes n = g.nodes n := by
    intro n text g
    cases g <;> rfl
  induction f with
  | nil =>
    intro n
    rw [glue]
  | leaf text f ih =>
    intro n
    rcases glue_leaf text f with hglue | hglue
    · rw [hglue]
      exact ih n
    · rw [hglue, hjoin]
      exact ih n
  | node k inner f ihInner ihRest =>
    intro n
    rw [glue, Forest.nodes, Forest.nodes, List.map_cons, List.map_cons, List.map_append,
      List.map_append, ihInner, size_glue, ihRest]

/-- The entries of a page that is read are those of the map. -/
theorem Rereads.kept (hkept : f.AllNodes (KeptNode lower))
    (h : Rereads lower refs markedSection f page) : ∀ e ∈ readMap page, KeptInfo lower e.2 := by
  intro e he
  rw [h.map] at he
  obtain ⟨node, hnode, rfl⟩ := List.mem_map.mp he
  exact keptInfo_entry hkept node hnode

/-- The tags that are read are as long as those that were written, so that the texts that
are told have all the room between them. -/
theorem Rereads.clean (hlower : Lowering lower) (hrefs : refs.Html5) (hshort : refs.Short)
    (hsection : SectionsEnd markedSection) (hkept : f.AllNodes (KeptNode lower))
    (h : Rereads lower refs markedSection f page) :
    Clean (spellPage lower f).1 (spellPage lower f).2 := by
  have hinfos := h.kept hkept
  have hspelled : (spellPage lower f).1 ++ spell (spellPage lower f).2 = _ := spell_spellPage f
  have htold : goahead lower refs markedSection ((writeForest lower 0 (glue f)).length + 1) none
      (writeForest lower 0 (glue f)) = tokens page := by
    have hreads := h.reads
    rw [Dom.parse, String.toList_ofList] at hreads
    exact hreads.symm
  have hfits := fitsWith hsection hshort ((writeForest lower 0 (glue f)).length + 1)
    (spellPage_written hlower hrefs hkept)
    (by
      rw [hspelled]
      exact Nat.lt_succ_self _)
    (by
      rw [hspelled, htold]
      exact noRaw_tokens hinfos)
  rw [hspelled, htold] at hfits
  refine hfits.2 ?_
  rw [hspelled]
  -- the page that is read has the numbers of the map, and so tags of the same length
  have hpids : (readMap page).map Prod.fst =
      (List.range' (0 + 1) (readMap page).length).map pid := by
    have hnumbers := f.nodes_numbers 0
    have hlength := congrArg List.length hnumbers
    rw [List.length_map, List.length_range'] at hlength
    rw [h.map, List.length_map, hlength, ← hnumbers, List.map_map, List.map_map]
    rfl
  have htags : forestWidth lower 0 (keptForest lower page) = tagWidth (spellPage lower f).2 := by
    rw [forestWidth_keptForest hlower hinfos hpids, h.map, List.map_map, spellPage,
      tagWidth_spellForest, forestWidth_glue, forestWidth_eq]
    rfl
  have hwritten : (writeAll (pieces lower 0 (keptForest lower page))).length = _ :=
    length_pieces _ 0
  rw [h.writes] at hwritten
  rw [textWidth_tokens hinfos]
  omega

/-- The names that are read are as long as those of the elements. -/
theorem Rereads.names (hlower : Lowering lower) (hrefs : refs.Html5)
    (hplain : KeepsPlain lower) (hkept : f.AllNodes (KeptNode lower))
    (h : Rereads lower refs markedSection f page)
    (hclean : Clean (spellPage lower f).1 (spellPage lower f).2) :
    f.AllNodes fun k _ => EndsName k.tag.toList := by
  obtain ⟨tokens', hreads, hwidth⟩ := reads_clean (spellPage_written hlower hrefs hkept) hclean
  have hspelled : (spellPage lower f).1 ++ spell (spellPage lower f).2 = _ := spell_spellPage f
  have htokens : tokens page = tokens' := by
    rw [h.reads]
    refine Reads.parse ?_
    rw [String.toList_ofList, ← hspelled]
    exact hreads
  -- each element has an end tag under its name, and there are no other names
  have hclosing := closingWidth_le h.proper (h.kept hkept)
  obtain ⟨-, hends⟩ := names_spellForest hlower hplain 0 ([], []) (kept_glue hkept)
  refine allNodes_of_glue (hends ?_)
  have hsum : ∀ g : Forest KeptTag String,
      ((g.nodes 0).map fun node => closingWidth (entry lower node).2) =
        ((g.nodes 0).map Forest.Numbered.label).map fun k =>
          if k.tag ∈ voidTags then 0 else k.tag.toList.length := by
    intro g
    rw [List.map_map]
    rfl
  have hmap : (readMap page).map (fun e => closingWidth e.2) =
      (f.nodes 0).map fun node => closingWidth (entry lower node).2 := by
    rw [h.map, List.map_map]
    rfl
  rw [hmap, hsum, htokens, hwidth] at hclosing
  rw [hsum, labels_glue]
  exact hclosing

/-- A page that reads back has only texts that do. -/
theorem Rereads.readable (hlower : Lowering lower) (hrefs : refs.Html5) (hshort : refs.Short)
    (hsection : SectionsEnd markedSection) (hplain : KeepsPlain lower)
    (hkept : f.AllNodes (KeptNode lower)) (h : Rereads lower refs markedSection f page) :
    Readable refs f := by
  have hglued := kept_glue hkept
  have hclean := h.clean hlower hrefs hshort hsection hkept
  obtain ⟨-, hcut, hending⟩ := clean_spellForest (leavesApart_glue f) hglued rfl hclean
  have hnames := h.names hlower hrefs hplain hkept hclean
  have hread : tokens (readForest lower refs 0 (glue f)) = parse lower refs markedSection _ :=
    tokens_readForest hlower hrefs hkept hcut hnames (hending rfl)
  -- the page that is read is the only one with these tokens
  obtain ⟨rfl, -⟩ : page = readForest lower refs 0 (glue f) ∧ _ := by
    have hsame : tokens page ++ [] = tokens (readForest lower refs 0 (glue f)) ++ [] := by
      rw [h.reads, hread]
    exact tokens_unique h.proper (proper_readForest hglued) (.inl rfl) (.inl rfl) hsame
  have hwrites : writeAll (pieces lower 0 (keptForest lower (readForest lower refs 0 (glue f)))) ++
      [] = writeForest lower 0 (glue f) ++ [] := by
    rw [h.writes]
  have htexts := (texts_of_writeAll hlower hshort hglued (Nat.le_refl _) hwrites).2
  refine ⟨?_, ?_, hnames, hending rfl⟩
  · exact hcut.and htexts
  · exact apart_of_readMap (allNodes_of_glue htexts.allNodes) h.map

end

end

/-- A text that arrives as references. -/
def escapedPage : Forest Markup String :=
  .node ⟨"p", [], some "p"⟩ (.leaf "<b>" .nil) .nil

end Plaidify.Dom
