import Plaidify.Dom.Consuming
import Plaidify.Dom.RoundTrip

/-!
# What a page is spelled with

The tags of what `simplify_html` writes, each with the token that it is read as and the
text behind it (`spellForest`), and how long they are. The element map tells that length:
whatever page has the entries of the map, its tags are as long as those that were written
(`forestWidth_keptForest`).
-/

namespace Plaidify.Dom

variable {lower : String → String} {refs : References}
  {markedSection : List Char → Option (List Char)}

/-! ## Tags that were written -/

/-- The name that is read in the end tag of an element. -/
def endName (tag : String) : String :=
  if (tag.toList.dropWhile inEndTag).all Text.isSpace then
    String.ofList (tag.toList.takeWhile inEndTag)
  else tag

/-- `str.lower` does not lengthen a name of the characters that an end tag may hold. -/
def KeepsPlain (lower : String → String) : Prop :=
  ∀ s : String, (∀ c ∈ s.toList, inEndTag c = true) →
    (lower s).toList.length ≤ s.toList.length

theorem endName_of_endsName {tag : String} (h : EndsName tag.toList) : endName tag = tag := by
  unfold endName
  rcases h with hnil | ⟨c, hc, hspace⟩
  · have hall : tag.toList.takeWhile inEndTag = tag.toList := by
      have hsplit := List.takeWhile_append_dropWhile (p := inEndTag) (l := tag.toList)
      rwa [hnil, List.append_nil] at hsplit
    rw [hall, String.ofList_toList, ite_self]
  · rw [if_neg]
    intro hall
    rw [List.all_eq_true] at hall
    rw [hall c hc] at hspace
    cases hspace

/-- A name that is not read as a whole ends in blanks that a tag may hold. -/
theorem all_isSpace {tag : String} (h : ¬ EndsName tag.toList) :
    (tag.toList.dropWhile inEndTag).all Text.isSpace = true := by
  rw [List.all_eq_true]
  intro c hc
  by_contra hspace
  exact h (.inr ⟨c, hc, by simpa using hspace⟩)

/-- A name that is not read as a whole loses what does not belong in an end tag. -/
theorem endName_shorter {tag : String} (h : ¬ EndsName tag.toList) :
    (∀ c ∈ (endName tag).toList, inEndTag c = true) ∧
      (endName tag).toList.length < tag.toList.length := by
  have hall : (tag.toList.dropWhile inEndTag).all Text.isSpace = true := all_isSpace h
  have hne : tag.toList.dropWhile inEndTag ≠ [] := fun hnil => h (.inl hnil)
  unfold endName
  rw [if_pos hall, String.toList_ofList]
  refine ⟨fun c hc => List.mem_takeWhile_imp hc, ?_⟩
  have hlength := congrArg List.length
    (List.takeWhile_append_dropWhile (p := inEndTag) (l := tag.toList))
  have hpos := List.length_pos_of_ne_nil hne
  rw [List.length_append] at hlength
  omega

theorem gt_not_mem_tag {name : List Char} (h : TagName name) : '>' ∉ name := by
  intro hmem
  exact absurd (h.inTag _ hmem) (by decide)

/-- The name that an end tag that was written is read with. -/
theorem parseEndtag_endName {tag : String} (htag : TagName tag.toList) (rest : List Char) :
    parseEndtag lower (tag.toList ++ '>' :: rest) =
      .more [.finish (lower (endName tag))] none rest := by
  by_cases hends : EndsName tag.toList
  · rw [endName_of_endsName hends]
    exact parseEndtag_write lower htag hends rest
  · have hall : (tag.toList.dropWhile inEndTag).all Text.isSpace = true := all_isSpace hends
    obtain ⟨c, cs, hname, hletter⟩ := htag.exists_cons
    have hgt : ∀ d ∈ tag.toList, decide (d ≠ '>') = true := by
      intro d hd
      rw [decide_eq_true_eq]
      rintro rfl
      exact gt_not_mem_tag htag hd
    have hafter : afterGt (tag.toList ++ '>' :: rest) = some rest := by
      rw [afterGt, (span_stop (c := '>') hgt (by decide) rest).2]
    have hnamed : (tag.toList ++ '>' :: rest).dropWhile Text.isSpace =
        tag.toList ++ '>' :: rest := by
      rw [hname, List.cons_append,
        List.dropWhile_cons_of_neg (by simp [not_isSpace_of_letter hletter])]
    have hhead : (tag.toList ++ '>' :: rest).head?.any isAsciiLetter = true := by
      rw [hname]
      exact hletter
    have hstop : ('>' :: rest).takeWhile inEndTag = [] := List.takeWhile_cons_of_neg (by decide)
    -- the blanks behind the plain characters are skipped in front of the `>`
    obtain ⟨htake, hdrop⟩ := span_append hstop tag.toList
    have hblank := (span_stop (c := '>') (List.all_eq_true.mp hall) (by decide) rest).2
    unfold parseEndtag
    rw [hafter]
    dsimp only
    rw [hnamed, hdrop, hblank, htake, if_pos ⟨hhead, rfl⟩, endName, if_pos hall]

/-- A value is written without a `>`. -/
theorem gt_not_mem_escapeAttr (value : List Char) : '>' ∉ escapeAttr value := by
  rw [escapeAttr_eq_flatMap, List.mem_flatMap]
  rintro ⟨c, -, hc⟩
  unfold escapedChar at hc
  split_ifs at hc with hamp hquot hlt hgt
  · exact absurd hc (by decide)
  · exact absurd hc (by decide)
  · exact absurd hc (by decide)
  · exact absurd hc (by decide)
  · exact hgt (List.mem_singleton.mp hc).symm

theorem gt_not_mem_attrStr {attrs : List (String × String)}
    (hnames : ∀ attr ∈ attrs, AttrName attr.1.toList) : '>' ∉ attrStr attrs := by
  have hattr : ∀ attr ∈ attrs, '>' ∉ writeAttr attr := by
    intro attr hattr
    have hname : '>' ∉ attr.1.toList := fun hmem =>
      absurd ((hnames attr hattr).2 _ hmem) (by decide)
    have hvalue := gt_not_mem_escapeAttr attr.2.toList
    unfold writeAttr
    simp [hname, hvalue]
  cases attrs with
  | nil => simp [attrStr]
  | cons attr attrs =>
    have hspaced : '>' ∉ spaced (attr :: attrs) := by
      unfold spaced
      rw [List.mem_flatMap]
      rintro ⟨attr', hmem, hgt⟩
      rcases List.mem_cons.mp hgt with hblank | hgt
      · exact absurd hblank (by decide)
      · exact hattr attr' hmem hgt
    rw [spaced_eq] at hspaced
    exact fun hmem => hspaced (List.mem_cons_of_mem _ hmem)

/-- The opening tag of an element, with the text behind it. -/
def openingChunk (lower : String → String) (n : Nat) (k : KeptTag) (text : List Char) : Chunk where
  tag := '<' :: (k.tag.toList ++ ' ' :: (attrStr (writtenAttrs lower n k) ++ ['>']))
  token := .start k.tag (readAttrs (writtenAttrs lower n k))
  text := text

/-- The closing tag of an element, with the text behind it. -/
def closingChunk (lower : String → String) (k : KeptTag) (text : List Char) : Chunk where
  tag := '<' :: '/' :: (k.tag.toList ++ ['>'])
  token := .finish (lower (endName k.tag))
  text := text

/-- An opening tag is read by itself. -/
theorem openingChunk_written (hlower : Lowering lower) (hrefs : refs.Html5) {k : KeptTag}
    {inner : Forest KeptTag String} (hk : KeptNode lower k inner) (n : Nat) (text : List Char) :
    (openingChunk lower n k text).Written lower refs markedSection where
  starts := by
    obtain ⟨c, cs, hname, hletter⟩ := hk.tagName.exists_cons
    refine ⟨c, cs ++ ' ' :: (attrStr (writtenAttrs lower n k) ++ ['>']), ?_, .inl hletter⟩
    rw [openingChunk, hname, List.cons_append]
  ends := by
    refine ⟨'<' :: (k.tag.toList ++ ' ' :: attrStr (writtenAttrs lower n k)), ?_, ?_⟩
    · simp [openingChunk]
    · have hname := gt_not_mem_tag hk.tagName
      have hattrs := gt_not_mem_attrStr (attrName_writtenAttrs lower n k)
      simp [hname, hattrs]
  stops := by
    have hin : ∀ c ∈ '<' :: k.tag.toList, inTag c = true := by
      intro c hc
      rcases List.mem_cons.mp hc with rfl | hc
      · decide
      · exact hk.tagName.inTag c hc
    have hdrop := (span_stop (c := ' ') hin (by decide)
      (attrStr (writtenAttrs lower n k) ++ ['>'])).2
    rw [List.cons_append] at hdrop
    rw [openingChunk, hdrop]
    simp
  noText := rfl
  reads rest := markup_writtenAttrs hlower hrefs hk n rest

/-- A closing tag is read by itself, under whatever name. -/
theorem closingChunk_written {k : KeptTag} {inner : Forest KeptTag String}
    (hk : KeptNode lower k inner) (text : List Char) :
    (closingChunk lower k text).Written lower refs markedSection where
  starts := ⟨'/', k.tag.toList ++ ['>'], rfl, .inr rfl⟩
  ends := by
    have hname := gt_not_mem_tag hk.tagName
    refine ⟨'<' :: '/' :: k.tag.toList, rfl, ?_⟩
    simp [hname]
  stops := by
    have hdrop : ('<' :: '/' :: (k.tag.toList ++ ['>'])).dropWhile inTag =
        '/' :: (k.tag.toList ++ ['>']) := by
      rw [List.dropWhile_cons_of_pos (by decide), List.dropWhile_cons_of_neg (by decide)]
    rw [closingChunk, hdrop]
    simp
  noText := rfl
  reads rest := by
    have hparse : parseEndtag lower (k.tag.toList ++ '>' :: rest) = _ :=
      parseEndtag_endName hk.tagName rest
    show markup lower refs markedSection ('/' :: (k.tag.toList ++ ['>'] ++ rest)) = _
    rw [List.append_assoc, List.singleton_append, markup, if_neg (by decide), if_pos rfl]
    exact hparse

/-! ## The tags of a forest -/

/-- A text, and tags with the texts behind them. -/
abbrev Spelled := List Char × List Chunk

/-- The closing tag of an element, in front of what was spelled. -/
def spellClosing (lower : String → String) (k : KeptTag) (after : Spelled) : Spelled :=
  if k.tag ∈ voidTags then after else ([], closingChunk lower k after.1 :: after.2)

variable (lower) in
/-- The texts and tags of a forest, in front of what was spelled. -/
def spellForest : Nat → Forest KeptTag String → Spelled → Spelled
  | _, .nil, after => after
  | n, .leaf text rest, after =>
      (text.toList ++ (spellForest n rest after).1, (spellForest n rest after).2)
  | n, .node k inner rest, after =>
      let behind := spellForest (n + 1) inner
        (spellClosing lower k (spellForest (n + 1 + inner.size) rest after))
      ([], openingChunk lower n k behind.1 :: behind.2)

/-- What a forest is spelled with is what is written of it. -/
theorem spell_spellForest (f : Forest KeptTag String) : ∀ (n : Nat) (after : Spelled),
    (spellForest lower n f after).1 ++ spell (spellForest lower n f after).2 =
      writeForest lower n f ++ (after.1 ++ spell after.2) := by
  induction f with
  | nil =>
    intro n after
    rfl
  | leaf text f ih =>
    intro n after
    rw [spellForest, writeForest, List.append_assoc, List.append_assoc, ih]
  | node k inner f ihInner ihRest =>
    intro n after
    have hclosing : (spellClosing lower k (spellForest lower (n + 1 + inner.size) f after)).1 ++
        spell (spellClosing lower k (spellForest lower (n + 1 + inner.size) f after)).2 =
          writeClosing k ++ (writeForest lower (n + 1 + inner.size) f ++
            (after.1 ++ spell after.2)) := by
      rw [← ihRest]
      unfold spellClosing writeClosing
      split
      · rfl
      · rw [List.nil_append, spell_cons]
        rfl
    rw [spellForest, writeForest]
    dsimp only
    rw [List.nil_append, spell_cons, openingChunk, ihInner, hclosing]
    simp only [List.cons_append, List.append_assoc, List.nil_append]

/-- All its tags are read by themselves. -/
theorem spellForest_written (hlower : Lowering lower) (hrefs : refs.Html5)
    {f : Forest KeptTag String} : ∀ (n : Nat) {after : Spelled}, f.AllNodes (KeptNode lower) →
      (∀ chunk ∈ after.2, chunk.Written lower refs markedSection) →
        ∀ chunk ∈ (spellForest lower n f after).2, chunk.Written lower refs markedSection := by
  induction f with
  | nil => exact fun _ _ _ hafter => hafter
  | leaf text f ih => exact ih
  | node k inner f ihInner ihRest =>
    rintro n after ⟨hk, hinner, hrest⟩ hafter
    have hbehind := ihRest (n + 1 + inner.size) hrest hafter
    refine List.forall_mem_cons.mpr ⟨openingChunk_written hlower hrefs hk n _, ?_⟩
    refine ihInner _ hinner ?_
    unfold spellClosing
    split
    · exact hbehind
    · exact List.forall_mem_cons.mpr ⟨closingChunk_written hk _, hbehind⟩

variable (lower) in
/-- The texts and tags of a whole page, where its texts are put together. -/
def spellPage (f : Forest KeptTag String) : Spelled :=
  spellForest lower 0 (glue f) ([], [])

/-- The page is spelled as it is written. -/
theorem spell_spellPage (f : Forest KeptTag String) :
    (spellPage lower f).1 ++ spell (spellPage lower f).2 = writeForest lower 0 (glue f) := by
  unfold spellPage
  rw [spell_spellForest]
  exact List.append_nil _

theorem spellPage_written (hlower : Lowering lower) (hrefs : refs.Html5)
    {f : Forest KeptTag String} (hkept : f.AllNodes (KeptNode lower)) :
    ∀ chunk ∈ (spellPage lower f).2, chunk.Written lower refs markedSection :=
  spellForest_written hlower hrefs 0 (kept_glue hkept)
    fun _ hchunk => absurd hchunk List.not_mem_nil

/-! ## How much is written -/

/-- The length of the tags of a node. -/
def nodeWidth (lower : String → String) (n : Nat) (k : KeptTag) : Nat :=
  (Piece.opening k.tag (writtenAttrs lower n k)).write.length + (writeClosing k).length

variable (lower) in
/-- The length of all tags of a forest. -/
def forestWidth : Nat → Forest KeptTag String → Nat
  | _, .nil => 0
  | n, .leaf _ rest => forestWidth n rest
  | n, .node k inner rest =>
      nodeWidth lower n k + forestWidth (n + 1) inner + forestWidth (n + 1 + inner.size) rest

/-- The tags that a forest is spelled with have its length. -/
theorem tagWidth_spellForest (f : Forest KeptTag String) : ∀ (n : Nat) (after : Spelled),
    tagWidth (spellForest lower n f after).2 = forestWidth lower n f + tagWidth after.2 := by
  induction f with
  | nil =>
    intro n after
    rw [spellForest, forestWidth, Nat.zero_add]
  | leaf text f ih =>
    intro n after
    exact ih n after
  | node k inner f ihInner ihRest =>
    intro n after
    have hclosing : tagWidth (spellClosing lower k
        (spellForest lower (n + 1 + inner.size) f after)).2 = (writeClosing k).length +
          (forestWidth lower (n + 1 + inner.size) f + tagWidth after.2) := by
      rw [← ihRest]
      unfold spellClosing writeClosing
      split
      · rw [List.length_nil, Nat.zero_add]
      · rw [tagWidth_cons]
        rfl
    rw [spellForest, forestWidth, nodeWidth, write_opening]
    dsimp only
    rw [tagWidth_cons, openingChunk, ihInner, hclosing]
    dsimp only
    omega

theorem forestWidth_glue (f : Forest KeptTag String) : ∀ n,
    forestWidth lower n (glue f) = forestWidth lower n f := by
  have hjoin : ∀ (n : Nat) (text : String) (g : Forest KeptTag String),
      forestWidth lower n (join text g) = forestWidth lower n g := by
    intro n text g
    cases g <;> rfl
  induction f with
  | nil =>
    intro n
    rfl
  | leaf text f ih =>
    intro n
    rcases glue_leaf text f with hglue | hglue
    · rw [hglue]
      exact ih n
    · rw [hglue, hjoin]
      exact ih n
  | node k inner f ihInner ihRest =>
    intro n
    rw [glue, forestWidth, forestWidth, size_glue, ihInner, ihRest]

/-- The length of what is written of all texts. -/
def leavesWidth : Forest KeptTag String → Nat
  | .nil => 0
  | .leaf text rest => (collapseWhitespace text).toList.length + leavesWidth rest
  | .node _ inner rest => leavesWidth inner + leavesWidth rest

/-- What is written are tags and texts. -/
theorem length_pieces (f : Forest KeptTag String) : ∀ n,
    (writeAll (pieces lower n f)).length = forestWidth lower n f + leavesWidth f := by
  induction f with
  | nil =>
    intro n
    rfl
  | leaf text f ih =>
    intro n
    have hrest := ih n
    rw [pieces, forestWidth, leavesWidth, written]
    unfold writeAll at hrest ⊢
    rw [List.flatMap_append, List.length_append, hrest]
    split
    · next hempty =>
      rw [hempty]
      simp
    · rw [List.flatMap_singleton, Piece.write]
      omega
  | node k inner f ihInner ihRest =>
    intro n
    have hinner := ihInner (n + 1)
    have hrest := ihRest (n + 1 + inner.size)
    rw [pieces, forestWidth, leavesWidth, nodeWidth]
    unfold writeAll at hinner hrest ⊢
    unfold writtenAttrs
    rw [List.flatMap_cons, List.flatMap_append, List.flatMap_append, flatMap_closing]
    simp only [List.length_append]
    omega

/-! ## What the element map tells about the tags -/

/-- A value that is set is there once, with the others. -/
theorem perm_setAttr {key value : String} {d : List (String × String)}
    (hd : (d.map Prod.fst).Nodup) : (setAttr key value d).Perm
      ((key, value) :: (setAttr key value d).filter fun attr => attr.1 ≠ key) := by
  induction d with
  | nil => simp [setAttr]
  | cons attr d ih =>
    obtain ⟨name, v⟩ := attr
    obtain ⟨hnew, hrest⟩ := List.nodup_cons.mp hd
    rw [setAttr]
    by_cases hname : name = key
    · have hkept : d.filter (fun attr => attr.1 ≠ key) = d := by
        rw [List.filter_eq_self]
        intro attr hattr
        rw [decide_eq_true_eq]
        intro heq
        refine hnew ?_
        dsimp only
        rw [hname, ← heq]
        exact List.mem_map_of_mem hattr
      rw [if_pos hname, List.filter_cons_of_neg (by simp), hkept]
    · rw [if_neg hname, List.filter_cons_of_pos (by simpa using hname)]
      exact ((ih hrest).cons _).trans (List.Perm.swap _ _ _)

/-- The length of the tags of an element, as far as its entry tells them. -/
def infoWidth (info : ElementInfo) : Nat :=
  info.tag.toList.length + (spaced (("data-pid", info.pid) :: info.attrs)).length + 2 +
    (writeClosing ⟨info.tag, []⟩).length

/-- The order of the attributes does not matter for the length of a tag. -/
theorem nodeWidth_eq (n : Nat) (k : KeptTag) (info : ElementInfo) (htag : info.tag = k.tag)
    (hpid : info.pid = pid (n + 1)) (hattrs : info.attrs = lastValues (keptGiven lower k.attrs)) :
    nodeWidth lower n k = infoWidth info := by
  have hperm : (writtenAttrs lower n k).Perm (("data-pid", info.pid) :: info.attrs) := by
    rw [hpid, hattrs, ← filter_attrDict lower (pid (n + 1)) k.attrs]
    exact perm_setAttr (keptNames_attrDict lower k.attrs).nodup
  have hspaced : (spaced (writtenAttrs lower n k)).length =
      (spaced (("data-pid", info.pid) :: info.attrs)).length :=
    (hperm.flatMap_right _).length_eq
  obtain ⟨attr, attrs, hne⟩ := List.exists_cons_of_ne_nil (writtenAttrs_ne_nil lower n k)
  have hblank : (spaced (writtenAttrs lower n k)).length =
      (attrStr (writtenAttrs lower n k)).length + 1 := by
    rw [hne, spaced_eq, List.length_cons]
  have hclosing : writeClosing ⟨info.tag, []⟩ = writeClosing k := by
    unfold writeClosing
    rw [htag]
  unfold nodeWidth infoWidth
  rw [write_opening, hclosing, htag]
  simp only [List.length_cons, List.length_append, List.length_nil]
  omega

/-- The element map of a forest tells the length of its tags. -/
theorem forestWidth_eq (f : Forest KeptTag String) : ∀ n,
    forestWidth lower n f = ((f.nodes n).map fun node => infoWidth (entry lower node).2).sum := by
  induction f with
  | nil =>
    intro n
    rfl
  | leaf text f ih =>
    intro n
    exact ih n
  | node k inner f ihInner ihRest =>
    intro n
    have hnode : nodeWidth lower n k =
        infoWidth (entry lower ⟨n + 1, k, inner.leaves, inner.tops (n + 1)⟩).2 :=
      nodeWidth_eq n k _ rfl rfl rfl
    rw [forestWidth, Forest.nodes, List.map_cons, List.sum_cons, List.map_append, List.sum_append,
      ihInner, ihRest, hnode]
    omega

variable (lower) in
/-- The entry of an element that is left. -/
structure KeptInfo (info : ElementInfo) : Prop where
  lowered : lower info.tag = info.tag
  noStrip : info.tag ∉ stripTags
  noSkip : info.tag ∉ skipTags
  attrs : KeptNames info.attrs
  noPid : "data-pid" ∉ info.attrs.map Prod.fst

/-- The entries of the element map are such entries. -/
theorem keptInfo_entry {f : Forest KeptTag String} : ∀ {n : Nat},
    f.AllNodes (KeptNode lower) → ∀ node ∈ f.nodes n, KeptInfo lower (entry lower node).2 := by
  induction f with
  | nil => exact fun _ node hnode => absurd hnode List.not_mem_nil
  | leaf text f ih => exact fun hnodes => ih hnodes
  | node k inner f ihInner ihRest =>
    rintro n ⟨hk, hinner, hrest⟩ node hnode
    rw [Forest.nodes] at hnode
    rcases List.mem_cons.mp hnode with rfl | hnode
    · have hattrs := filter_attrDict lower (pid (n + 1)) k.attrs
      have hwritten := keptNames_writtenAttrs lower n k
      have hsub : (lastValues (keptGiven lower k.attrs)).Sublist (writtenAttrs lower n k) := by
        rw [← hattrs]
        exact List.filter_sublist
      refine ⟨hk.lowered, hk.noStrip, hk.noSkip, ⟨?_, ?_⟩, ?_⟩
      · exact hwritten.nodup.sublist (hsub.map _)
      · exact fun name hname => hwritten.kept name ((hsub.map _).subset hname)
      · show "data-pid" ∉ (lastValues (keptGiven lower k.attrs)).map Prod.fst
        rw [← hattrs, List.mem_map]
        rintro ⟨attr, hattr, hpid⟩
        have hother := (List.mem_filter.mp hattr).2
        simp [hpid] at hother
    · rcases List.mem_append.mp hnode with hnode | hnode
      · exact ihInner hinner node hnode
      · exact ihRest hrest node hnode

/-- Attributes that are read as those of an entry are kept as they are. -/
theorem lastValues_of_read (hlower : Lowering lower) {attrs : List (String × Option String)}
    {d : List (String × String)} (hd : KeptNames d) (hpid : "data-pid" ∉ d.map Prod.fst)
    (hread : (attrs.filterMap fun attr =>
      if attr.1 ≠ "data-pid" then attr.2.map fun value => (attr.1, value) else none) = d) :
    lastValues (keptGiven lower attrs) = d := by
  have hlowerPid : lower "data-pid" = "data-pid" := hlower.kept _ (by decide)
  have hgiven : ∀ attrs' : List (String × Option String), (attrs'.filterMap fun attr =>
      if attr.1 ≠ "data-pid" then attr.2.map fun value => (attr.1, value) else none) = d →
        keptGiven lower attrs' = d := by
    intro attrs' hread'
    rw [← hread']
    unfold keptGiven
    apply List.filterMap_congr
    rintro ⟨name, value⟩ hattr
    cases value with
    | none => simp
    | some value =>
      -- besides the number, all that has a value is among the attributes of the entry
      by_cases hname : name = "data-pid"
      · simp [hname, hlowerPid]
      · have hmem : (name, value) ∈ d := by
          rw [← hread', List.mem_filterMap]
          exact ⟨(name, some value), hattr, by simp [hname]⟩
        have hkeep : name ∈ keepAttrs := hd.kept name (List.mem_map_of_mem hmem)
        simp [hlower.kept name hkeep, hkeep, hname]
  have hkept : d.filter (fun attr => attr.1 ≠ "data-pid") = d := by
    rw [List.filter_eq_self]
    intro attr hattr
    rw [decide_eq_true_eq]
    intro heq
    exact hpid (heq ▸ List.mem_map_of_mem hattr)
  have hagain : keptGiven lower (readAttrs d) = d := by
    apply hgiven
    unfold readAttrs
    rw [List.filterMap_map]
    conv_rhs => rw [← hkept, ← List.filterMap_eq_filter]
    apply List.filterMap_congr
    intro attr _
    by_cases hname : attr.1 = "data-pid"
    · simp [Option.guard, hname]
    · simp [Option.guard, hname]
  have hdict := filter_attrDict lower "" (readAttrs d)
  rw [attrDict_readAttrs hlower hd, filter_setAttr, if_pos rfl, hkept, hagain] at hdict
  rw [hgiven attrs hread, ← hdict]

/-! ## A page with the entries of a map -/

variable {page : Forest Markup String}

/-- A page with such entries is left as it is. -/
theorem keptForest_node {m : Markup} {inner rest : Forest Markup String}
    (hkept : ∀ e ∈ readMap (.node m inner rest), KeptInfo lower e.2) :
    keptForest lower (.node m inner rest) =
        .node ⟨m.tag, m.attrs⟩ (keptForest lower inner) (keptForest lower rest) ∧
      (∀ e ∈ readMap inner, KeptInfo lower e.2) ∧ (∀ e ∈ readMap rest, KeptInfo lower e.2) := by
  rw [readMap] at hkept
  obtain ⟨hnode, hbehind⟩ := List.forall_mem_cons.mp hkept
  obtain ⟨hlowered, hstrip, hskip, -, -⟩ := hnode
  dsimp only at hlowered hstrip hskip
  refine ⟨?_, List.forall_mem_append.mp hbehind⟩
  rw [keptForest, hlowered, if_neg hstrip, if_neg hskip]

theorem size_keptForest : (∀ e ∈ readMap page, KeptInfo lower e.2) →
    (keptForest lower page).size = (readMap page).length := by
  induction page with
  | nil => exact fun _ => rfl
  | leaf text page ih => exact fun hkept => ih hkept
  | node m inner page ihInner ihRest =>
    intro hkept
    obtain ⟨hnode, hinner, hrest⟩ := keptForest_node hkept
    rw [hnode, Forest.size, readMap, List.length_cons, List.length_append, ihInner hinner,
      ihRest hrest]
    omega

/-- What its texts tell is what is written of them. -/
theorem textWidth_tokens : (∀ e ∈ readMap page, KeptInfo lower e.2) →
    textWidth (tokens page) = leavesWidth (keptForest lower page) := by
  induction page with
  | nil => exact fun _ => rfl
  | leaf text page ih =>
    intro hkept
    have hrest : textWidth (tokens page) = leavesWidth (keptForest lower page) := ih hkept
    rw [tokens, keptForest, leavesWidth, ← hrest]
    rfl
  | node m inner page ihInner ihRest =>
    intro hkept
    obtain ⟨hnode, hinner, hrest⟩ := keptForest_node hkept
    have hclosing : textWidth (m.closing.toList.map Token.finish) = 0 := by
      cases m.closing <;> rfl
    have hstart : textWidth [.start m.tag m.attrs] = 0 := rfl
    rw [hnode, leavesWidth, tokens, ← List.singleton_append, textWidth_append, textWidth_append,
      textWidth_append, hstart, hclosing, ihInner hinner, ihRest hrest]
    omega

/-- The tags of a page whose elements are those of a map are as long as the map tells. -/
theorem forestWidth_keptForest (hlower : Lowering lower) : ∀ {n : Nat},
    (∀ e ∈ readMap page, KeptInfo lower e.2) →
      (readMap page).map Prod.fst = (List.range' (n + 1) (readMap page).length).map pid →
        forestWidth lower n (keptForest lower page) =
          ((readMap page).map fun e => infoWidth e.2).sum := by
  induction page with
  | nil => exact fun _ _ => rfl
  | leaf text page ih => exact fun hkept hpids => ih hkept hpids
  | node m inner page ihInner ihRest =>
    intro n hkept hpids
    obtain ⟨hnode, hinner, hrest⟩ := keptForest_node hkept
    have hinfo := hkept _ List.mem_cons_self
    rw [readMap, List.map_cons, List.map_append, List.length_cons, List.length_append,
      List.range'_succ, List.map_cons, ← List.range'_append_1, List.map_append] at hpids
    obtain ⟨hpid, hbehind⟩ := List.cons.inj hpids
    -- the elements in the node have the numbers behind its own, and those behind it the rest
    obtain ⟨hpids', hpids''⟩ := List.append_inj hbehind (by simp)
    have hattrs := (lastValues_of_read hlower hinfo.attrs hinfo.noPid rfl).symm
    have hwidth := nodeWidth_eq n ⟨m.tag, m.attrs⟩ _ rfl hpid hattrs
    rw [Nat.add_right_comm] at hpids''
    rw [hnode, forestWidth, size_keptForest hinner, hwidth, ihInner hinner hpids',
      ihRest hrest hpids'', readMap, List.map_cons, List.sum_cons, List.map_append,
      List.sum_append]
    dsimp only
    omega

/-- None of its elements has raw content. -/
theorem noRaw_tokens (hkept : ∀ e ∈ readMap page, KeptInfo lower e.2) : NoRaw (tokens page) := by
  have hstrip : ∀ tag ∈ cdataContentElements, tag ∈ stripTags := by decide
  intro tag attrs hstart
  suffices h : ∃ e ∈ readMap page, e.2.tag = tag by
    obtain ⟨e, he, rfl⟩ := h
    exact fun hmem => (hkept e he).noStrip (hstrip _ hmem)
  clear hkept
  induction page with
  | nil => exact absurd hstart List.not_mem_nil
  | leaf text page ih =>
    rcases List.mem_cons.mp hstart with heq | hstart
    · cases heq
    · exact ih hstart
  | node m inner page ihInner ihRest =>
    rw [readMap]
    rcases List.mem_cons.mp hstart with heq | hstart
    · obtain ⟨rfl, -⟩ := Token.start.inj heq
      exact ⟨_, List.mem_cons_self, rfl⟩
    · rcases List.mem_append.mp hstart with hstart | hstart
      · obtain ⟨e, he, htag⟩ := ihInner hstart
        exact ⟨e, List.mem_cons_of_mem _ (List.mem_append_left _ he), htag⟩
      · rcases List.mem_append.mp hstart with hstart | hstart
        · obtain ⟨name, -, heq⟩ := List.mem_map.mp hstart
          cases heq
        · obtain ⟨e, he, htag⟩ := ihRest hstart
          exact ⟨e, List.mem_cons_of_mem _ (List.mem_append_right _ he), htag⟩

end Plaidify.Dom
