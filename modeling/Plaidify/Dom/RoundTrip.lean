import Plaidify.Dom.ElementMap
import Plaidify.Dom.Reading

/-!
# Reading simplified pages

`simplify_html` writes texts as they are, without a reference for `<` or `&`, and one
text after another without a blank. As long as the texts that come to stand next to each
other read back as what they are, the page that was written reads back as the element
map says, and is written again as it is.
-/

namespace Plaidify.Dom

section

variable (lower : String → String) (refs : References)
  (markedSection : List Char → Option (List Char))

/-- The characters of the pieces. -/
def writeAll (pieces : List Piece) : List Char :=
  pieces.flatMap Piece.write

/-- `simplify_html`, without the figures. -/
def simplifyHtml (rawHtml : String) : String × List (String × ElementInfo) :=
  let cleaner := feed lower (parse lower refs markedSection rawHtml)
  (String.ofList (writeAll cleaner.output), cleaner.elementMap)

/-! ## What a page says -/

/-- The number that a tag carries. -/
def Markup.dataPid (m : Markup) : String :=
  (((m.attrs.lookup "data-pid").getD none).getD "")

/-- The numbers of the elements at the top. -/
def topPids : Forest Markup String → List String
  | .nil => []
  | .leaf _ rest => topPids rest
  | .node m _ rest => m.dataPid :: topPids rest

/-- The elements of a page in document order, each with its number, its other attributes,
the texts directly in it and the numbers of its children. -/
def readMap : Forest Markup String → List (String × ElementInfo)
  | .nil => []
  | .leaf _ rest => readMap rest
  | .node m inner rest =>
      (m.dataPid,
        { tag := m.tag
          pid := m.dataPid
          text := " ".intercalate (visible inner.leaves)
          attrs := m.attrs.filterMap fun attr =>
            if attr.1 ≠ "data-pid" then attr.2.map fun value => (attr.1, value) else none
          childrenPids := topPids inner }) :: (readMap inner ++ readMap rest)

/-- What was written reads back as a page that says what the element map says, and is
simplified to itself. -/
def RoundTrips (rawHtml : String) : Prop :=
  let simplified := simplifyHtml lower refs markedSection rawHtml
  (∃ page, Proper lower page ∧ tokens page = parse lower refs markedSection simplified.1 ∧
      readMap page = simplified.2) ∧
    (simplifyHtml lower refs markedSection simplified.1).1 = simplified.1

end

/-! ## Texts that are put together -/

/-- A text in front of a forest, put together with the text that is there. -/
def join (text : String) : Forest KeptTag String → Forest KeptTag String
  | .leaf next rest => .leaf (text ++ next) rest
  | f => .leaf text f

/-- The texts as they are written: collapsed, and put together with what follows. -/
def glue : Forest KeptTag String → Forest KeptTag String
  | .nil => .nil
  | .leaf text rest =>
      if collapseWhitespace text = "" then glue rest else join (collapseWhitespace text) (glue rest)
  | .node k inner rest => .node k (glue inner) (glue rest)

/-- The pieces that a text is cut into, in front of a tag. -/
def cut (text : String) : Option (List (List Char)) :=
  cutText text.toList.length text.toList

/-- The texts that a text is read back as. -/
def readings (refs : References) (text : String) : List String :=
  ((cut text).getD []).map (readPiece refs)

/-- What is left of a page has only texts that are read back as what they are. -/
structure Readable (refs : References) (f : Forest KeptTag String) : Prop where
  /-- No text is taken for markup, and what is read of it is written as it was. -/
  texts : (glue f).AllLeaves fun text =>
    (cut text).isSome = true ∧ (visible (readings refs text)).flatMap String.toList = text.toList
  /-- The texts of an element are the ones that are read in it. -/
  apart : f.AllNodes fun _ inner =>
    visible ((glue inner).leaves.flatMap (readings refs)) = visible inner.leaves
  /-- Every name is read as a whole in an end tag. -/
  names : f.AllNodes fun k _ => EndsName k.tag.toList
  /-- The text at the end of the page does not wait for more text. -/
  ending : ∀ text ∈ (glue f).lastLeaf, ∀ pieces ∈ cut text, Told pieces

/-! ## Writing a forest -/

variable (lower : String → String)

/-- The attributes of the opening tag with the number after `n`. -/
def writtenAttrs (n : Nat) (k : KeptTag) : List (String × String) :=
  setAttr "data-pid" (pid (n + 1)) (attrDict lower k.attrs)

/-- The end of an element, where `n` is written. -/
def writeClosing (k : KeptTag) : List Char :=
  if k.tag ∈ voidTags then [] else '<' :: '/' :: (k.tag.toList ++ ['>'])

/-- A forest whose texts are as they are written. -/
def writeForest : Nat → Forest KeptTag String → List Char
  | _, .nil => []
  | n, .leaf text rest => text.toList ++ writeForest n rest
  | n, .node k inner rest =>
      '<' :: (k.tag.toList ++ ' ' :: (attrStr (writtenAttrs lower n k) ++ '>' ::
        (writeForest (n + 1) inner ++ (writeClosing k ++ writeForest (n + 1 + inner.size) rest))))

/-- Joining texts leaves the elements. -/
theorem size_join (text : String) (f : Forest KeptTag String) : (join text f).size = f.size := by
  cases f <;> rfl

/-- So does glueing them all. -/
theorem size_glue (f : Forest KeptTag String) : (glue f).size = f.size := by
  induction f with
  | nil => rfl
  | leaf text rest ih =>
    rw [glue]
    split
    · exact ih
    · rw [size_join]
      exact ih
  | node k inner rest ihInner ihRest => rw [glue, Forest.size, Forest.size, ihInner, ihRest]

/-- A text that is joined is written in front. -/
theorem writeForest_join (n : Nat) (text : String) (f : Forest KeptTag String) :
    writeForest lower n (join text f) = text.toList ++ writeForest lower n f := by
  cases f with
  | nil => rfl
  | leaf next rest => rw [join, writeForest, writeForest, String.toList_append, List.append_assoc]
  | node k inner rest => rfl

theorem setAttr_ne_nil (key value : String) (d : List (String × String)) :
    setAttr key value d ≠ [] := by
  cases d with
  | nil => exact List.cons_ne_nil _ _
  | cons attr d =>
    rw [setAttr]
    split <;> exact List.cons_ne_nil _ _

/-- Attributes are written, if there are any. -/
theorem attrStr_ne_nil {attrs : List (String × String)} (hne : attrs ≠ []) :
    attrStr attrs ≠ [] := by
  obtain ⟨attr, attrs, rfl⟩ := List.exists_cons_of_ne_nil hne
  intro hempty
  have hspaced := congrArg List.length (spaced_eq attr attrs)
  rw [hempty] at hspaced
  simp [spaced, writeAttr] at hspaced

/-- There is one at least, for the number of the element. -/
theorem writtenAttrs_ne_nil (n : Nat) (k : KeptTag) : writtenAttrs lower n k ≠ [] :=
  setAttr_ne_nil _ _ _

/-- How a start tag is written. -/
theorem write_opening (n : Nat) (k : KeptTag) :
    (Piece.opening k.tag (writtenAttrs lower n k)).write =
      '<' :: (k.tag.toList ++ ' ' :: (attrStr (writtenAttrs lower n k) ++ ['>'])) := by
  rw [Piece.write, if_pos (attrStr_ne_nil (writtenAttrs_ne_nil lower n k))]

/-- How an end tag is written, if the element has one. -/
theorem flatMap_closing (k : KeptTag) :
    (if k.tag ∈ voidTags then [] else [Piece.closing k.tag]).flatMap Piece.write =
      writeClosing k := by
  unfold writeClosing
  split
  · rfl
  · rw [List.flatMap_singleton, Piece.write]

/-- What is written for a forest are its texts put together. -/
theorem writeAll_pieces (f : Forest KeptTag String) : ∀ n,
    writeAll (pieces lower n f) = writeForest lower n (glue f) := by
  induction f with
  | nil =>
    intro n
    rfl
  | leaf text rest ih =>
    intro n
    have hrest : writeAll (pieces lower n rest) = writeForest lower n (glue rest) := ih n
    unfold writeAll at hrest ⊢
    rw [pieces, glue, written]
    split
    · rw [List.nil_append, hrest]
    · rw [List.singleton_append, List.flatMap_cons, Piece.write, writeForest_join, hrest]
  | node k inner rest ihInner ihRest =>
    intro n
    have hopening := write_opening lower n k
    unfold writtenAttrs at hopening
    rw [pieces, glue, writeForest, ← ihInner, size_glue, ← ihRest]
    unfold writeAll writtenAttrs
    rw [List.flatMap_cons, List.flatMap_append, List.flatMap_append, flatMap_closing, hopening]
    simp only [List.cons_append, List.append_assoc, List.nil_append]

/-! ## Attributes that are read back -/

/-- A key that is set keeps its place, or comes last. -/
theorem keys_setAttr (key value : String) (d : List (String × String)) :
    (setAttr key value d).map Prod.fst =
      if key ∈ d.map Prod.fst then d.map Prod.fst else d.map Prod.fst ++ [key] := by
  induction d with
  | nil => rfl
  | cons attr d ih =>
    obtain ⟨name, v⟩ := attr
    rw [setAttr]
    by_cases hname : name = key
    · simp [hname]
    · rw [if_neg hname, List.map_cons, ih]
      simp only [List.map_cons, List.mem_cons, Ne.symm hname, false_or]
      split
      · rfl
      · rfl

/-- A new key comes last. -/
theorem setAttr_of_not_mem {key : String} {d : List (String × String)}
    (h : key ∉ d.map Prod.fst) (value : String) : setAttr key value d = d ++ [(key, value)] := by
  induction d with
  | nil => rfl
  | cons attr d ih =>
    obtain ⟨name, v⟩ := attr
    rw [List.map_cons, List.mem_cons, not_or] at h
    rw [setAttr, if_neg (Ne.symm h.1), ih h.2, List.cons_append]

/-- Setting a key twice is setting it once. -/
theorem setAttr_setAttr (key value : String) (d : List (String × String)) :
    setAttr key value (setAttr key value d) = setAttr key value d := by
  induction d with
  | nil => simp [setAttr]
  | cons attr d ih =>
    obtain ⟨name, v⟩ := attr
    rw [setAttr]
    by_cases hname : name = key
    · rw [if_pos hname, setAttr, if_pos rfl]
    · rw [if_neg hname, setAttr, if_neg hname, ih]

/-- The names of a dictionary of attributes that is written. -/
structure KeptNames (d : List (String × String)) : Prop where
  nodup : (d.map Prod.fst).Nodup
  kept : ∀ name ∈ d.map Prod.fst, name ∈ keepAttrs

/-- With a kept name the names are still kept ones. -/
theorem KeptNames.setAttr {d : List (String × String)} (h : KeptNames d) {key : String}
    (hkey : key ∈ keepAttrs) (value : String) : KeptNames (setAttr key value d) := by
  refine ⟨?_, ?_⟩
  · rw [keys_setAttr]
    split
    · exact h.nodup
    · next hnew =>
      refine List.nodup_append.mpr ⟨h.nodup, List.pairwise_singleton _ _, ?_⟩
      rintro name hname other hother rfl
      rw [List.mem_singleton.mp hother] at hname
      exact hnew hname
  · rw [keys_setAttr]
    split
    · exact h.kept
    · refine List.forall_mem_append.mpr ⟨h.kept, ?_⟩
      intro name hname
      rwa [List.mem_singleton.mp hname]

/-- The cleaner keeps kept names only. -/
theorem keptNames_attrDict (attrs : List (String × Option String)) :
    KeptNames (attrDict lower attrs) := by
  induction attrs using List.reverseRecOn with
  | nil => exact ⟨List.nodup_nil, fun name hname => absurd hname List.not_mem_nil⟩
  | append_singleton attrs attr ih =>
    rw [attrDict, List.foldl_append, List.foldl_cons, List.foldl_nil]
    split
    · split
      · next hkeep => exact KeptNames.setAttr ih hkeep _
      · exact ih
    · exact ih

/-- The number is under a kept name too. -/
theorem keptNames_writtenAttrs (n : Nat) (k : KeptTag) : KeptNames (writtenAttrs lower n k) :=
  (keptNames_attrDict lower k.attrs).setAttr (by decide) _

/-- What the names of tags and attributes rely on in `str.lower`. -/
structure Lowering : Prop where
  lower_lower : ∀ s, lower (lower s) = lower s
  tagName : ∀ s, TagName s.toList → TagName (lower s).toList
  kept : ∀ name ∈ keepAttrs, lower name = name

/-- Attributes as they are read. -/
def readAttrs (d : List (String × String)) : List (String × Option String) :=
  d.map fun attr => (attr.1, some attr.2)

variable {lower}

/-- Attributes that were kept are read as they are. -/
theorem attrDict_readAttrs (hlower : Lowering lower) {d : List (String × String)}
    (hd : KeptNames d) : attrDict lower (readAttrs d) = d := by
  induction d using List.reverseRecOn with
  | nil => rfl
  | append_singleton d attr ih =>
    obtain ⟨hnodup, hkept⟩ := hd
    rw [List.map_append] at hnodup hkept
    obtain ⟨hnodup', -, hnew⟩ := List.nodup_append.mp hnodup
    obtain ⟨hkept', hkey⟩ := List.forall_mem_append.mp hkept
    have hattr := hkey attr.1 (List.mem_singleton_self _)
    have hrest : attrDict lower (readAttrs d) = d := ih ⟨hnodup', hkept'⟩
    have hfresh : attr.1 ∉ d.map Prod.fst := fun hmem =>
      hnew attr.1 hmem attr.1 (List.mem_singleton_self _) rfl
    unfold attrDict readAttrs at *
    rw [List.map_append, List.foldl_append, hrest, List.map_singleton, List.foldl_cons,
      List.foldl_nil]
    dsimp only
    rw [hlower.kept _ hattr, if_pos hattr, setAttr_of_not_mem hfresh]

/-- Attributes that were written are written again as they are. -/
theorem writtenAttrs_readAttrs (hlower : Lowering lower) (n : Nat) (tag : String) (k : KeptTag) :
    writtenAttrs lower n ⟨tag, readAttrs (writtenAttrs lower n k)⟩ = writtenAttrs lower n k := by
  rw [writtenAttrs, attrDict_readAttrs hlower (keptNames_writtenAttrs lower n k)]
  exact setAttr_setAttr _ _ _

/-- The kept names are names of attributes to the parser. -/
theorem attrName_of_mem_keepAttrs : ∀ name ∈ keepAttrs, AttrName name.toList := by
  have hnames : ∀ name ∈ keepAttrs, name.toList ≠ [] ∧ name.toList.all inAttr = true :=
    List.all_iff_forall_prop.mp (by decide)
  intro name hname
  obtain ⟨hne, hall⟩ := hnames name hname
  exact ⟨hne, List.all_eq_true.mp hall⟩

/-- So are those that are written. -/
theorem attrName_writtenAttrs (lower : String → String) (n : Nat) (k : KeptTag) :
    ∀ attr ∈ writtenAttrs lower n k, AttrName attr.1.toList := by
  intro attr hattr
  exact attrName_of_mem_keepAttrs _
    ((keptNames_writtenAttrs lower n k).kept _ (List.mem_map_of_mem hattr))

/-! ## Reading a forest -/

variable (lower) in
/-- A node of what is left of a page, with a name that is read. -/
structure KeptNode (k : KeptTag) (inner : Forest KeptTag String) : Prop where
  tagName : TagName k.tag.toList
  lowered : lower k.tag = k.tag
  noStrip : k.tag ∉ stripTags
  noSkip : k.tag ∉ skipTags
  void : k.tag ∈ voidTags → inner = .nil

variable {refs : References} {markedSection : List Char → Option (List Char)}

variable (lower refs) in
/-- The page that is read where a forest was written. -/
def readForest : Nat → Forest KeptTag String → Forest Markup String
  | _, .nil => .nil
  | n, .leaf text rest => (readForest n rest).afterLeaves (readings refs text)
  | n, .node k inner rest =>
      .node
        { tag := k.tag
          attrs := readAttrs (writtenAttrs lower n k)
          closing := if k.tag ∈ voidTags then none else some k.tag }
        (readForest (n + 1) inner) (readForest (n + 1 + inner.size) rest)

/-- Texts in front are told first. -/
theorem tokens_afterLeaves (texts : List String) (f : Forest Markup String) :
    tokens (f.afterLeaves texts) = texts.map Token.data ++ tokens f := by
  induction texts with
  | nil => rfl
  | cons t texts ih =>
    show Token.data t :: tokens (f.afterLeaves texts) = _
    rw [ih, List.map_cons, List.cons_append]

/-- An element begins with a tag. -/
theorem startsTag_node (n : Nat) {k : KeptTag} (hk : TagName k.tag.toList)
    (inner after : Forest KeptTag String) (rest : List Char) :
    StartsTag (writeForest lower n (.node k inner after) ++ rest) := by
  obtain ⟨c, cs, hname, hletter⟩ := hk.exists_cons
  rw [writeForest, hname]
  exact ⟨c, _, rfl, .inl hletter⟩

theorem mem_lastLeaf_leaf {t text : String} {rest : Forest KeptTag String}
    (h : t ∈ rest.lastLeaf) : t ∈ (Forest.leaf text rest).lastLeaf := by
  cases rest with
  | nil => cases h
  | leaf s rest => exact h
  | node k inner rest => exact h

/-- The opening tag of a node is read with all its attributes. -/
theorem markup_writtenAttrs (hlower : Lowering lower) (hrefs : refs.Html5) {k : KeptTag}
    {inner : Forest KeptTag String} (hk : KeptNode lower k inner) (n : Nat) (rest : List Char) :
    markup lower refs markedSection
        ((k.tag.toList ++ ' ' :: (attrStr (writtenAttrs lower n k) ++ ['>'])) ++ rest) =
      .more [.start k.tag (readAttrs (writtenAttrs lower n k))] none rest := by
  have hraw : lower k.tag ∉ cdataContentElements := by
    rw [hk.lowered]
    intro hmem
    have hstrip : ∀ tag ∈ cdataContentElements, tag ∈ stripTags := by decide
    exact hk.noStrip (hstrip _ hmem)
  have hattrs : ((writtenAttrs lower n k).map fun attr => (lower attr.1, some attr.2)) =
      readAttrs (writtenAttrs lower n k) := by
    apply List.map_congr_left
    intro attr hattr
    rw [hlower.kept _ ((keptNames_writtenAttrs lower n k).kept _ (List.mem_map_of_mem hattr))]
  have hmarkup : markup lower refs markedSection
      ((k.tag.toList ++ ' ' :: (attrStr (writtenAttrs lower n k) ++ ['>'])) ++ rest) = _ :=
    markup_opening hrefs hk.tagName hraw (writtenAttrs_ne_nil lower n k)
      (attrName_writtenAttrs lower n k) rest
  rwa [hk.lowered, hattrs] at hmarkup

/-- What is written of a forest, its texts put together, is read as a forest. -/
theorem reads_forest (hlower : Lowering lower) (hrefs : refs.Html5) {f : Forest KeptTag String} :
    ∀ {n : Nat} {rest : List Char}, f.LeavesApart →
      f.AllNodes (fun k inner => KeptNode lower k inner ∧ EndsName k.tag.toList) →
      f.AllLeaves (fun text => (cut text).isSome = true) →
      (StartsTag rest ∨ rest = []) →
      (rest = [] → ∀ text ∈ f.lastLeaf, ∀ pieces ∈ cut text, Told pieces) →
        Reads lower refs markedSection (writeForest lower n f) (tokens (readForest lower refs n f))
          rest := by
  induction f with
  | nil =>
    intro n rest _ _ _ _ _
    exact Reads.nil rest
  | leaf text f ih =>
    intro n rest hapart hnodes hleaves hrest hending
    obtain ⟨hapart', hnext⟩ := hapart.after_leaf
    obtain ⟨hcut, hleaves'⟩ := hleaves
    obtain ⟨pieces, hpieces⟩ := Option.isSome_iff_exists.mp hcut
    -- a text is in front of a tag, or of what follows the forest
    have hafter : StartsTag (writeForest lower n f ++ rest) ∨
        writeForest lower n f ++ rest = [] := by
      rcases hnext with rfl | ⟨k, inner, after, rfl⟩
      · exact hrest
      · exact .inl (startsTag_node n hnodes.1.1.tagName inner after rest)
    -- the last text of the page is told only if it is told as a whole
    have htold : writeForest lower n f ++ rest = [] → Told pieces := by
      intro hnil
      obtain ⟨hf, hrest'⟩ := List.append_eq_nil_iff.mp hnil
      rcases hnext with rfl | ⟨k, inner, after, rfl⟩
      · exact hending hrest' text rfl pieces hpieces
      · cases hf
    -- so the text is told in its pieces
    have htext : Reads lower refs markedSection text.toList
        (pieces.map fun piece => .data (readPiece refs piece)) (writeForest lower n f ++ rest) :=
      reads_text hafter hpieces htold
    have hwhole := htext.append (ih hapart' hnodes hleaves' hrest fun hnil t ht =>
      hending hnil t (mem_lastLeaf_leaf ht))
    have htokens : tokens (readForest lower refs n (.leaf text f)) =
        pieces.map (fun piece => Token.data (readPiece refs piece)) ++
          tokens (readForest lower refs n f) := by
      rw [readForest, tokens_afterLeaves, readings, hpieces, Option.getD_some, List.map_map]
      rfl
    rw [htokens]
    exact hwhole
  | node k inner f ihInner ihRest =>
    intro n rest hapart hnodes hleaves hrest hending
    obtain ⟨⟨hk, hends⟩, hinner, hafter⟩ := hnodes
    -- the start tag is told with its attributes
    have hopening : ∀ after, Reads lower refs markedSection
        ('<' :: (k.tag.toList ++ ' ' :: (attrStr (writtenAttrs lower n k) ++ ['>'])))
        [.start k.tag (readAttrs (writtenAttrs lower n k))] after :=
      fun after => Reads.of_markup (markup_writtenAttrs hlower hrefs hk n after)
    have hrest' : Reads lower refs markedSection (writeForest lower (n + 1 + inner.size) f)
        (tokens (readForest lower refs (n + 1 + inner.size) f)) rest :=
      ihRest hapart.2 hafter hleaves.2 hrest hending
    rw [writeForest, readForest, tokens, writeClosing]
    by_cases hvoid : k.tag ∈ voidTags
    · -- a void element is its start tag
      obtain rfl := hk.void hvoid
      have hwhole := (hopening _).append hrest'
      rw [if_pos hvoid, if_pos hvoid]
      simpa [writeForest, readForest, tokens] using hwhole
    · -- the end tag is told with the name of the start tag
      have hclosing : ∀ after, Reads lower refs markedSection
          ('<' :: '/' :: (k.tag.toList ++ ['>'])) [.finish k.tag] after := by
        intro after
        have h : Reads lower refs markedSection _ _ after :=
          reads_closing hk.tagName hends after
        rwa [hk.lowered] at h
      -- the content is told in front of the end tag
      have hinner' : Reads lower refs markedSection (writeForest lower (n + 1) inner)
          (tokens (readForest lower refs (n + 1) inner))
          (('<' :: '/' :: (k.tag.toList ++ ['>']) ++ writeForest lower (n + 1 + inner.size) f) ++
            rest) :=
        ihInner hapart.1 hinner hleaves.1 (.inl ⟨'/', _, rfl, .inr rfl⟩)
          (fun hnil => by cases hnil)
      have hwhole := (hopening _).append (hinner'.append ((hclosing _).append hrest'))
      rw [if_neg hvoid, if_neg hvoid]
      simpa using hwhole

/-! ## The page that is read -/

/-- Texts in front are kept in front. -/
theorem keptForest_afterLeaves (texts : List String) (f : Forest Markup String) :
    keptForest lower (f.afterLeaves texts) = (keptForest lower f).afterLeaves texts := by
  induction texts with
  | nil => rfl
  | cons t texts ih =>
    show Forest.leaf t (keptForest lower (f.afterLeaves texts)) = _
    rw [ih]
    rfl

/-- And written in front. -/
theorem pieces_afterLeaves (n : Nat) (texts : List String) (f : Forest KeptTag String) :
    pieces lower n (f.afterLeaves texts) = texts.flatMap written ++ pieces lower n f := by
  induction texts with
  | nil => rfl
  | cons t texts ih =>
    show written t ++ pieces lower n (f.afterLeaves texts) = _
    rw [ih, List.flatMap_cons, List.append_assoc]

/-- Of texts only the visible ones are written. -/
theorem writeAll_written (texts : List String) :
    writeAll (texts.flatMap written) = (visible texts).flatMap String.toList := by
  induction texts with
  | nil => rfl
  | cons t texts ih =>
    have hvisible : visible (t :: texts) = visible [t] ++ visible texts := visible_append [t] texts
    unfold writeAll at ih ⊢
    rw [List.flatMap_cons, List.flatMap_append, ih, hvisible, List.flatMap_append,
      visible_singleton, written]
    split
    · rfl
    · rw [List.flatMap_singleton, List.flatMap_singleton, Piece.write]

/-- A node of the page that is read is left as it is. -/
theorem keptForest_readNode {n : Nat} {k : KeptTag} {inner : Forest KeptTag String}
    (hk : KeptNode lower k inner) (rest : Forest KeptTag String) :
    keptForest lower (readForest lower refs n (.node k inner rest)) =
      .node ⟨k.tag, readAttrs (writtenAttrs lower n k)⟩
        (keptForest lower (readForest lower refs (n + 1) inner))
        (keptForest lower (readForest lower refs (n + 1 + inner.size) rest)) := by
  rw [readForest, keptForest, hk.lowered, if_neg hk.noStrip, if_neg hk.noSkip]

/-- Texts are no elements. -/
theorem size_afterLeaves (texts : List String) (f : Forest KeptTag String) :
    (f.afterLeaves texts).size = f.size := by
  induction texts with
  | nil => rfl
  | cons t texts ih => exact ih

/-- As many elements are read as were written. -/
theorem size_readForest {f : Forest KeptTag String} : ∀ {n : Nat},
    f.AllNodes (KeptNode lower) → (keptForest lower (readForest lower refs n f)).size = f.size := by
  induction f with
  | nil =>
    intro n _
    rfl
  | leaf text f ih =>
    intro n hnodes
    rw [readForest, keptForest_afterLeaves, size_afterLeaves]
    exact ih hnodes
  | node k inner f ihInner ihRest =>
    rintro n ⟨hk, hinner, hrest⟩
    rw [keptForest_readNode hk, Forest.size, Forest.size, ihInner hinner, ihRest hrest]

/-- A text is written back as its readings are. -/
theorem writeAll_readLeaf (n : Nat) (text : String) (f : Forest KeptTag String) :
    writeAll (pieces lower n (keptForest lower (readForest lower refs n (.leaf text f)))) =
      (visible (readings refs text)).flatMap String.toList ++
        writeAll (pieces lower n (keptForest lower (readForest lower refs n f))) := by
  have htext := writeAll_written (readings refs text)
  rw [readForest, keptForest_afterLeaves, pieces_afterLeaves, ← htext]
  unfold writeAll
  rw [List.flatMap_append]

/-- A node that is read is written with the tags that it was read from. -/
theorem writeAll_readNode (hlower : Lowering lower) {n : Nat} {k : KeptTag}
    {inner : Forest KeptTag String} (hk : KeptNode lower k inner)
    (hinner : inner.AllNodes (KeptNode lower)) (f : Forest KeptTag String) :
    writeAll (pieces lower n (keptForest lower (readForest lower refs n (.node k inner f)))) =
      (Piece.opening k.tag (writtenAttrs lower n k)).write ++
        (writeAll (pieces lower (n + 1) (keptForest lower (readForest lower refs (n + 1) inner))) ++
          (writeClosing k ++ writeAll (pieces lower (n + 1 + inner.size)
            (keptForest lower (readForest lower refs (n + 1 + inner.size) f))))) := by
  have hattrs := writtenAttrs_readAttrs hlower n k.tag k
  rw [writtenAttrs] at hattrs
  rw [keptForest_readNode hk, pieces, size_readForest hinner, hattrs]
  unfold writeAll
  rw [List.flatMap_cons, List.flatMap_append, List.flatMap_append, flatMap_closing]
  rfl

/-- The page that is read is written as what it was read from. -/
theorem writeAll_readForest (hlower : Lowering lower) {f : Forest KeptTag String} : ∀ {n : Nat},
    f.AllNodes (KeptNode lower) →
      (f.AllLeaves fun text =>
        (visible (readings refs text)).flatMap String.toList = text.toList) →
        writeAll (pieces lower n (keptForest lower (readForest lower refs n f))) =
          writeForest lower n f := by
  induction f with
  | nil =>
    intro n _ _
    rfl
  | leaf text f ih =>
    intro n hnodes hleaves
    have hrest := ih (n := n) hnodes hleaves.2
    rw [writeAll_readLeaf, hleaves.1, hrest, writeForest]
  | node k inner f ihInner ihRest =>
    rintro n ⟨hk, hinner, hrest⟩ ⟨hleaves, hleaves'⟩
    rw [writeAll_readNode hlower hk hinner, ihInner hinner hleaves, ihRest hrest hleaves',
      write_opening, writeForest]
    simp only [List.cons_append, List.append_assoc, List.nil_append]

/-- Texts do not disturb the nesting. -/
theorem proper_afterLeaves (texts : List String) {f : Forest Markup String}
    (hf : Proper lower f) : Proper lower (f.afterLeaves texts) := by
  induction texts with
  | nil => exact hf
  | cons t texts ih => exact ih

/-- The page that is read is well nested. -/
theorem proper_readForest {f : Forest KeptTag String} : ∀ {n : Nat},
    f.AllNodes (KeptNode lower) → Proper lower (readForest lower refs n f) := by
  induction f with
  | nil =>
    intro n _
    trivial
  | leaf text f ih =>
    intro n hnodes
    exact proper_afterLeaves _ (ih hnodes)
  | node k inner f ihInner ihRest =>
    rintro n ⟨hk, hinner, hrest⟩
    refine ⟨?_, ?_, ihInner hinner, ihRest hrest⟩
    · dsimp only
      rw [hk.lowered]
      by_cases hvoid : k.tag ∈ voidTags
      · rw [if_pos hvoid, hk.void hvoid]
        rfl
      · rw [if_neg hvoid, if_neg hvoid]
        rfl
    · intro name hname
      dsimp only at hname ⊢
      split at hname
      · cases hname
      · rw [Option.some.inj hname]

/-- The texts that are read are the readings of the texts. -/
theorem leaves_readForest (f : Forest KeptTag String) : ∀ n,
    (readForest lower refs n f).leaves = f.leaves.flatMap (readings refs) := by
  induction f with
  | nil =>
    intro n
    rfl
  | leaf text f ih =>
    intro n
    rw [readForest, Forest.leaves_afterLeaves, ih, Forest.leaves, List.flatMap_cons]
  | node k inner f _ ih =>
    intro n
    exact ih _

/-- Texts are no part of the map. -/
theorem readMap_afterLeaves (texts : List String) (f : Forest Markup String) :
    readMap (f.afterLeaves texts) = readMap f ∧ topPids (f.afterLeaves texts) = topPids f := by
  induction texts with
  | nil => exact ⟨rfl, rfl⟩
  | cons t texts ih => exact ih

/-- A text in front changes nothing of the map. -/
theorem readMap_glueLeaf (n : Nat) (text : String) (f : Forest KeptTag String) :
    readMap (readForest lower refs n (glue (.leaf text f))) =
        readMap (readForest lower refs n (glue f)) ∧
      topPids (readForest lower refs n (glue (.leaf text f))) =
        topPids (readForest lower refs n (glue f)) := by
  have hjoin : ∀ g : Forest KeptTag String,
      readMap (readForest lower refs n (join (collapseWhitespace text) g)) =
          readMap (readForest lower refs n g) ∧
        topPids (readForest lower refs n (join (collapseWhitespace text) g)) =
          topPids (readForest lower refs n g) := by
    intro g
    cases g with
    | nil => exact readMap_afterLeaves _ _
    | leaf next rest =>
      obtain ⟨hmap, htops⟩ := readMap_afterLeaves (readings refs (collapseWhitespace text ++ next))
        (readForest lower refs n rest)
      obtain ⟨hmap', htops'⟩ := readMap_afterLeaves (readings refs next)
        (readForest lower refs n rest)
      exact ⟨hmap.trans hmap'.symm, htops.trans htops'.symm⟩
    | node k inner rest => exact readMap_afterLeaves _ _
  rw [glue]
  split
  · exact ⟨rfl, rfl⟩
  · exact hjoin (glue f)

/-- An attribute is read with the value that was written. -/
theorem lookup_readAttrs (key : String) (d : List (String × String)) :
    (readAttrs d).lookup key = (d.lookup key).map some := by
  induction d with
  | nil => rfl
  | cons attr d ih =>
    obtain ⟨name, value⟩ := attr
    have hcons : readAttrs ((name, value) :: d) = (name, some value) :: readAttrs d := rfl
    rw [hcons, List.lookup_cons, List.lookup_cons, ih]
    split <;> rfl

/-- The attributes of an element besides its number are read as the map has them. -/
theorem filterMap_readAttrs (n : Nat) (k : KeptTag) :
    ((readAttrs (writtenAttrs lower n k)).filterMap fun attr =>
      if attr.1 ≠ "data-pid" then attr.2.map fun value => (attr.1, value) else none) =
        lastValues (keptGiven lower k.attrs) := by
  rw [← filter_attrDict lower (pid (n + 1)) k.attrs]
  unfold readAttrs
  rw [List.filterMap_map, ← List.filterMap_eq_filter]
  apply List.filterMap_congr
  intro attr _
  by_cases hname : attr.1 = "data-pid"
  · simp [Option.guard, hname]
  · simp [Option.guard, hname]

/-- The page that is read says what the element map says. -/
theorem readMap_readForest {f : Forest KeptTag String} : ∀ {n : Nat},
    (f.AllNodes fun _ inner =>
      visible ((glue inner).leaves.flatMap (readings refs)) = visible inner.leaves) →
      readMap (readForest lower refs n (glue f)) = (f.nodes n).map (entry lower) ∧
        topPids (readForest lower refs n (glue f)) = (f.tops n).map pid := by
  induction f with
  | nil =>
    intro n _
    exact ⟨rfl, rfl⟩
  | leaf text f ih =>
    intro n happart
    obtain ⟨hmap, htops⟩ : readMap (readForest lower refs n (glue (.leaf text f))) =
        readMap (readForest lower refs n (glue f)) ∧
          topPids (readForest lower refs n (glue (.leaf text f))) =
            topPids (readForest lower refs n (glue f)) := readMap_glueLeaf n text f
    obtain ⟨hmap', htops'⟩ := ih (n := n) happart
    exact ⟨hmap.trans hmap', htops.trans htops'⟩
  | node k inner f ihInner ihRest =>
    rintro n ⟨hnode, hinner, hrest⟩
    obtain ⟨hmapInner, htopsInner⟩ := ihInner (n := n + 1) hinner
    obtain ⟨hmapRest, htopsRest⟩ := ihRest (n := n + 1 + inner.size) hrest
    have hpid : Markup.dataPid
        { tag := k.tag
          attrs := readAttrs (writtenAttrs lower n k)
          closing := if k.tag ∈ voidTags then none else some k.tag } = pid (n + 1) := by
      unfold Markup.dataPid writtenAttrs
      rw [lookup_readAttrs, lookup_setAttr]
      rfl
    rw [glue, readForest, size_glue]
    refine ⟨?_, ?_⟩
    · rw [readMap, Forest.nodes, List.map_cons, List.map_append, hmapInner, hmapRest, hpid,
        filterMap_readAttrs, leaves_readForest, hnode, htopsInner]
      rfl
    · rw [topPids, Forest.tops, List.map_cons, htopsRest, hpid]

/-! ## Names of a page that was parsed -/

variable (lower) in
/-- The name of a start tag is the lower case of a name that opens a tag. -/
def Started (token : Token) : Prop :=
  ∀ tag attrs, token = .start tag attrs → ∃ name : String, TagName name.toList ∧ tag = lower name

/-- A start tag is told under the lower case of its name. -/
theorem started_parseStarttag {c : Char} {cs rest : List Char} {ts : List Token}
    {rawOf : Option String} (hletter : isAsciiLetter c = true)
    (h : parseStarttag lower refs (c :: cs) = .more ts rawOf rest) :
    ∀ token ∈ ts, Started lower token := by
  have hname : TagName (String.ofList ((c :: cs).takeWhile inTag)).toList := by
    rw [String.toList_ofList]
    refine ⟨?_, fun d hd => List.mem_takeWhile_imp hd⟩
    rw [List.takeWhile_cons_of_pos (inTag_of_letter hletter)]
    exact hletter
  have hstart : ∀ attrs : List (String × Option String),
      Started lower (.start (lower (String.ofList ((c :: cs).takeWhile inTag))) attrs) := by
    intro attrs tag attrs' heq
    exact ⟨_, hname, (Token.start.inj heq).1.symm⟩
  unfold parseStarttag at h
  dsimp only at h
  split at h
  · obtain ⟨rfl, -, -⟩ := Step.more.inj h
    intro token htoken tag attrs heq
    rw [List.mem_singleton.mp htoken] at heq
    cases heq
  · split at h
    · cases h
    · split at h
      · obtain ⟨rfl, -, -⟩ := Step.more.inj h
        intro token htoken
        rcases List.mem_cons.mp htoken with rfl | htoken
        · exact hstart _
        · intro tag attrs heq
          rw [List.mem_singleton.mp htoken] at heq
          cases heq
      · obtain ⟨rfl, -, -⟩ := Step.more.inj h
        intro token htoken
        rw [List.mem_singleton.mp htoken]
        exact hstart _

/-- An end tag tells no start tag. -/
theorem started_parseEndtag {cs rest : List Char} {ts : List Token} {rawOf : Option String}
    (h : parseEndtag lower cs = .more ts rawOf rest) : ∀ token ∈ ts, Started lower token := by
  have hfinish : ∀ name, ∀ token ∈ [Token.finish name], Started lower token := by
    intro name token htoken tag attrs heq
    rw [List.mem_singleton.mp htoken] at heq
    cases heq
  unfold parseEndtag at h
  split at h
  · cases h
  · dsimp only at h
    split at h
    · obtain ⟨rfl, -, -⟩ := Step.more.inj h
      exact hfinish _
    · split at h
      · obtain ⟨rfl, -, -⟩ := Step.more.inj h
        exact hfinish _
      · obtain ⟨rfl, -, -⟩ := Step.more.inj h
        exact fun token htoken => absurd htoken List.not_mem_nil

/-- Comments and declarations are not told. -/
theorem silent_tokens {after : Option (List Char)} {rest : List Char} {ts : List Token}
    {rawOf : Option String} (h : silent after = .more ts rawOf rest) : ts = [] := by
  cases after with
  | none => cases h
  | some rest' => exact (Step.more.inj h).1.symm

/-- Every start tag that is told is told so. -/
theorem started_markup {cs rest : List Char} {ts : List Token} {rawOf : Option String}
    (h : markup lower refs markedSection cs = .more ts rawOf rest) :
    ∀ token ∈ ts, Started lower token := by
  cases cs with
  | nil => cases h
  | cons c cs =>
    rw [markup] at h
    split_ifs at h with hletter hslash hquestion hbang
    · exact started_parseStarttag hletter h
    · exact started_parseEndtag h
    · rw [silent_tokens h]
      exact fun token htoken => absurd htoken List.not_mem_nil
    · rw [silent_tokens h]
      exact fun token htoken => absurd htoken List.not_mem_nil
    · obtain ⟨rfl, -, -⟩ := Step.more.inj h
      intro token htoken tag attrs heq
      rw [List.mem_singleton.mp htoken] at heq
      cases heq

/-- All start tags that the parser tells have such names. -/
theorem started_goahead (fuel : Nat) : ∀ {rawOf : Option String} {cs : List Char},
    ∀ token ∈ goahead lower refs markedSection fuel rawOf cs, Started lower token := by
  have hdata : ∀ text, Started lower (.data text) := by
    intro text tag attrs heq
    cases heq
  have hfinish : ∀ name, Started lower (.finish name) := by
    intro name tag attrs heq
    cases heq
  induction fuel with
  | zero => exact fun token htoken => absurd htoken List.not_mem_nil
  | succ fuel ih =>
    intro rawOf cs token htoken
    cases rawOf with
    | some tag =>
      rw [goahead] at htoken
      split at htoken
      · exact absurd htoken List.not_mem_nil
      · rcases List.mem_append.mp htoken with htoken | htoken
        · split at htoken
          · exact absurd htoken List.not_mem_nil
          · rw [List.mem_singleton.mp htoken]
            exact hdata _
        · rcases List.mem_cons.mp htoken with rfl | htoken
          · exact hfinish _
          · exact ih token htoken
    | none =>
      cases cs with
      | nil => exact absurd htoken List.not_mem_nil
      | cons c cs =>
        rw [goahead] at htoken
        split at htoken
        · split at htoken
          · exact absurd htoken List.not_mem_nil
          · next hmarkup =>
            rcases List.mem_append.mp htoken with htoken | htoken
            · exact started_markup hmarkup token htoken
            · exact ih token htoken
        · dsimp only at htoken
          split at htoken
          · exact absurd htoken List.not_mem_nil
          · rcases List.mem_cons.mp htoken with rfl | htoken
            · exact hdata _
            · exact ih token htoken

/-- What holds of the tokens holds of the elements. -/
theorem allNodes_of_tokens {p : Token → Prop} {f : Forest Markup String} :
    (∀ token ∈ tokens f, p token) → f.AllNodes fun m _ => p (.start m.tag m.attrs) := by
  induction f with
  | nil => exact fun _ => trivial
  | leaf text f ih => exact fun h => ih fun token htoken => h token (List.mem_cons_of_mem _ htoken)
  | node m inner f ihInner ihRest =>
    intro h
    rw [tokens] at h
    obtain ⟨hstart, hrest⟩ := List.forall_mem_cons.mp h
    obtain ⟨hinner, hrest⟩ := List.forall_mem_append.mp hrest
    exact ⟨hstart, ihInner hinner, ihRest (List.forall_mem_append.mp hrest).2⟩

/-- What is left of a well-nested page that was parsed. -/
theorem keptNode_keptForest (hlower : Lowering lower) {f : Forest Markup String} :
    Proper lower f → (f.AllNodes fun m _ => Started lower (.start m.tag m.attrs)) →
      (keptForest lower f).AllNodes (KeptNode lower) := by
  induction f with
  | nil => exact fun _ _ => trivial
  | leaf text f ih => exact fun hproper hnames => ih hproper hnames
  | node m inner f ihInner ihRest =>
    rintro ⟨hshape, -, hinner, hrest⟩ ⟨hname, hnames, hnames'⟩
    have hinner' := ihInner hinner hnames
    have hrest' := ihRest hrest hnames'
    rw [keptForest]
    split_ifs with hstrip hskip
    · exact hrest'
    · exact hinner'.append hrest'
    · obtain ⟨name, htag, heq⟩ := hname m.tag m.attrs rfl
      refine ⟨⟨?_, hlower.lower_lower _, hstrip, hskip, ?_⟩, hinner', hrest'⟩
      · dsimp only
        rw [heq, hlower.lower_lower]
        exact hlower.tagName _ htag
      · intro hvoid
        rw [if_pos hvoid] at hshape
        rw [hshape]
        rfl

/-! ## The round trip -/

section

-- whether a text is empty is not to be computed below
attribute [local irreducible] glue

theorem glue_leaf (text : String) (f : Forest KeptTag String) :
    glue (.leaf text f) = glue f ∨
      glue (.leaf text f) = join (collapseWhitespace text) (glue f) := by
  rw [glue]
  exact ite_eq_or_eq _ _ _

/-- Joining texts keeps what holds of the elements. -/
theorem allNodes_join {p : KeptTag → Forest KeptTag String → Prop} (text : String)
    {f : Forest KeptTag String} (hf : f.AllNodes p) : (join text f).AllNodes p := by
  cases f with
  | nil => trivial
  | leaf next rest => exact hf
  | node k inner rest => exact hf

/-- So does glueing, if it is kept inside the elements. -/
theorem allNodes_glue {p : KeptTag → Forest KeptTag String → Prop}
    (hp : ∀ k inner, p k inner → p k (glue inner)) {f : Forest KeptTag String}
    (hf : f.AllNodes p) : (glue f).AllNodes p := by
  induction f with
  | nil =>
    rw [glue]
    trivial
  | leaf text f ih =>
    rcases glue_leaf text f with hglue | hglue
    · rw [hglue]
      exact ih hf
    · rw [hglue]
      exact allNodes_join _ (ih hf)
  | node k inner f ihInner ihRest =>
    rw [glue]
    exact ⟨hp k inner hf.1, ihInner hf.2.1, ihRest hf.2.2⟩

/-- A text that is joined stands alone. -/
theorem leavesApart_join (text : String) {f : Forest KeptTag String} (hf : f.LeavesApart) :
    (join text f).LeavesApart := by
  cases f with
  | nil => trivial
  | leaf next rest =>
    cases rest with
    | nil => trivial
    | leaf other rest => exact hf.elim
    | node k inner rest => exact hf
  | node k inner rest => exact hf

/-- After glueing no two texts stand side by side. -/
theorem leavesApart_glue (f : Forest KeptTag String) : (glue f).LeavesApart := by
  induction f with
  | nil =>
    rw [glue]
    trivial
  | leaf text f ih =>
    rcases glue_leaf text f with hglue | hglue
    · rw [hglue]
      exact ih
    · rw [hglue]
      exact leavesApart_join _ ih
  | node k inner f ihInner ihRest =>
    rw [glue]
    exact ⟨ihInner, ihRest⟩

/-- Glueing keeps the elements as the cleaner leaves them. -/
theorem kept_glue {f : Forest KeptTag String} (hkept : f.AllNodes (KeptNode lower)) :
    (glue f).AllNodes (KeptNode lower) := by
  refine allNodes_glue (fun k inner hk => ?_) hkept
  refine ⟨hk.tagName, hk.lowered, hk.noStrip, hk.noSkip, fun hvoid => ?_⟩
  rw [hk.void hvoid, glue]

/-- What the cleaner makes of a well-nested page. -/
theorem feed_proper {f : Forest Markup String} (hproper : Proper lower f) :
    (feed lower (tokens f)).output = pieces lower 0 (keptForest lower f) ∧
      (feed lower (tokens f)).elementMap =
        ((keptForest lower f).nodes 0).map (entry lower) := by
  have hafter : feed lower (tokens f) = ({} : Cleaner).after lower (keptForest lower f) :=
    foldl_tokens hproper rfl numbered_init
  rw [hafter]
  exact ⟨rfl, rfl⟩

variable (lower refs markedSection) in
/-- A page that is read where a forest was written, says what its map says and is written
as what it was read from. -/
structure Rereads (f : Forest KeptTag String) (page : Forest Markup String) : Prop where
  proper : Proper lower page
  reads : tokens page =
    parse lower refs markedSection (String.ofList (writeForest lower 0 (glue f)))
  map : readMap page = (f.nodes 0).map (entry lower)
  writes : writeAll (pieces lower 0 (keptForest lower page)) = writeForest lower 0 (glue f)

/-- The round trip, in terms of what is left of the page. -/
theorem roundTrips_iff_rereads {rawHtml : String} {f : Forest Markup String}
    (hproper : Proper lower f) (hpage : tokens f = parse lower refs markedSection rawHtml) :
    RoundTrips lower refs markedSection rawHtml ↔
      ∃ page, Rereads lower refs markedSection (keptForest lower f) page := by
  obtain ⟨houtput, hmap⟩ := feed_proper hproper
  have hwritten : simplifyHtml lower refs markedSection rawHtml =
      (String.ofList (writeForest lower 0 (glue (keptForest lower f))),
        ((keptForest lower f).nodes 0).map (entry lower)) := by
    unfold simplifyHtml
    rw [← hpage]
    dsimp only
    rw [houtput, hmap, writeAll_pieces]
  have hoften : ∀ {page : Forest Markup String} {html : String}, Proper lower page →
      tokens page = parse lower refs markedSection html →
        (simplifyHtml lower refs markedSection html).1 =
          String.ofList (writeAll (pieces lower 0 (keptForest lower page))) := by
    intro page html hproper' hread
    unfold simplifyHtml
    rw [← hread]
    dsimp only
    rw [(feed_proper hproper').1]
  unfold RoundTrips
  rw [hwritten]
  constructor
  · rintro ⟨⟨page, hproper', hread, hmap'⟩, hagain⟩
    rw [hoften hproper' hread] at hagain
    exact ⟨page, hproper', hread, hmap', String.ofList_inj.mp hagain⟩
  · rintro ⟨page, hproper', hread, hmap', hagain⟩
    refine ⟨⟨page, hproper', hread, hmap'⟩, ?_⟩
    rw [hoften hproper' hread, hagain]

/-- A forest of nodes with names that are read in their end tags, and of texts that are
not taken for markup, is read where it was written. -/
theorem tokens_readForest (hlower : Lowering lower) (hrefs : refs.Html5)
    {f : Forest KeptTag String} (hkept : f.AllNodes (KeptNode lower))
    (hcut : (glue f).AllLeaves fun text => (cut text).isSome = true)
    (hnames : f.AllNodes fun k _ => EndsName k.tag.toList)
    (hending : ∀ text ∈ (glue f).lastLeaf, ∀ pieces ∈ cut text, Told pieces) :
    tokens (readForest lower refs 0 (glue f)) =
      parse lower refs markedSection (String.ofList (writeForest lower 0 (glue f))) := by
  refine (Reads.parse ?_).symm
  rw [String.toList_ofList]
  refine reads_forest hlower hrefs (leavesApart_glue _) ?_ hcut (.inr rfl) fun _ => hending
  exact (kept_glue hkept).and (allNodes_glue (fun _ _ hends => hends) hnames)

/-- A readable forest is read back as it should be. -/
theorem rereads_of_readable (hlower : Lowering lower) (hrefs : refs.Html5)
    {f : Forest KeptTag String} (hkept : f.AllNodes (KeptNode lower))
    (hreadable : Readable refs f) :
    Rereads lower refs markedSection f (readForest lower refs 0 (glue f)) where
  proper := proper_readForest (kept_glue hkept)
  reads := tokens_readForest hlower hrefs hkept (hreadable.texts.imp fun _ htext => htext.1)
    hreadable.names hreadable.ending
  map := (readMap_readForest hreadable.apart).1
  writes := writeAll_readForest hlower (kept_glue hkept)
    (hreadable.texts.imp fun _ htext => htext.2)

/-- What is left of a page that was parsed has names that are read. -/
theorem keptNode_parse (hlower : Lowering lower) {rawHtml : String} {f : Forest Markup String}
    (hproper : Proper lower f) (hpage : tokens f = parse lower refs markedSection rawHtml) :
    (keptForest lower f).AllNodes (KeptNode lower) := by
  refine keptNode_keptForest hlower hproper (allNodes_of_tokens ?_)
  rw [hpage]
  exact started_goahead _

end

/-- The references that are written, and no others. -/
def writtenReferences : References where
  named name := [(['a', 'm', 'p', ';'], ['&']), (['q', 'u', 'o', 't', ';'], ['"']),
    (['l', 't', ';'], ['<']), (['g', 't', ';'], ['>'])].lookup name
  numeric _ := []

/-- A page with quotes in an attribute and an ampersand in a text. -/
def quotedPage : Forest Markup String :=
  .node ⟨"p", [("title", some "a \"b\" & c")], some "p"⟩
    (.leaf " x  & y" (.node ⟨"br", [], none⟩ .nil .nil)) (.leaf "z" .nil)

theorem quotedPage_readable : Readable writtenReferences (keptForest id quotedPage) := by
  have hglue : glue (keptForest id quotedPage) =
      .node ⟨"p", [("title", some "a \"b\" & c")]⟩ (.leaf "x & y" .nil) (.leaf "z" .nil) := by
    decide
  refine ⟨?_, ?_, ?_, ?_⟩
  · rw [hglue]
    exact ⟨⟨by decide, trivial⟩, by decide, trivial⟩
  · exact ⟨by decide, trivial, trivial⟩
  · exact ⟨.inl (by decide), trivial, trivial⟩
  · rw [hglue]
    intro text htext pieces hpieces
    obtain rfl : text = "z" := (Option.some.inj htext).symm
    obtain rfl : pieces = [['z']] := (Option.some.inj hpieces).symm
    intro piece hpiece
    obtain rfl : piece = ['z'] := (Option.some.inj hpiece).symm
    exact ⟨by decide, by decide⟩

end Plaidify.Dom
