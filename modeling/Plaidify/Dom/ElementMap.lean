import Plaidify.Dom.Stripping
import Plaidify.Lib.Forests
import Std.Data.String.ToNat

/-!
# The element map

Where tags are well nested the page is a forest. `keptForest` is what should be left
of it: stripped elements are gone with all that is in them, and the content of noise
stands in its place. `feed_forest` says that the cleaner builds the map of this
forest, its nodes numbered in document order.
-/

namespace Plaidify.Dom

open DepthCounter (closeNearest)

/-! ## Well-nested pages -/

/-- The tags of an element; `closing` is the name in its end tag, if it has one. -/
structure Markup where
  tag : String
  attrs : List (String × Option String)
  closing : Option String
deriving DecidableEq, Repr

/-- The tokens of a forest. -/
def tokens : Forest Markup String → List Token
  | .nil => []
  | .leaf text rest => .data text :: tokens rest
  | .node m inner rest =>
      .start m.tag m.attrs ::
        (tokens inner ++ (m.closing.toList.map Token.finish ++ tokens rest))

section

variable (lower : String → String)

/-- A void element has no content and may go without an end tag; every other element
is closed under its name. -/
def Proper : Forest Markup String → Prop
  | .nil => True
  | .leaf _ rest => Proper rest
  | .node m inner rest =>
      (if lower m.tag ∈ voidTags then inner = .nil else m.closing.isSome = true) ∧
        (∀ name ∈ m.closing, lower name = lower m.tag) ∧ Proper inner ∧ Proper rest

/-- The page is well nested. -/
def WellNested (page : List Token) : Prop :=
  ∃ f, Proper lower f ∧ tokens f = page

/-! ## What is left -/

/-- The attributes that are kept, as they are given. -/
def keptGiven (attrs : List (String × Option String)) : List (String × String) :=
  attrs.filterMap fun attr => attr.2.bind fun value =>
    if lower attr.1 ∈ keepAttrs ∧ lower attr.1 ≠ "data-pid" then some (lower attr.1, value)
    else none

/-- Each name where it is first given, with the value that it is last given. -/
def lastValues (given : List (String × String)) : List (String × String) :=
  (given.map Prod.fst).eraseDups.map fun name => (name, (given.reverse.lookup name).getD "")

/-- An element that is left. -/
structure KeptTag where
  tag : String
  attrs : List (String × Option String)
deriving DecidableEq, Repr

/-- What is left of a page. -/
def keptForest : Forest Markup String → Forest KeptTag String
  | .nil => .nil
  | .leaf text rest => .leaf text (keptForest rest)
  | .node m inner rest =>
      if lower m.tag ∈ stripTags then keptForest rest
      else if lower m.tag ∈ skipTags then (keptForest inner).append (keptForest rest)
      else .node ⟨lower m.tag, m.attrs⟩ (keptForest inner) (keptForest rest)

/-- The collapsed texts that are not empty. -/
def visible (texts : List String) : List String :=
  (texts.map collapseWhitespace).filter (· ≠ "")

/-- The entry of a node. -/
def entry (node : Forest.Numbered KeptTag String) : String × ElementInfo :=
  (pid node.number,
    { tag := node.label.tag
      pid := pid node.number
      text := " ".intercalate (visible node.leaves)
      attrs := lastValues (keptGiven lower node.label.attrs)
      childrenPids := node.children.map pid })

/-- The element map of a forest. -/
def mapOf (f : Forest KeptTag String) : List (String × ElementInfo) :=
  (f.nodes 0).map (entry lower)

end

/-- The pids of the opening tags that were written. -/
def openingPids (output : List Piece) : List (Option String) :=
  output.filterMap fun
    | .opening _ attrs => some (attrs.lookup "data-pid")
    | _ => none

variable {lower : String → String}

/-! ## Stripping of well-nested pages -/

/-- The counter is above zero just in stripped elements; a void element is never open. -/
structure Agree (c : Cleaner) (opened : List String) : Prop where
  depth : 0 < c.skipDepth ↔ ∃ tag ∈ opened, tag ∈ stripTags
  noVoid : ∀ tag ∈ opened, tag ∉ voidTags

/-- Only the counter counts. -/
theorem Agree.of_depth {c c' : Cleaner} {opened : List String} (h : Agree c opened)
    (hdepth : c'.skipDepth = c.skipDepth) : Agree c' opened := by
  refine ⟨?_, h.noVoid⟩
  rw [hdepth]
  exact h.depth

variable (lower) in
/-- They agree at every point of a run. -/
def AgreeAlong (c : Cleaner) (opened : List String) : List Token → Prop
  | [] => Agree c opened
  | token :: rest =>
      Agree c opened ∧ AgreeAlong (handle lower c token) (openStep lower opened token) rest

/-- They agree at the beginning. -/
theorem AgreeAlong.start {c : Cleaner} {opened : List String} {page : List Token}
    (h : AgreeAlong lower c opened page) : Agree c opened := by
  cases page with
  | nil => exact h
  | cons token rest => exact h.1

/-- They agree along both parts of a page. -/
theorem agreeAlong_append {a b : List Token} : ∀ {c : Cleaner} {opened : List String},
    AgreeAlong lower c opened (a ++ b) ↔ AgreeAlong lower c opened a ∧
      AgreeAlong lower (a.foldl (handle lower) c) (a.foldl (openStep lower) opened) b := by
  induction a with
  | nil =>
    intro c opened
    exact ⟨fun h => ⟨h.start, h⟩, fun h => h.2⟩
  | cons token a ih =>
    intro c opened
    show Agree c opened ∧ AgreeAlong lower _ _ (a ++ b) ↔ _
    rw [ih]
    exact and_assoc.symm

/-- A void tag changes neither. -/
theorem skipDepth_void {tag : String} (hvoid : lower tag ∈ voidTags)
    (attrs : List (String × Option String)) (c : Cleaner) :
    (handleStarttag lower tag attrs c).skipDepth = c.skipDepth ∧
      (handleEndtag lower tag c).skipDepth = c.skipDepth := by
  rw [skipDepth_handleStarttag, skipDepth_handleEndtag]
  unfold DepthCounter.step strips opens closes
  constructor
  · simp [hvoid, eq_comm]
  · simp [hvoid, eq_comm]

/-- The depth in an element. -/
theorem skipDepth_element {tag : String} (hvoid : lower tag ∉ voidTags)
    (attrs : List (String × Option String)) (c : Cleaner) :
    (handleStarttag lower tag attrs c).skipDepth =
      if 0 < c.skipDepth then c.skipDepth + 1 else if lower tag ∈ stripTags then 1 else 0 := by
  rw [skipDepth_handleStarttag]
  unfold DepthCounter.step strips opens
  by_cases hzero : c.skipDepth = 0
  · simp [hzero, hvoid]
  · rw [if_neg hzero, if_pos (Nat.pos_of_ne_zero hzero)]
    simp [hvoid]

/-- An end tag takes one from the counter, and from zero nothing. -/
theorem skipDepth_closing {tag : String} (hvoid : lower tag ∉ voidTags) (c : Cleaner) :
    (handleEndtag lower tag c).skipDepth = c.skipDepth - 1 := by
  rw [skipDepth_handleEndtag]
  unfold DepthCounter.step strips opens closes
  by_cases hzero : c.skipDepth = 0
  · simp [hzero]
  · simp [hzero, hvoid]

/-- The innermost element is closed first. -/
theorem closeNearest_head (name : String) (opened : List String) :
    closeNearest name (name :: opened) = opened := by
  unfold closeNearest
  rw [if_pos List.mem_cons_self, List.dropWhile_cons_of_neg (by simp), List.tail_cons]

/-- In a well-nested part the counter and the open elements agree, and the part
leaves both as they were. -/
theorem agreeAlong_tokens {f : Forest Markup String} : Proper lower f →
    ∀ {c : Cleaner} {opened : List String}, Agree c opened →
      AgreeAlong lower c opened (tokens f) ∧
        (tokens f).foldl (openStep lower) opened = opened ∧
        ((tokens f).foldl (handle lower) c).skipDepth = c.skipDepth := by
  induction f with
  | nil =>
    intro _ c opened hagree
    exact ⟨hagree, rfl, rfl⟩
  | leaf text rest ih =>
    intro hproper c opened hagree
    -- a text changes neither
    have hdata := skipDepth_handleData text c
    obtain ⟨halong, hopened, hdepth⟩ := ih hproper (hagree.of_depth hdata)
    exact ⟨⟨hagree, halong⟩, hopened, hdepth.trans hdata⟩
  | node m inner rest ihInner ihRest =>
    rintro ⟨hshape, hclosing, hinner, hrest⟩ c opened hagree
    by_cases hvoid : lower m.tag ∈ voidTags
    · -- neither tag changes anything
      obtain rfl : inner = .nil := by rwa [if_pos hvoid] at hshape
      have hstart := (skipDepth_void hvoid m.attrs c).1
      have hagree₁ := hagree.of_depth hstart
      have hopened₁ : openStep lower opened (.start m.tag m.attrs) = opened := if_pos hvoid
      cases hname : m.closing with
      | none =>
        obtain ⟨halong, hopened, hdepth⟩ := ihRest hrest hagree₁
        -- a void element without an end tag
        simp only [tokens, hname, Option.toList_none, List.map_nil, List.nil_append]
        refine ⟨⟨hagree, ?_⟩, ?_, ?_⟩
        · rw [hopened₁]
          exact halong
        · rw [List.foldl_cons, hopened₁]
          exact hopened
        · exact hdepth.trans hstart
      | some name =>
        have hlower := hclosing name hname
        have hvoid' : lower name ∈ voidTags := by rwa [hlower]
        have hend := (skipDepth_void hvoid' [] (handleStarttag lower m.tag m.attrs c)).2
        -- an end tag of a void element is not looked for among the open ones
        have hagree₂ := hagree₁.of_depth hend
        have hopened₂ : openStep lower opened (.finish name) = opened :=
          if_neg fun hmem => hagree.noVoid _ hmem hvoid'
        obtain ⟨halong, hopened, hdepth⟩ := ihRest hrest hagree₂
        simp only [tokens, hname, Option.toList_some, List.map_cons, List.map_nil,
          List.nil_append, List.singleton_append]
        refine ⟨⟨hagree, ?_⟩, ?_, ?_⟩
        · rw [hopened₁]
          refine ⟨hagree₁, ?_⟩
          rw [hopened₂]
          exact halong
        · rw [List.foldl_cons, List.foldl_cons, hopened₁, hopened₂]
          exact hopened
        · exact hdepth.trans (hend.trans hstart)
    · -- the end tag takes back what the start tag did
      rw [if_neg hvoid] at hshape
      obtain ⟨name, hname⟩ := Option.isSome_iff_exists.mp hshape
      have hlower := hclosing name hname
      have hstart := skipDepth_element hvoid m.attrs c
      have hopened₁ : openStep lower opened (.start m.tag m.attrs) = lower m.tag :: opened :=
        if_neg hvoid
      have hagree₁ : Agree (handleStarttag lower m.tag m.attrs c) (lower m.tag :: opened) := by
        refine ⟨?_, List.forall_mem_cons.mpr ⟨hvoid, hagree.noVoid⟩⟩
        rw [hstart, List.exists_mem_cons_iff, ← hagree.depth]
        by_cases hpos : 0 < c.skipDepth
        · simp [hpos]
        · by_cases hstrip : lower m.tag ∈ stripTags
          · simp [hpos, hstrip]
          · simp [hpos, hstrip]
      -- in the element the counter is one more, or as it was
      obtain ⟨halongInner, hopenedInner, hdepthInner⟩ := ihInner hinner hagree₁
      have hvoid' : lower name ∉ voidTags := by rwa [hlower]
      -- its end tag finds it on top
      have hback : openStep lower (lower m.tag :: opened) (.finish name) = opened := by
        show closeNearest (lower name) (lower m.tag :: opened) = opened
        rw [hlower, closeNearest_head]
      have hagree₂ := hagree₁.of_depth hdepthInner
      -- and takes back what the start tag counted
      have hend : (handleEndtag lower name ((tokens inner).foldl (handle lower)
          (handleStarttag lower m.tag m.attrs c))).skipDepth = c.skipDepth := by
        rw [skipDepth_closing hvoid', hdepthInner, hstart]
        split
        · omega
        · split
          · omega
          · omega
      obtain ⟨halong, hopened, hdepth⟩ := ihRest hrest (hagree.of_depth hend)
      simp only [tokens, hname, Option.toList_some, List.map_cons, List.map_nil,
        List.singleton_append]
      refine ⟨⟨hagree, ?_⟩, ?_, ?_⟩
      · rw [hopened₁]
        refine agreeAlong_append.mpr ⟨halongInner, ?_⟩
        rw [hopenedInner]
        refine ⟨hagree₂, ?_⟩
        rw [hback]
        exact halong
      · rw [List.foldl_cons, hopened₁, List.foldl_append, hopenedInner, List.foldl_cons, hback]
        exact hopened
      · rw [List.foldl_cons, List.foldl_append, List.foldl_cons]
        exact hdepth.trans hend

/-- On well-nested pages nothing is written that is in a stripped element, and nothing
else is lost. -/
theorem wellNested_strippedExactly {page : List Token} (h : WellNested lower page) :
    StrippedExactly lower page := by
  obtain ⟨f, hproper, rfl⟩ := h
  intro before text after hpage
  have hagree : Agree {} [] := ⟨by simp, by simp⟩
  have halong := (agreeAlong_tokens hproper hagree).1
  rw [hpage] at halong
  have hhere : Agree (feed lower before) (openElements lower before) :=
    (agreeAlong_append.mp halong).2.start
  rw [feed_concat]
  refine (output_handleData text _).trans ?_
  rw [if_congr hhere.depth rfl rfl]
  rfl

/-! ## Texts -/

/-- How `handle_data` adds a text. -/
def addText (existing text : String) : String :=
  if existing ≠ "" then Text.strip (existing ++ " " ++ text) else text

/-- A collapsed text has no white space at its ends. -/
theorem trimmed_collapseWhitespace (text : String) : Text.Trimmed (collapseWhitespace text) :=
  Text.trimmed_strip _

/-- Texts are joined with a space. -/
theorem addText_trimmed {existing text : String} (he : existing ≠ "") (ht : text ≠ "")
    (hexisting : Text.Trimmed existing) (htext : Text.Trimmed text) :
    addText existing text = existing ++ " " ++ text ∧ Text.Trimmed (existing ++ " " ++ text) := by
  have hleft : (existing ++ " " ++ text).toList.dropWhile Text.isSpace =
      (existing ++ " " ++ text).toList := by
    rw [String.toList_append, String.toList_append, List.append_assoc]
    exact Text.dropWhile_append_of_self (by simpa using he) hexisting.left
  have hright : (existing ++ " " ++ text).toList.rdropWhile Text.isSpace =
      (existing ++ " " ++ text).toList := by
    rw [String.toList_append]
    exact Text.rdropWhile_append_of_self (by simpa using ht) htext.right
  refine ⟨?_, hleft, hright⟩
  unfold addText
  rw [if_pos he]
  apply String.toList_inj.mp
  rw [Text.toList_strip, hleft, hright]

/-- Texts that are added one by one are joined by blanks. -/
theorem foldl_addText {texts : List String} (h : ∀ t ∈ texts, t ≠ "" ∧ Text.Trimmed t) :
    texts.foldl addText "" = " ".intercalate texts ∧
      (texts ≠ [] → " ".intercalate texts ≠ "" ∧ Text.Trimmed (" ".intercalate texts)) := by
  induction texts using List.reverseRecOn with
  | nil => exact ⟨rfl, fun hne => absurd rfl hne⟩
  | append_singleton texts t ih =>
    obtain ⟨htexts, ht⟩ := List.forall_mem_append.mp h
    obtain ⟨hne, htrimmed⟩ := ht t (List.mem_singleton_self t)
    obtain ⟨hfold, hrest⟩ := ih htexts
    rw [List.foldl_append, hfold]
    cases texts with
    | nil =>
      rw [List.nil_append, String.intercalate_singleton]
      exact ⟨rfl, fun _ => ⟨hne, htrimmed⟩⟩
    | cons s texts =>
      obtain ⟨hne', htrimmed'⟩ := hrest (List.cons_ne_nil _ _)
      obtain ⟨hadd, hboth⟩ := addText_trimmed hne' hne htrimmed' htrimmed
      rw [String.intercalate_append_of_ne_nil (List.cons_ne_nil _ _) (List.cons_ne_nil _ _),
        String.intercalate_singleton]
      refine ⟨hadd, fun _ => ⟨?_, hboth⟩⟩
      intro hempty
      have hlength := congrArg String.length hempty
      rw [String.length_append, String.length_append] at hlength
      simp at hlength

/-- A visible text is not empty and has no white space at its ends. -/
theorem visible_trimmed {texts : List String} : ∀ t ∈ visible texts, t ≠ "" ∧ Text.Trimmed t := by
  intro t ht
  obtain ⟨hmem, hne⟩ := List.mem_filter.mp ht
  obtain ⟨text, -, rfl⟩ := List.mem_map.mp hmem
  exact ⟨of_decide_eq_true hne, trimmed_collapseWhitespace text⟩

/-! ## Attributes -/

/-- Setting an attribute changes its value, or adds it at the end. -/
theorem setAttr_map {keys : List String} (hnodup : keys.Nodup) (value : String → String)
    (key v : String) :
    setAttr key v (keys.map fun name => (name, value name)) =
      if key ∈ keys then keys.map fun name => (name, if name = key then v else value name)
      else (keys.map fun name => (name, value name)) ++ [(key, v)] := by
  induction keys with
  | nil => rfl
  | cons name keys ih =>
    obtain ⟨hnew, hrest⟩ := List.nodup_cons.mp hnodup
    rw [List.map_cons, setAttr]
    by_cases hname : name = key
    · subst hname
      rw [if_pos rfl, if_pos List.mem_cons_self, List.map_cons, if_pos rfl]
      congr 1
      apply List.map_congr_left
      intro other hother
      have hother' : other ≠ name := fun heq => hnew (by rwa [← heq])
      rw [if_neg hother']
    · rw [if_neg hname, ih hrest]
      by_cases hmem : key ∈ keys
      · rw [if_pos hmem, if_pos (List.mem_cons_of_mem _ hmem), List.map_cons, if_neg hname]
      · have hnot : key ∉ name :: keys := by
          rw [List.mem_cons]
          rintro (heq | hkey)
          · exact hname heq.symm
          · exact hmem hkey
        rw [if_neg hmem, if_neg hnot, List.cons_append]

/-- The last value given under a name counts. -/
theorem lookup_reverse_concat (given : List (String × String)) (key v name : String) :
    ((given ++ [(key, v)]).reverse.lookup name).getD "" =
      if name = key then v else (given.reverse.lookup name).getD "" := by
  rw [List.reverse_append, List.reverse_singleton, List.singleton_append, List.lookup_cons]
  by_cases hname : name = key
  · simp [hname]
  · rw [if_neg hname, beq_eq_false_iff_ne.mpr hname]

/-- A name that was given before keeps its place. -/
theorem eraseDups_concat (l : List String) (a : String) :
    (l ++ [a]).eraseDups = if a ∈ l then l.eraseDups else l.eraseDups ++ [a] := by
  rw [List.eraseDups_append]
  by_cases ha : a ∈ l
  · simp [ha, List.removeAll]
  · simp [ha, List.removeAll, List.eraseDups_cons]

theorem nodup_eraseDups (l : List String) : l.eraseDups.Nodup := by
  induction l using List.reverseRecOn with
  | nil => exact List.nodup_nil
  | append_singleton l a ih =>
    rw [eraseDups_concat]
    split
    · exact ih
    · next ha =>
      rw [List.nodup_append]
      refine ⟨ih, List.pairwise_singleton _ a, ?_⟩
      rintro b hb c hc rfl
      rw [List.mem_singleton.mp hc, List.mem_eraseDups] at hb
      exact ha hb

/-- A dictionary that is filled in order has the last values in the order of the first
names. -/
theorem foldl_setAttr (given : List (String × String)) :
    given.foldl (fun d attr => setAttr attr.1 attr.2 d) [] = lastValues given := by
  induction given using List.reverseRecOn with
  | nil => rfl
  | append_singleton given attr ih =>
    obtain ⟨key, v⟩ := attr
    rw [List.foldl_append, ih, List.foldl_cons, List.foldl_nil]
    unfold lastValues
    rw [setAttr_map (nodup_eraseDups _), List.map_append, List.map_singleton, eraseDups_concat]
    simp only [lookup_reverse_concat, List.mem_eraseDups]
    by_cases hmem : key ∈ given.map Prod.fst
    · rw [if_pos hmem, if_pos hmem]
    · rw [if_neg hmem, if_neg hmem, List.map_append, List.map_singleton, if_pos rfl]
      congr 1
      apply List.map_congr_left
      intro name hname
      have hother : name ≠ key := fun heq => hmem (by rwa [← heq, ← List.mem_eraseDups])
      rw [if_neg hother]

/-- An attribute that is hidden may be set and is not seen. -/
theorem filter_setAttr (hidden key v : String) (d : List (String × String)) :
    (setAttr key v d).filter (fun attr => attr.1 ≠ hidden) =
      if key = hidden then d.filter fun attr => attr.1 ≠ hidden
      else setAttr key v (d.filter fun attr => attr.1 ≠ hidden) := by
  induction d with
  | nil =>
    by_cases hkey : key = hidden
    · simp [setAttr, hkey]
    · simp [setAttr, hkey]
  | cons attr d ih =>
    obtain ⟨name, value⟩ := attr
    rw [setAttr]
    by_cases hname : name = key
    · subst hname
      by_cases hhidden : name = hidden
      · simp [hhidden]
      · simp [hhidden, setAttr]
    · rw [if_neg hname]
      by_cases hhidden : name = hidden
      · subst hhidden
        rw [List.filter_cons_of_neg (by simp), ih, List.filter_cons_of_neg (by simp)]
      · rw [List.filter_cons_of_pos (by simpa using hhidden), ih,
          List.filter_cons_of_pos (by simpa using hhidden)]
        by_cases hkey : key = hidden
        · rw [if_pos hkey, if_pos hkey]
        · rw [if_neg hkey, if_neg hkey, setAttr, if_neg hname]

/-- The attributes in the entry of an element. -/
theorem filter_attrDict (lower : String → String) (pid : String)
    (attrs : List (String × Option String)) :
    (setAttr "data-pid" pid (attrDict lower attrs)).filter (fun attr => attr.1 ≠ "data-pid") =
      lastValues (keptGiven lower attrs) := by
  rw [filter_setAttr, if_pos rfl, ← foldl_setAttr]
  unfold attrDict keptGiven
  induction attrs using List.reverseRecOn with
  | nil => rfl
  | append_singleton attrs attr ih =>
    obtain ⟨name, value⟩ := attr
    rw [List.foldl_append, List.filterMap_append, List.foldl_append, ← ih]
    rw [List.foldl_cons, List.foldl_nil, List.filterMap_cons, List.filterMap_nil]
    cases value with
    | none => rfl
    | some value =>
      dsimp only [Option.bind_some]
      by_cases hkeep : lower name ∈ keepAttrs
      · rw [if_pos hkeep, filter_setAttr]
        by_cases hpid : lower name = "data-pid"
        · rw [if_pos hpid, if_neg (fun h => h.2 hpid)]
          rfl
        · rw [if_neg hpid, if_pos ⟨hkeep, hpid⟩]
          rfl
      · rw [if_neg hkeep, if_neg (fun h => hkeep h.1)]
        rfl

/-! ## One run over a forest -/

/-- What is written for a forest, where `n` pids are taken. -/
def pieces (lower : String → String) (n : Nat) : Forest KeptTag String → List Piece
  | .nil => []
  | .leaf text rest => written text ++ pieces lower n rest
  | .node k inner rest =>
      .opening k.tag (setAttr "data-pid" (pid (n + 1)) (attrDict lower k.attrs)) ::
        (pieces lower (n + 1) inner ++
          ((if k.tag ∈ voidTags then [] else [.closing k.tag]) ++
            pieces lower (n + 1 + inner.size) rest))

/-- What a forest adds to the entry of the element around it. -/
def absorb (n : Nat) (f : Forest KeptTag String) (info : ElementInfo) : ElementInfo :=
  { info with
    text := (visible f.leaves).foldl addText info.text
    childrenPids := info.childrenPids ++ (f.tops n).map pid }

/-- The same, of the nearest element that is open. -/
def absorbAt (stack : List String) (n : Nat) (f : Forest KeptTag String)
    (elementMap : List (String × ElementInfo)) : List (String × ElementInfo) :=
  match stack with
  | key :: _ => updateInfo key (absorb n f) elementMap
  | [] => elementMap

/-- The cleaner after a forest. -/
def Cleaner.after (lower : String → String) (c : Cleaner) (f : Forest KeptTag String) : Cleaner where
  output := c.output ++ pieces lower c.pidCounter f
  elementMap := absorbAt c.tagStack c.pidCounter f c.elementMap ++
    (f.nodes c.pidCounter).map (entry lower)
  pidCounter := c.pidCounter + f.size
  skipDepth := c.skipDepth
  tagStack := c.tagStack

/-- All pids are of numbers that are taken. -/
structure Numbered (c : Cleaner) : Prop where
  keys : ∀ e ∈ c.elementMap, ∃ n, n ≤ c.pidCounter ∧ e.1 = pid n
  stack : ∀ key ∈ c.tagStack, ∃ n, n ≤ c.pidCounter ∧ key = pid n

/-- The numbers of the elements tell them apart. -/
theorem pid_inj {m n : Nat} (h : pid m = pid n) : m = n := by
  unfold pid at h
  have hlist := congrArg String.toList h
  rw [String.toList_append, String.toList_append] at hlist
  exact Nat.repr_injective (String.toList_inj.mp (List.append_cancel_left hlist))

/-- An element is looked for in both parts of the map. -/
theorem updateInfo_append (key : String) (f : ElementInfo → ElementInfo)
    (a b : List (String × ElementInfo)) :
    updateInfo key f (a ++ b) = updateInfo key f a ++ updateInfo key f b := by
  unfold updateInfo
  rw [List.map_append]

/-- Two updates of an element are one. -/
theorem updateInfo_comp (key : String) (f g : ElementInfo → ElementInfo)
    (m : List (String × ElementInfo)) :
    updateInfo key f (updateInfo key g m) = updateInfo key (f ∘ g) m := by
  unfold updateInfo
  rw [List.map_map]
  apply List.map_congr_left
  intro e _
  by_cases he : e.1 = key
  · simp [he]
  · simp [he]

/-- An element that is not there is not updated. -/
theorem updateInfo_of_not_mem {key : String} {m : List (String × ElementInfo)}
    (f : ElementInfo → ElementInfo) (h : ∀ e ∈ m, e.1 ≠ key) : updateInfo key f m = m := by
  unfold updateInfo
  refine (List.map_congr_left fun e he => if_neg (h e he)).trans ?_
  exact List.map_id m

/-- The visible texts of both parts. -/
theorem visible_append (a b : List String) : visible (a ++ b) = visible a ++ visible b := by
  unfold visible
  rw [List.map_append, List.filter_append]

/-- The second part is numbered after the first. -/
theorem pieces_append (f g : Forest KeptTag String) : ∀ n,
    pieces lower n (f.append g) = pieces lower n f ++ pieces lower (n + f.size) g := by
  induction f with
  | nil =>
    intro n
    rfl
  | leaf t rest ih =>
    intro n
    rw [Forest.append, pieces, pieces, ih, List.append_assoc]
    rfl
  | node k inner rest _ ih =>
    intro n
    have hsize : n + (1 + inner.size + rest.size) = n + 1 + inner.size + rest.size := by omega
    rw [Forest.append, pieces, pieces, ih, Forest.size, hsize]
    simp only [List.append_assoc, List.cons_append]

/-- What is absorbed of both parts is absorbed one after the other. -/
theorem absorb_append (n : Nat) (f g : Forest KeptTag String) :
    absorb (n + f.size) g ∘ absorb n f = absorb n (f.append g) := by
  funext info
  unfold absorb
  simp only [Function.comp_apply, Forest.leaves_append, Forest.tops_append, visible_append,
    List.foldl_append, List.map_append, List.append_assoc]

/-- The new entries have pids that were not taken. -/
theorem entry_new {n k : Nat} (hk : k ≤ n) (f : Forest KeptTag String) :
    ∀ e ∈ (f.nodes n).map (entry lower), e.1 ≠ pid k := by
  intro e he heq
  obtain ⟨node, hnode, rfl⟩ := List.mem_map.mp he
  have hnumber := List.mem_map_of_mem (f := Forest.Numbered.number) hnode
  rw [Forest.nodes_numbers, List.mem_range'_1] at hnumber
  have hsame := pid_inj heq
  omega

/-- One forest after another. -/
theorem after_append {c : Cleaner} (hc : Numbered c) (f g : Forest KeptTag String) :
    (c.after lower f).after lower g = c.after lower (f.append g) := by
  unfold Cleaner.after
  simp only [pieces_append, Forest.size_append, Forest.nodes_append, List.map_append,
    List.append_assoc, Nat.add_assoc]
  congr 1
  rw [← List.append_assoc]
  congr 1
  unfold absorbAt
  split
  · next key stack hstack =>
    obtain ⟨k, hk, rfl⟩ := hc.stack key (by rw [hstack]; exact List.mem_cons_self)
    rw [updateInfo_append, updateInfo_comp, absorb_append,
      updateInfo_of_not_mem _ (entry_new hk f)]
  · rfl

/-- An update adds no element. -/
theorem mem_updateInfo {key : String} {f : ElementInfo → ElementInfo}
    {m : List (String × ElementInfo)} {e : String × ElementInfo} (h : e ∈ updateInfo key f m) :
    ∃ e' ∈ m, e.1 = e'.1 := by
  obtain ⟨e', he', rfl⟩ := List.mem_map.mp h
  refine ⟨e', he', ?_⟩
  split <;> rfl

/-- Neither does what is absorbed. -/
theorem mem_absorbAt {stack : List String} {n : Nat} {f : Forest KeptTag String}
    {m : List (String × ElementInfo)} {e : String × ElementInfo} (h : e ∈ absorbAt stack n f m) :
    ∃ e' ∈ m, e.1 = e'.1 := by
  cases stack with
  | nil => exact ⟨e, h, rfl⟩
  | cons key stack => exact mem_updateInfo h

/-- The numbers go on after a forest. -/
theorem Numbered.after {c : Cleaner} (hc : Numbered c) (f : Forest KeptTag String) :
    Numbered (c.after lower f) := by
  refine ⟨fun e he => ?_, fun key hkey => ?_⟩
  · rcases List.mem_append.mp he with he | he
    · obtain ⟨e', he', heq⟩ := mem_absorbAt he
      obtain ⟨n, hn, hpid⟩ := hc.keys e' he'
      exact ⟨n, Nat.le_add_right_of_le hn, heq.trans hpid⟩
    · obtain ⟨node, hnode, rfl⟩ := List.mem_map.mp he
      have hnumber := List.mem_map_of_mem (f := Forest.Numbered.number) hnode
      rw [Forest.nodes_numbers, List.mem_range'_1] at hnumber
      refine ⟨node.number, ?_, rfl⟩
      show node.number ≤ c.pidCounter + f.size
      omega
  · obtain ⟨n, hn, hpid⟩ := hc.stack key hkey
    exact ⟨n, Nat.le_add_right_of_le hn, hpid⟩

/-- Where nothing is absorbed the map stays. -/
theorem absorbAt_of_id {n : Nat} {f : Forest KeptTag String} (h : absorb n f = id)
    (stack : List String) (m : List (String × ElementInfo)) : absorbAt stack n f m = m := by
  unfold absorbAt
  split
  · unfold updateInfo
    rw [h]
    refine (List.map_congr_left fun e _ => ?_).trans (List.map_id m)
    split <;> rfl
  · rfl

theorem visible_leaves_nil : " ".intercalate (visible []) = "" := by
  rw [visible, List.map_nil, List.filter_nil, String.intercalate_nil]

/-- A text is visible unless it is white. -/
theorem visible_singleton (text : String) :
    visible [text] = if collapseWhitespace text = "" then [] else [collapseWhitespace text] := by
  unfold visible
  by_cases htext : collapseWhitespace text = ""
  · simp [htext]
  · simp [htext]

/-- The empty forest changes nothing. -/
theorem after_nil (c : Cleaner) : c.after lower .nil = c := by
  unfold Cleaner.after
  have habsorb : absorb c.pidCounter .nil = id := by
    funext info
    simp [absorb, Forest.leaves, Forest.tops, visible]
  rw [absorbAt_of_id habsorb]
  simp [pieces, Forest.size, Forest.nodes]

/-- A text does what its leaf says. -/
theorem handleData_eq_after (text : String) {c : Cleaner} (hc : c.skipDepth = 0) :
    handleData text c = c.after lower (.leaf text .nil) := by
  have habsorb : absorb c.pidCounter (.leaf text .nil) =
      fun info => { info with text := (visible [text]).foldl addText info.text } := by
    funext info
    simp [absorb, Forest.leaves, Forest.tops]
  unfold handleData Cleaner.after
  rw [if_neg (by omega)]
  dsimp only
  rw [visible_singleton] at habsorb
  unfold pieces pieces written
  by_cases htext : collapseWhitespace text = ""
  · rw [if_pos htext] at habsorb
    rw [if_pos htext, if_pos htext, absorbAt_of_id habsorb]
    simp [Forest.size, Forest.nodes]
  · rw [if_neg htext] at habsorb
    rw [if_neg htext, if_neg htext]
    simp only [Forest.size, Forest.nodes, List.map_nil, List.append_nil, Nat.add_zero]
    generalize collapseWhitespace text = t at habsorb ⊢
    cases hstack : c.tagStack with
    | nil => simp only [absorbAt]
    | cons key stack =>
      simp only [absorbAt, habsorb, List.foldl_cons, List.foldl_nil, addText]

/-- What a start tag that is kept does. -/
theorem handleStarttag_eq_after {tag : String} (attrs : List (String × Option String))
    (hstrip : lower tag ∉ stripTags) (hskip : lower tag ∉ skipTags) {c : Cleaner}
    (hc : c.skipDepth = 0) (hnumbered : Numbered c) :
    handleStarttag lower tag attrs c =
      { c with
        output := c.output ++ [.opening (lower tag)
          (setAttr "data-pid" (pid (c.pidCounter + 1)) (attrDict lower attrs))]
        elementMap := absorbAt c.tagStack c.pidCounter (.node ⟨lower tag, attrs⟩ .nil .nil)
          c.elementMap ++ [entry lower ⟨c.pidCounter + 1, ⟨lower tag, attrs⟩, [], []⟩]
        pidCounter := c.pidCounter + 1
        tagStack := if lower tag ∈ voidTags then c.tagStack
          else pid (c.pidCounter + 1) :: c.tagStack } := by
  have hentry : entry lower ⟨c.pidCounter + 1, ⟨lower tag, attrs⟩, [], []⟩ =
      (pid (c.pidCounter + 1),
        { tag := lower tag
          pid := pid (c.pidCounter + 1)
          attrs := lastValues (keptGiven lower attrs) }) := rfl
  have habsorb : absorb c.pidCounter (.node ⟨lower tag, attrs⟩ .nil .nil) =
      fun info =>
        { info with childrenPids := info.childrenPids ++ [pid (c.pidCounter + 1)] } := rfl
  unfold handleStarttag
  dsimp only
  rw [if_neg (by omega), if_neg hstrip, if_neg hskip, filter_attrDict, hentry]
  cases hstack : c.tagStack with
  | nil => simp only [absorbAt]
  | cons key stack =>
    obtain ⟨k, hk, rfl⟩ := hnumbered.stack key (by rw [hstack]; exact List.mem_cons_self)
    have hother : pid (c.pidCounter + 1) ≠ pid k := by
      intro heq
      have hsame := pid_inj heq
      omega
    simp only [absorbAt, habsorb, updateInfo_append]
    rw [updateInfo_of_not_mem (m := [_]) _ (by simpa using hother)]

/-- A start tag takes the next number. -/
theorem Numbered.handleStarttag {tag : String} (attrs : List (String × Option String))
    (hstrip : lower tag ∉ stripTags) (hskip : lower tag ∉ skipTags) {c : Cleaner}
    (hc : c.skipDepth = 0) (hnumbered : Numbered c) :
    Numbered (handleStarttag lower tag attrs c) := by
  rw [handleStarttag_eq_after attrs hstrip hskip hc hnumbered]
  refine ⟨(hnumbered.after (.node ⟨lower tag, attrs⟩ .nil .nil)).keys,
    fun key hkey => ?_⟩
  have htaken : ∀ key ∈ c.tagStack, ∃ n, n ≤ c.pidCounter + 1 ∧ key = pid n := by
    intro key hkey
    obtain ⟨n, hn, hpid⟩ := hnumbered.stack key hkey
    exact ⟨n, Nat.le_succ_of_le hn, hpid⟩
  dsimp only at hkey
  split at hkey
  · exact htaken key hkey
  · rcases List.mem_cons.mp hkey with rfl | hkey
    · exact ⟨c.pidCounter + 1, Nat.le_refl _, rfl⟩
    · exact htaken key hkey

/-- A void element. -/
theorem void_eq_after {tag : String} (attrs : List (String × Option String))
    (hstrip : lower tag ∉ stripTags) (hskip : lower tag ∉ skipTags)
    (hvoid : lower tag ∈ voidTags) {c : Cleaner} (hc : c.skipDepth = 0)
    (hnumbered : Numbered c) :
    handleStarttag lower tag attrs c = c.after lower (.node ⟨lower tag, attrs⟩ .nil .nil) := by
  rw [handleStarttag_eq_after attrs hstrip hskip hc hnumbered, if_pos hvoid]
  unfold Cleaner.after
  simp [pieces, hvoid, Forest.size, Forest.nodes, Forest.leaves, Forest.tops]

/-- An element with its content. -/
theorem element_eq_after {tag name : String} (attrs : List (String × Option String))
    (hstrip : lower tag ∉ stripTags) (hskip : lower tag ∉ skipTags)
    (hvoid : lower tag ∉ voidTags) (hname : lower name = lower tag) {c : Cleaner}
    (hc : c.skipDepth = 0) (hnumbered : Numbered c) (f : Forest KeptTag String) :
    handleEndtag lower name ((handleStarttag lower tag attrs c).after lower f) =
      c.after lower (.node ⟨lower tag, attrs⟩ f .nil) := by
  rw [handleStarttag_eq_after attrs hstrip hskip hc hnumbered, if_neg hvoid]
  unfold handleEndtag Cleaner.after
  dsimp only
  rw [if_neg (by omega), hname, if_neg (by simp [hstrip, hskip, hvoid])]
  have hmap : absorbAt (pid (c.pidCounter + 1) :: c.tagStack) (c.pidCounter + 1) f
      (absorbAt c.tagStack c.pidCounter (.node ⟨lower tag, attrs⟩ .nil .nil) c.elementMap ++
        [entry lower ⟨c.pidCounter + 1, ⟨lower tag, attrs⟩, [], []⟩]) =
      absorbAt c.tagStack c.pidCounter (.node ⟨lower tag, attrs⟩ f .nil) c.elementMap ++
        [entry lower
          ⟨c.pidCounter + 1, ⟨lower tag, attrs⟩, f.leaves, f.tops (c.pidCounter + 1)⟩] := by
    have hearlier : ∀ e ∈ absorbAt c.tagStack c.pidCounter
        (.node ⟨lower tag, attrs⟩ .nil .nil) c.elementMap, e.1 ≠ pid (c.pidCounter + 1) := by
      intro e he heq
      obtain ⟨e', he', hkey⟩ := mem_absorbAt he
      obtain ⟨k, hk, hpid⟩ := hnumbered.keys e' he'
      have hsame := pid_inj ((heq.symm.trans hkey).trans hpid)
      omega
    show updateInfo _ _ _ = _
    rw [updateInfo_append, updateInfo_of_not_mem _ hearlier]
    congr 1
    unfold updateInfo
    simp only [entry, absorb, List.map_singleton, ↓reduceIte, visible_leaves_nil,
      (foldl_addText visible_trimmed).1, List.map_nil, List.nil_append]
  rw [hmap]
  simp [pieces, hvoid, Forest.size, Forest.nodes, Nat.add_assoc]

/-- In a stripped element nothing changes. -/
theorem foldl_stripped {f : Forest Markup String} : Proper lower f → ∀ {c : Cleaner},
    0 < c.skipDepth → (tokens f).foldl (handle lower) c = c := by
  induction f with
  | nil =>
    intro _ c _
    rfl
  | leaf text rest ih =>
    intro hproper c hpos
    -- a text is dropped there
    have hdata : handleData text c = c := if_pos hpos
    rw [tokens, List.foldl_cons]
    show (tokens rest).foldl (handle lower) (handleData text c) = c
    rw [hdata]
    exact ih hproper hpos
  | node m inner rest ihInner ihRest =>
    rintro ⟨hshape, hclosing, hinner, hrest⟩ c hpos
    -- start and end tags only count
    have hstart : handleStarttag lower m.tag m.attrs c =
        if lower m.tag ∉ voidTags then { c with skipDepth := c.skipDepth + 1 } else c := by
      unfold handleStarttag
      exact if_pos hpos
    have hend : ∀ name, ∀ c' : Cleaner, 0 < c'.skipDepth → handleEndtag lower name c' =
        if lower name ∉ voidTags then { c' with skipDepth := c'.skipDepth - 1 } else c' := by
      intro name c' hpos'
      unfold handleEndtag
      exact if_pos hpos'
    rw [tokens, List.foldl_cons, List.foldl_append, List.foldl_append]
    show (tokens rest).foldl (handle lower) ((m.closing.toList.map Token.finish).foldl
      (handle lower) ((tokens inner).foldl (handle lower)
        (handleStarttag lower m.tag m.attrs c))) = c
    by_cases hvoid : lower m.tag ∈ voidTags
    · -- a void element counts nothing
      obtain rfl : inner = .nil := by rwa [if_pos hvoid] at hshape
      rw [hstart, if_neg (not_not.mpr hvoid)]
      cases hname : m.closing with
      | none => exact ihRest hrest hpos
      | some name =>
        have hvoid' : lower name ∈ voidTags := by rwa [hclosing name hname]
        have hback : handle lower c (.finish name) = c := by
          refine (hend name c hpos).trans ?_
          rw [if_neg (not_not.mpr hvoid')]
        show (tokens rest).foldl (handle lower) (handle lower c (.finish name)) = c
        rw [hback]
        exact ihRest hrest hpos
    · rw [if_neg hvoid] at hshape
      obtain ⟨name, hname⟩ := Option.isSome_iff_exists.mp hshape
      have hvoid' : lower name ∉ voidTags := by rwa [hclosing name hname]
      have hpos' : 0 < ({ c with skipDepth := c.skipDepth + 1 } : Cleaner).skipDepth :=
        Nat.succ_pos _
      -- the end tag takes back the count of its start tag
      have hback : handle lower { c with skipDepth := c.skipDepth + 1 } (.finish name) = c := by
        refine (hend name _ hpos').trans ?_
        rw [if_pos hvoid']
        rfl
      rw [hstart, if_pos hvoid, ihInner hinner hpos', hname, Option.toList_some,
        List.map_singleton, List.foldl_cons, List.foldl_nil, hback]
      exact ihRest hrest hpos

/-- A well-nested part does what its kept forest says. -/
theorem foldl_tokens {f : Forest Markup String} : Proper lower f → ∀ {c : Cleaner},
    c.skipDepth = 0 → Numbered c →
      (tokens f).foldl (handle lower) c = c.after lower (keptForest lower f) := by
  induction f with
  | nil =>
    intro _ c _ _
    exact (after_nil c).symm
  | leaf text rest ih =>
    intro hproper c hc hnumbered
    rw [tokens, List.foldl_cons]
    show (tokens rest).foldl (handle lower) (handleData text c) = _
    -- at depth zero a text stands where it is read
    have hdata : handleData text c = c.after lower (.leaf text .nil) := handleData_eq_after text hc
    rw [hdata, ih hproper (c := c.after lower _) hc (hnumbered.after _), after_append hnumbered]
    rfl
  | node m inner rest ihInner ihRest =>
    rintro ⟨hshape, hclosing, hinner, hrest⟩ c hc hnumbered
    rw [tokens, List.foldl_cons, List.foldl_append, List.foldl_append]
    show (tokens rest).foldl (handle lower) ((m.closing.toList.map Token.finish).foldl
      (handle lower) ((tokens inner).foldl (handle lower)
        (handleStarttag lower m.tag m.attrs c))) = _
    -- what the end tag does, where there is one, and where it finds no depth
    have hquiet : ∀ name ∈ m.closing, ∀ c' : Cleaner, c'.skipDepth = 0 →
        lower m.tag ∈ stripTags ∨ lower m.tag ∈ skipTags ∨ lower m.tag ∈ voidTags →
          handle lower c' (.finish name) = c' := by
      intro name hname c' hc' hno
      show handleEndtag lower name c' = c'
      unfold handleEndtag
      dsimp only
      rw [hclosing name hname, if_neg (by omega), if_pos hno]
    have hclose : ∀ c' : Cleaner, c'.skipDepth = 0 →
        lower m.tag ∈ stripTags ∨ lower m.tag ∈ skipTags ∨ lower m.tag ∈ voidTags →
          (m.closing.toList.map Token.finish).foldl (handle lower) c' = c' := by
      intro c' hc' hno
      cases hname : m.closing with
      | none => rfl
      | some name => exact hquiet name hname c' hc' hno
    by_cases hstrip : lower m.tag ∈ stripTags
    · -- the element goes with all that is in it
      rw [keptForest, if_pos hstrip]
      by_cases hvoid : lower m.tag ∈ voidTags
      · -- it may even be void, and then it has nothing in it
        obtain rfl : inner = .nil := by rwa [if_pos hvoid] at hshape
        have hstart : handleStarttag lower m.tag m.attrs c = c := by
          unfold handleStarttag
          dsimp only
          rw [if_neg (by omega), if_pos hstrip, if_neg (not_not.mpr hvoid)]
        rw [hstart, tokens, List.foldl_nil, hclose c hc (.inl hstrip)]
        exact ihRest hrest hc hnumbered
      · rw [if_neg hvoid] at hshape
        obtain ⟨name, hname⟩ := Option.isSome_iff_exists.mp hshape
        have hvoid' : lower name ∉ voidTags := by rwa [hclosing name hname]
        -- its start tag opens the depth, and its end tag closes it
        have hstart : handleStarttag lower m.tag m.attrs c = { c with skipDepth := 1 } := by
          unfold handleStarttag
          dsimp only
          rw [if_neg (by omega), if_pos hstrip, if_pos hvoid, hc]
        have hzero : ({ c with skipDepth := 0 } : Cleaner) = c := by rw [← hc]
        have hend : handle lower { c with skipDepth := 1 } (.finish name) = c := by
          show handleEndtag lower name { c with skipDepth := 1 } = c
          unfold handleEndtag
          dsimp only
          rw [if_pos Nat.one_pos, if_pos hvoid']
          exact hzero
        rw [hstart, foldl_stripped hinner Nat.one_pos, hname, Option.toList_some,
          List.map_singleton, List.foldl_cons, List.foldl_nil, hend]
        exact ihRest hrest hc hnumbered
    · by_cases hskip : lower m.tag ∈ skipTags
      · -- the content stands in the place of the element
        have hstart : handleStarttag lower m.tag m.attrs c = c := by
          unfold handleStarttag
          dsimp only
          rw [if_neg (by omega), if_neg hstrip, if_pos hskip]
        rw [keptForest, if_neg hstrip, if_pos hskip, hstart, ihInner hinner hc hnumbered,
          hclose (c.after lower _) hc (.inr (.inl hskip)),
          ihRest hrest (c := c.after lower _) hc (hnumbered.after _), after_append hnumbered]
      · -- the element is kept, under its next number
        rw [keptForest, if_neg hstrip, if_neg hskip]
        have hnode : ∀ f g : Forest KeptTag String, (Forest.node ⟨lower m.tag, m.attrs⟩ f .nil).append
            g = .node ⟨lower m.tag, m.attrs⟩ f g := fun _ _ => rfl
        by_cases hvoid : lower m.tag ∈ voidTags
        · -- a void one has no content and no closing
          obtain rfl : inner = .nil := by rwa [if_pos hvoid] at hshape
          rw [tokens, List.foldl_nil, void_eq_after m.attrs hstrip hskip hvoid hc hnumbered,
            hclose (c.after lower _) hc (.inr (.inr hvoid)),
            ihRest hrest (c := c.after lower _) hc (hnumbered.after _), after_append hnumbered, hnode]
          rfl
        · -- the content comes between what its two tags write
          rw [if_neg hvoid] at hshape
          obtain ⟨name, hname⟩ := Option.isSome_iff_exists.mp hshape
          have hdepth : (handleStarttag lower m.tag m.attrs c).skipDepth = 0 := by
            rw [handleStarttag_eq_after m.attrs hstrip hskip hc hnumbered]
            exact hc
          rw [ihInner hinner hdepth (hnumbered.handleStarttag m.attrs hstrip hskip hc), hname,
            Option.toList_some, List.map_singleton, List.foldl_cons, List.foldl_nil]
          show (tokens rest).foldl (handle lower) (handleEndtag lower name _) = _
          rw [element_eq_after m.attrs hstrip hskip hvoid (hclosing name hname) hc hnumbered,
            ihRest hrest (c := c.after lower _) hc (hnumbered.after _), after_append hnumbered,
            hnode]

/-! ## The map -/

/-- An attribute has the value that was set. -/
theorem lookup_setAttr (key value : String) (d : List (String × String)) :
    (setAttr key value d).lookup key = some value := by
  induction d with
  | nil => simp [setAttr]
  | cons attr d ih =>
    obtain ⟨name, v⟩ := attr
    rw [setAttr]
    by_cases hname : name = key
    · simp [hname]
    · rw [if_neg hname, List.lookup_cons, beq_eq_false_iff_ne.mpr (Ne.symm hname)]
      exact ih

/-- The numbers written in both parts. -/
theorem openingPids_append (a b : List Piece) :
    openingPids (a ++ b) = openingPids a ++ openingPids b := by
  unfold openingPids
  rw [List.filterMap_append]

/-- The opening tags carry the pids in the order in which they are given. -/
theorem openingPids_pieces (f : Forest KeptTag String) : ∀ n,
    openingPids (pieces lower n f) = (List.range' (n + 1) f.size).map fun k => some (pid k) := by
  induction f with
  | nil =>
    intro n
    rfl
  | leaf text rest ih =>
    intro n
    have hwritten : openingPids (written text) = [] := by
      unfold written
      split <;> rfl
    rw [pieces, openingPids_append, hwritten, List.nil_append, ih]
    rfl
  | node k inner rest ihInner ihRest =>
    intro n
    have hclosing : openingPids (if k.tag ∈ voidTags then [] else [.closing k.tag]) = [] := by
      split <;> rfl
    have hsize : 1 + inner.size + rest.size = 1 + (inner.size + rest.size) := by omega
    have hstart : n + 1 + inner.size + 1 = n + 1 + 1 + inner.size := by omega
    rw [pieces, ← List.singleton_append, openingPids_append, openingPids_append,
      openingPids_append, hclosing, List.nil_append, ihInner, ihRest, Forest.size, hsize,
      ← List.range'_append_1, ← List.range'_append_1, List.map_append, List.map_append, hstart]
    have hopening : openingPids [.opening k.tag
        (setAttr "data-pid" (pid (n + 1)) (attrDict lower k.attrs))] = [some (pid (n + 1))] :=
      congrArg (fun o => [o]) (lookup_setAttr "data-pid" (pid (n + 1)) _)
    rw [hopening]
    rfl

/-- Nothing is numbered yet. -/
theorem numbered_init : Numbered {} :=
  ⟨fun _ h => absurd h List.not_mem_nil, fun _ h => absurd h List.not_mem_nil⟩

/-- The element map of a well-nested page is that of its kept forest; its pids are
`p1`, `p2` and so on, and the opening tags carry them in this order. -/
theorem feed_tokens (lower : String → String) (f : Forest Markup String) (hf : Proper lower f) :
    (feed lower (tokens f)).elementMap = mapOf lower (keptForest lower f) ∧
      (feed lower (tokens f)).elementMap.map Prod.fst =
        (List.range' 1 (keptForest lower f).size).map pid ∧
      openingPids (feed lower (tokens f)).output =
        (feed lower (tokens f)).elementMap.map fun e => some e.1 := by
  have hafter : feed lower (tokens f) = ({} : Cleaner).after lower (keptForest lower f) :=
    foldl_tokens hf rfl numbered_init
  have hkeys : (mapOf lower (keptForest lower f)).map Prod.fst =
      (List.range' 1 (keptForest lower f).size).map pid := by
    have hnumbers := Forest.nodes_numbers (keptForest lower f) 0
    rw [Nat.zero_add] at hnumbers
    unfold mapOf
    rw [← hnumbers, List.map_map, List.map_map]
    rfl
  have hmap : (feed lower (tokens f)).elementMap = mapOf lower (keptForest lower f) := by
    rw [hafter]
    rfl
  have hpieces : (feed lower (tokens f)).output = pieces lower 0 (keptForest lower f) := by
    rw [hafter]
    rfl
  refine ⟨hmap, by rw [hmap, hkeys], ?_⟩
  have hsome : (mapOf lower (keptForest lower f)).map (fun e => some e.1) =
      ((mapOf lower (keptForest lower f)).map Prod.fst).map some := by
    rw [List.map_map]
    rfl
  rw [hmap, hpieces, openingPids_pieces, hsome, hkeys, List.map_map]
  rfl

/-- A page with an image, a line break, columns and a script. -/
def samplePage : Forest Markup String :=
  .node ⟨"div", [("ID", some "x"), ("onclick", some "f()"), ("id", some "y")], some "div"⟩
    (.leaf " Total " (.node ⟨"br", [], some "br"⟩ .nil (.leaf "due" (.node ⟨"img", [], none⟩ .nil
      (.node ⟨"script", [], some "script"⟩ (.leaf "code" .nil)
        (.node ⟨"colgroup", [], some "colgroup"⟩ (.node ⟨"b", [], some "b"⟩ .nil .nil)
          .nil))))))
    .nil

theorem samplePage_feed :
    (feed id (tokens samplePage)).elementMap = mapOf id (keptForest id samplePage) ∧
      (feed id (tokens samplePage)).elementMap.map Prod.fst = ["p1", "p2", "p3"] ∧
      openingPids (feed id (tokens samplePage)).output =
        (feed id (tokens samplePage)).elementMap.map fun e => some e.1 := by
  have hproper : Proper id samplePage := by simp [Proper, samplePage, voidTags]
  exact feed_tokens id samplePage hproper

end Plaidify.Dom
