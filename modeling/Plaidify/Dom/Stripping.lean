import Plaidify.Dom.Cleaner
import Plaidify.Lib.DepthCounter

/-!
# Stripped elements

An element ends with the nearest end tag of its name, and an end tag without an open
element of its name ends nothing. The cleaner counts tags instead.
`strippedExactly_iff` says for which pages it strips what it is to strip: those on
which, at every text, the count and the open elements agree.
-/

namespace Plaidify.Dom

open DepthCounter

section

variable (lower : String → String)

/-! ## Open elements -/

/-- What is open after one more token. -/
def openStep (opened : List String) : Token → List String
  | .start tag _ => if lower tag ∈ voidTags then opened else lower tag :: opened
  | .finish tag => closeNearest (lower tag) opened
  | .data _ => opened

/-- The elements that are open after these tokens. -/
def openElements (tokens : List Token) : List String :=
  tokens.foldl (openStep lower) []

/-- The place after these tokens lies in a stripped element. -/
def Inside (tokens : List Token) : Prop :=
  ∃ tag ∈ openElements lower tokens, tag ∈ stripTags

instance (tokens : List Token) : Decidable (Inside lower tokens) :=
  inferInstanceAs (Decidable (∃ tag ∈ openElements lower tokens, tag ∈ stripTags))

/-! ## What is to be written -/

/-- What a text has to write. -/
def written (text : String) : List Piece :=
  if collapseWhitespace text = "" then [] else [.text (collapseWhitespace text)]

/-- Each text that lies outside stripped elements is written, and no other. -/
def StrippedExactly (tokens : List Token) : Prop :=
  ∀ before text after, tokens = before ++ .data text :: after →
    (feed lower (before ++ [.data text])).output =
      (feed lower before).output ++ if Inside lower before then [] else written text

/-! ## What is counted -/

/-- A tag that starts the count. -/
def strips : Token → Bool
  | .start tag _ => lower tag ∈ stripTags ∧ lower tag ∉ voidTags
  | _ => false

/-- A tag that is counted up. -/
def opens : Token → Bool
  | .start tag _ => lower tag ∉ voidTags
  | _ => false

/-- A tag that is counted down. -/
def closes : Token → Bool
  | .finish tag => lower tag ∉ voidTags
  | _ => false

/-- Since the start tag of some stripped element there have at no point been more end
tags than start tags. -/
def Counted (tokens : List Token) : Prop :=
  ∃ before tag attrs after, tokens = before ++ .start tag attrs :: after ∧
    lower tag ∈ stripTags ∧ lower tag ∉ voidTags ∧ Covered (opens lower) (closes lower) after

/-- At every text the count and the open elements agree. -/
def CountsAgree (tokens : List Token) : Prop :=
  ∀ before text after, tokens = before ++ .data text :: after → collapseWhitespace text ≠ "" →
    (Counted lower before ↔ Inside lower before)

end

variable {lower : String → String}

theorem disjoint (token : Token) (h : opens lower token = true) : closes lower token = false := by
  cases token with
  | start tag attrs => rfl
  | finish tag => cases h
  | data text => rfl

theorem opens_of_strips (token : Token) (h : strips lower token = true) :
    opens lower token = true := by
  cases token with
  | start tag attrs =>
    have hboth := of_decide_eq_true h
    exact decide_eq_true hboth.2
  | finish tag => cases h
  | data text => cases h

theorem skipDepth_handleStarttag (tag : String) (attrs : List (String × Option String))
    (c : Cleaner) : (handleStarttag lower tag attrs c).skipDepth =
      step (strips lower) (opens lower) (closes lower) c.skipDepth (.start tag attrs) := by
  unfold handleStarttag step strips opens
  dsimp only
  by_cases hdepth : c.skipDepth = 0
  · rw [if_neg (by omega), if_pos hdepth]
    by_cases hstrip : lower tag ∈ stripTags
    · by_cases hvoid : lower tag ∈ voidTags
      · simp [hstrip, hvoid, hdepth]
      · simp [hstrip, hvoid, hdepth]
    · by_cases hskip : lower tag ∈ skipTags
      · simp [hstrip, hskip, hdepth]
      · simp [hstrip, hskip, hdepth]
  · rw [if_pos (by omega), if_neg hdepth]
    by_cases hvoid : lower tag ∈ voidTags
    · simp [hvoid, closes]
    · simp [hvoid]

theorem skipDepth_handleEndtag (tag : String) (c : Cleaner) :
    (handleEndtag lower tag c).skipDepth =
      step (strips lower) (opens lower) (closes lower) c.skipDepth (.finish tag) := by
  unfold handleEndtag step strips opens closes
  dsimp only
  by_cases hdepth : c.skipDepth = 0
  · rw [if_neg (by omega), if_pos hdepth]
    split <;> simp [hdepth]
  · rw [if_pos (by omega), if_neg hdepth]
    by_cases hvoid : lower tag ∈ voidTags
    · simp [hvoid]
    · simp [hvoid]

theorem skipDepth_handleData (text : String) (c : Cleaner) :
    (handleData text c).skipDepth = c.skipDepth := by
  unfold handleData
  split
  · rfl
  · dsimp only
    split <;> rfl

/-- The depth is a counter of tags. -/
theorem skipDepth_feed (tokens : List Token) :
    (feed lower tokens).skipDepth = depth (strips lower) (opens lower) (closes lower) tokens := by
  induction tokens using List.reverseRecOn with
  | nil => rfl
  | append_singleton tokens token ih =>
    rw [feed_concat, depth_concat, ← ih]
    cases token with
    | start tag attrs => exact skipDepth_handleStarttag tag attrs _
    | finish tag => exact skipDepth_handleEndtag tag _
    | data text =>
      refine (skipDepth_handleData text _).trans ?_
      unfold step
      split
      · next hzero => exact hzero
      · rfl

theorem counted_iff (tokens : List Token) :
    0 < (feed lower tokens).skipDepth ↔ Counted lower tokens := by
  rw [skipDepth_feed, depth_pos_iff disjoint opens_of_strips]
  constructor
  · rintro ⟨before, token, after, rfl, hstrips, hcovered⟩
    cases token with
    | start tag attrs =>
      have hboth := of_decide_eq_true hstrips
      exact ⟨before, tag, attrs, after, rfl, hboth.1, hboth.2, hcovered⟩
    | finish tag => cases hstrips
    | data text => cases hstrips
  · rintro ⟨before, tag, attrs, after, rfl, hstrip, hvoid, hcovered⟩
    exact ⟨before, .start tag attrs, after, rfl, decide_eq_true ⟨hstrip, hvoid⟩, hcovered⟩

/-- A text is written where the depth is zero. -/
theorem output_handleData (text : String) (c : Cleaner) :
    (handleData text c).output = c.output ++ if 0 < c.skipDepth then [] else written text := by
  unfold handleData written
  split
  · rw [List.append_nil]
  · dsimp only
    split
    · rw [List.append_nil]
    · rfl

/-- What is written stays. -/
theorem output_feed (before after : List Token) :
    (feed lower before).output <+: (feed lower (before ++ after)).output := by
  induction after using List.reverseRecOn with
  | nil => rw [List.append_nil]
  | append_singleton after token ih =>
    rw [← List.append_assoc, feed_concat]
    refine ih.trans ?_
    generalize feed lower (before ++ after) = c
    cases token with
    | start tag attrs =>
      show c.output <+: (handleStarttag lower tag attrs c).output
      unfold handleStarttag
      dsimp only
      split
      · split <;> exact List.prefix_rfl
      · split
        · split <;> exact List.prefix_rfl
        · split
          · exact List.prefix_rfl
          · exact List.prefix_append _ _
    | finish tag =>
      show c.output <+: (handleEndtag lower tag c).output
      unfold handleEndtag
      dsimp only
      split
      · split <;> exact List.prefix_rfl
      · split
        · exact List.prefix_rfl
        · exact List.prefix_append _ _
    | data text =>
      show c.output <+: (handleData text c).output
      rw [output_handleData]
      exact List.prefix_append _ _

/-- The cleaner strips exactly what it is to strip from just those pages on which, at
every text, counting tags comes to the same as matching their names. -/
theorem strippedExactly_iff (lower : String → String) (tokens : List Token) :
    StrippedExactly lower tokens ↔ CountsAgree lower tokens := by
  have hwritten : ∀ before text,
      (feed lower (before ++ [.data text])).output = (feed lower before).output ++
        if 0 < (feed lower before).skipDepth then [] else written text := by
    intro before text
    rw [feed_concat]
    exact output_handleData text _
  constructor
  · intro h before text after htokens htext
    have hexact := h before text after htokens
    rw [hwritten] at hexact
    have hsame := List.append_cancel_left hexact
    have hsome : written text ≠ [] := by
      unfold written
      rw [if_neg htext]
      exact List.cons_ne_nil _ _
    rw [← counted_iff]
    constructor
    · intro hcounted
      by_contra hinside
      rw [if_pos hcounted, if_neg hinside] at hsame
      exact hsome hsame.symm
    · intro hinside
      by_contra hcounted
      rw [if_neg hcounted, if_pos hinside] at hsame
      exact hsome hsame
  · intro h before text after htokens
    rw [hwritten]
    by_cases htext : collapseWhitespace text = ""
    · have hnothing : written text = [] := if_pos htext
      rw [hnothing, ite_self, ite_self]
    · have hiff := (counted_iff before).trans (h before text after htokens htext)
      by_cases hinside : Inside lower before
      · rw [if_pos (hiff.mpr hinside), if_pos hinside]
      · rw [if_neg (fun hcounted => hinside (hiff.mp hcounted)), if_neg hinside]

/-- A stray end tag in a template: its text is written. -/
def leakingPage : List Token :=
  [.start "template" [], .finish "p", .data "secret", .finish "template"]

/-- An end tag that is left out in an image: the text behind it is lost. -/
def losingPage : List Token :=
  [.start "svg" [], .start "p" [], .finish "svg", .data "total"]

theorem pages_not_strippedExactly :
    ¬ StrippedExactly id leakingPage ∧ ¬ StrippedExactly id losingPage := by
  constructor
  · intro h
    exact absurd (h [.start "template" [], .finish "p"] "secret" [.finish "template"] rfl)
      (by decide)
  · intro h
    exact absurd (h [.start "svg" [], .start "p" [], .finish "svg"] "total" [] rfl) (by decide)

end Plaidify.Dom
