import Plaidify.Lib.Text

/-!
# Content-Security-Policy headers

The grammar of the header: policies between commas, directives between
semicolons, and in a directive its name and the words of its value between white
space. Whatever a policy consists of, its words are those of the header's text:
`words_eq_of_parse`.
-/

namespace Csp

open Text (words words_nil words_or)

/-! ## Headers -/

/-- ASCII white space. -/
def whiteSpace (c : Char) : Bool :=
  c == ' ' || c == '\t' || c == '\n' || c == '\r' || c.toNat == 12

/-- The characters of the grammar. -/
def legal (c : Char) : Bool :=
  (0x21 ≤ c.toNat && c.toNat ≤ 0x7e) || whiteSpace c

/-- What ends a word. -/
def delimiter (c : Char) : Bool :=
  c == ',' || (c == ';' || whiteSpace c)

structure Directive where
  name : List Char
  value : List (List Char)
deriving Repr, DecidableEq

/-- A directive; `none` for an empty piece. -/
def directive? (piece : List Char) : Option Directive :=
  match words whiteSpace piece with
  | [] => none
  | name :: value => some ⟨name, value⟩

def policy (piece : List Char) : List Directive :=
  (piece.splitOnP (· == ';')).filterMap directive?

/-- The policies of a header. -/
def parse (header : List Char) : Option (List (List Directive)) :=
  if header.all legal then
    some (((header.splitOnP (· == ',')).map policy).filter (· ≠ []))
  else none

theorem policy_append_cons (a b : List Char) : policy (a ++ ';' :: b) = policy a ++ policy b := by
  unfold policy
  rw [List.splitOnP_append_cons a b (by decide), List.filterMap_append]

theorem policy_eq_singleton {piece : List Char} (h : ∀ c ∈ piece, c ≠ ';') :
    policy piece = (directive? piece).toList := by
  unfold policy
  rw [List.splitOnP_eq_singleton fun c hc => by simpa using h c hc]
  cases hdirective : directive? piece with
  | none => simp [hdirective]
  | some d => simp [hdirective]

/-- A header without a comma is one policy. -/
theorem parse_eq_singleton {header : List Char} (hlegal : ∀ c ∈ header, legal c = true)
    (h : ∀ c ∈ header, c ≠ ',') (hne : policy header ≠ []) :
    parse header = some [policy header] := by
  unfold parse
  rw [if_pos (List.all_eq_true.mpr hlegal),
    List.splitOnP_eq_singleton fun c hc => by simpa using h c hc]
  simp [hne]

def Directive.words (d : Directive) : List (List Char) := d.name :: d.value

theorem flatMap_words_policy (piece : List Char) :
    (policy piece).flatMap Directive.words =
      words (fun c => c == ';' || whiteSpace c) piece := by
  have hdirective : ∀ piece : List Char,
      ((directive? piece).toList).flatMap Directive.words = words whiteSpace piece := by
    intro piece
    unfold directive?
    cases words whiteSpace piece with
    | nil => rfl
    | cons name value => simp [Directive.words]
  rw [words_or]
  unfold policy
  generalize piece.splitOnP (· == ';') = pieces
  induction pieces with
  | nil => rfl
  | cons piece pieces ih =>
      rw [List.flatMap_cons, ← ih, ← hdirective piece]
      cases hpiece : directive? piece with
      | none => simp [hpiece]
      | some d => simp [hpiece]

/-- The words of the policies are those of the text. -/
theorem words_eq_of_parse {header : List Char} {policies : List (List Directive)}
    (h : parse header = some policies) :
    words delimiter header = policies.flatMap fun policy => policy.flatMap Directive.words := by
  unfold parse at h
  split at h
  · obtain rfl := Option.some.inj h
    show words (fun c => c == ',' || (c == ';' || whiteSpace c)) header = _
    rw [words_or]
    generalize header.splitOnP (· == ',') = pieces
    induction pieces with
    | nil => rfl
    | cons piece pieces ih =>
        rw [List.flatMap_cons, ih, ← flatMap_words_policy, List.map_cons]
        by_cases hempty : policy piece = []
        · simp [hempty]
        · simp [hempty]
  · cases h

end Csp
