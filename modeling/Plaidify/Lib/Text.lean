import Mathlib.Data.List.Basic
import Mathlib.Data.List.DropRight

/-!
# Text operations

The operations on Python's `str` that the models use: `strip`, `rstrip(c)`,
`split(sep, 1)[1]` and `lower` on ASCII text, and the words of a text.
-/

namespace Text

/-- `str.isspace` on one character. -/
def isSpace (c : Char) : Bool :=
  let n := c.toNat
  (9 ≤ n && n ≤ 13) || (28 ≤ n && n ≤ 32) || n == 0x85 || n == 0xa0 || n == 0x1680 ||
    (0x2000 ≤ n && n ≤ 0x200a) || n == 0x2028 || n == 0x2029 || n == 0x202f || n == 0x205f ||
    n == 0x3000

/-- `str.strip()`. -/
def strip (s : String) : String :=
  String.ofList (((s.toList.dropWhile isSpace).reverse.dropWhile isSpace).reverse)

/-- `str.rstrip(c)`. -/
def rstrip (c : Char) (s : String) : String :=
  String.ofList (s.toList.rdropWhile (· == c))

/-- `s.split(sep, 1)[1]` when `sep` occurs in `s`, and `s` when it does not. -/
def afterFirst (sep : Char) (s : String) : String :=
  if sep ∈ s.toList then String.ofList ((s.toList.dropWhile (· ≠ sep)).drop 1) else s

/-- `str.lower`, of the letters of ASCII. -/
def asciiLower (s : String) : String :=
  String.ofList (s.toList.map Char.toLower)

/-! ## Stripping -/

section

variable {α : Type*} {p : α → Bool}

/-- Dropping from the right stops at an element that stays. -/
theorem rdropWhile_append_cons {a b : List α} {c : α} (hc : p c = false) :
    (a ++ c :: b).rdropWhile p = a ++ c :: b.rdropWhile p := by
  unfold List.rdropWhile
  rw [List.reverse_append, List.reverse_cons, List.append_assoc, List.dropWhile_append]
  split
  · rename_i hempty
    rw [List.isEmpty_iff] at hempty
    simp [hempty, hc]
  · simp

/-- An element that is dropped goes with all that is behind it, or stays. -/
theorem rdropWhile_cons_of_pos {l : List α} {c : α} (hc : p c = true) :
    (c :: l).rdropWhile p = if l.rdropWhile p = [] then [] else c :: l.rdropWhile p := by
  unfold List.rdropWhile
  rw [List.reverse_cons, List.dropWhile_append]
  by_cases hempty : l.reverse.dropWhile p = []
  · simp [hempty, hc]
  · simp [hempty]

/-- What is dropped behind something goes first. -/
theorem rdropWhile_append_of_pos {a b : List α} (h : ∀ c ∈ b, p c = true) :
    (a ++ b).rdropWhile p = a.rdropWhile p := by
  have hreverse : ∀ c ∈ b.reverse, p c = true := by simpa using h
  unfold List.rdropWhile
  rw [List.reverse_append, List.dropWhile_append_of_pos hreverse]

/-- Both ends are dropped in either order. -/
theorem dropWhile_rdropWhile (l : List α) :
    (l.rdropWhile p).dropWhile p = (l.dropWhile p).rdropWhile p := by
  induction l using List.reverseRecOn with
  | nil => simp
  | append_singleton l x ih =>
      by_cases hx : p x = true
      · rw [List.rdropWhile_concat_pos p l x hx, ih, List.dropWhile_append]
        split
        · rename_i hempty
          rw [List.isEmpty_iff] at hempty
          simp [hempty, hx]
        · rw [List.rdropWhile_concat_pos p _ x hx]
      · rw [List.rdropWhile_concat_neg p l x hx, List.dropWhile_append]
        split
        · simp [hx, List.rdropWhile_singleton]
        · rw [List.rdropWhile_concat_neg p _ x hx]

/-- Nothing is dropped of a list that begins with what stays. -/
theorem dropWhile_append_of_self {a b : List α} (ha : a ≠ []) (h : a.dropWhile p = a) :
    (a ++ b).dropWhile p = a ++ b := by
  rw [List.dropWhile_append, h, if_neg (by simpa using ha)]

/-- Nor of one that ends with it. -/
theorem rdropWhile_append_of_self {a b : List α} (hb : b ≠ []) (h : b.rdropWhile p = b) :
    (a ++ b).rdropWhile p = a ++ b := by
  unfold List.rdropWhile at *
  have hreverse : b.reverse.dropWhile p = b.reverse := by
    have hcongr := congrArg List.reverse h
    rwa [List.reverse_reverse] at hcongr
  rw [List.reverse_append, dropWhile_append_of_self (by simpa using hb) hreverse,
    ← List.reverse_append, List.reverse_reverse]

end

theorem toList_strip (s : String) :
    (strip s).toList = (s.toList.dropWhile isSpace).rdropWhile isSpace := by
  rw [strip, String.toList_ofList]
  rfl

theorem toList_rstrip (c : Char) (s : String) :
    (rstrip c s).toList = s.toList.rdropWhile (· == c) := by
  rw [rstrip, String.toList_ofList]

@[simp] theorem rstrip_rstrip (c : Char) (s : String) : rstrip c (rstrip c s) = rstrip c s := by
  apply String.toList_inj.mp
  rw [toList_rstrip, toList_rstrip, List.rdropWhile_idempotent]

@[simp] theorem strip_strip (s : String) : strip (strip s) = strip s := by
  apply String.toList_inj.mp
  rw [toList_strip, toList_strip, dropWhile_rdropWhile, List.dropWhile_idempotent,
    List.rdropWhile_idempotent]

/-- Neither end is a space. -/
structure Trimmed (s : String) : Prop where
  left : s.toList.dropWhile isSpace = s.toList
  right : s.toList.rdropWhile isSpace = s.toList

/-- Stripping leaves no white space at either end. -/
theorem trimmed_strip (s : String) : Trimmed (strip s) := by
  refine ⟨?_, ?_⟩
  · rw [toList_strip, dropWhile_rdropWhile, List.dropWhile_idempotent]
  · rw [toList_strip, List.rdropWhile_idempotent]

/-- What is stripped is the white space at the two ends, and all of it. -/
theorem strip_eq_iff (s t : String) :
    strip s = t ↔
      (∃ before after, s.toList = before ++ t.toList ++ after ∧
        (∀ c ∈ before, isSpace c = true) ∧ ∀ c ∈ after, isSpace c = true) ∧ Trimmed t := by
  constructor
  · rintro rfl
    refine ⟨⟨s.toList.takeWhile isSpace, (s.toList.dropWhile isSpace).rtakeWhile isSpace,
      ?_, ?_, ?_⟩, trimmed_strip s⟩
    · rw [toList_strip, List.append_assoc, List.rdropWhile_append_rtakeWhile,
        List.takeWhile_append_dropWhile]
    · intro c hc
      exact List.mem_takeWhile_imp hc
    · intro c hc
      exact List.mem_rtakeWhile_imp hc
  · rintro ⟨⟨before, after, hs, hbefore, hafter⟩, htrimmed⟩
    apply String.toList_inj.mp
    rw [toList_strip, ← dropWhile_rdropWhile, hs, rdropWhile_append_of_pos hafter,
      dropWhile_rdropWhile, List.dropWhile_append_of_pos hbefore, htrimmed.left, htrimmed.right]

theorem afterFirst_of_not_mem {sep : Char} {s : String} (h : sep ∉ s.toList) :
    afterFirst sep s = s := by
  rw [afterFirst, if_neg h]

/-- What is behind the first separator. -/
theorem afterFirst_split {sep : Char} {s : String} {before after : List Char}
    (hs : s.toList = before ++ sep :: after) (hbefore : sep ∉ before) :
    (afterFirst sep s).toList = after := by
  have hmem : sep ∈ s.toList := by simp [hs]
  have hall : ∀ c ∈ before, decide (c ≠ sep) = true := by
    intro c hc
    rw [decide_eq_true_eq]
    rintro rfl
    exact hbefore hc
  rw [afterFirst, if_pos hmem, String.toList_ofList, hs, List.dropWhile_append_of_pos hall]
  simp

/-- What stands before a separator is stripped for nothing. -/
theorem strip_afterFirst_strip {sep : Char} (hsep : isSpace sep = false) (s : String) :
    strip (afterFirst sep (strip s)) = strip (afterFirst sep s) := by
  by_cases hmem : sep ∈ s.toList
  · obtain ⟨before, after, hs, hbefore⟩ := List.eq_append_cons_of_mem hmem
    -- the separator stays, and what is around it is stripped at the outer ends
    have hstrip : (strip s).toList =
        before.dropWhile isSpace ++ sep :: after.rdropWhile isSpace := by
      rw [toList_strip, hs, List.dropWhile_append]
      split
      · rename_i hempty
        rw [List.isEmpty_iff] at hempty
        have hcons := rdropWhile_append_cons (p := isSpace) (a := []) (b := after) hsep
        simpa [hempty, hsep] using hcons
      · exact rdropWhile_append_cons hsep
    have hbefore' : sep ∉ before.dropWhile isSpace := fun h =>
      hbefore ((List.dropWhile_sublist _).subset h)
    apply String.toList_inj.mp
    rw [toList_strip, toList_strip, afterFirst_split hstrip hbefore', afterFirst_split hs hbefore,
      dropWhile_rdropWhile, List.rdropWhile_idempotent]
  · have hstrip : sep ∉ (strip s).toList := by
      rw [toList_strip]
      intro h
      have hdropped := (List.rdropWhile_prefix isSpace _).subset h
      exact hmem ((List.dropWhile_sublist _).subset hdropped)
    rw [afterFirst_of_not_mem hmem, afterFirst_of_not_mem hstrip, strip_strip]

/-! ## Lowering -/

theorem toList_asciiLower (s : String) : (asciiLower s).toList = s.toList.map Char.toLower := by
  rw [asciiLower, String.toList_ofList]

/-- A capital letter, and the letter it is lowered to. -/
theorem toLower_cases (c : Char) :
    (65 ≤ c.toNat ∧ c.toNat ≤ 90 ∧ c.toLower.toNat = c.toNat + 32) ∨
      (¬(65 ≤ c.toNat ∧ c.toNat ≤ 90) ∧ c.toLower = c) := by
  by_cases hupper : c.val ≥ 'A'.val ∧ c.val ≤ 'Z'.val
  · have hlow : 65 ≤ c.toNat := hupper.1
    have hhigh : c.toNat ≤ 90 := hupper.2
    refine .inl ⟨hlow, hhigh, ?_⟩
    have hsum : (c.val + ('a'.val - 'A'.val)).toNat = (c.toNat + 32) % 2 ^ 32 := UInt32.toNat_add _ _
    have hlower : c.toLower.toNat = (c.val + ('a'.val - 'A'.val)).toNat := by
      unfold Char.toLower
      rw [dif_pos hupper]
      rfl
    omega
  · exact .inr ⟨hupper, dif_neg hupper⟩

/-- White space has no case. -/
theorem isSpace_toLower (c : Char) : isSpace c.toLower = isSpace c := by
  rcases toLower_cases c with ⟨hlow, hhigh, hlower⟩ | ⟨-, hsame⟩
  · have hletter : ∀ d : Char, 65 ≤ d.toNat → d.toNat ≤ 122 → isSpace d = false := by
      intro d hdlow hdhigh
      simp [isSpace]
      omega
    rw [hletter c hlow (by omega), hletter c.toLower (by omega) (by omega)]
  · rw [hsame]

theorem toLower_toLower (c : Char) : c.toLower.toLower = c.toLower := by
  rcases toLower_cases c.toLower with ⟨hlow, hhigh, -⟩ | ⟨-, hsame⟩
  · rcases toLower_cases c with ⟨hclow, -, hlower⟩ | ⟨hnot, hsame⟩
    · omega
    · rw [hsame] at hlow hhigh
      exact absurd ⟨hlow, hhigh⟩ hnot
  · exact hsame

@[simp] theorem asciiLower_asciiLower (s : String) : asciiLower (asciiLower s) = asciiLower s := by
  apply String.toList_inj.mp
  simp only [toList_asciiLower, List.map_map]
  exact List.map_congr_left fun c _ => toLower_toLower c

/-- Lowering moves no white space. -/
theorem strip_asciiLower (s : String) : strip (asciiLower s) = asciiLower (strip s) := by
  have hspace : isSpace ∘ Char.toLower = isSpace := funext isSpace_toLower
  apply String.toList_inj.mp
  rw [toList_strip, toList_asciiLower, toList_asciiLower, toList_strip]
  unfold List.rdropWhile
  rw [List.dropWhile_map, hspace, ← List.map_reverse, List.dropWhile_map, hspace, List.map_reverse]

/-! ## Words -/

/-- The nonempty pieces between separators. -/
def words (separates : Char → Bool) (text : List Char) : List (List Char) :=
  (text.splitOnP separates).filter (· ≠ [])

section

variable {separates : Char → Bool}

/-- A separator ends a word. -/
theorem words_append_cons (a b : List Char) {c : Char} (hc : separates c = true) :
    words separates (a ++ c :: b) = words separates a ++ words separates b := by
  unfold words
  rw [List.splitOnP_append_cons a b hc, List.filter_append]

theorem words_nil : words separates [] = [] := rfl

/-- A separator in front is no part of a word. -/
theorem words_cons_separator {c : Char} (hc : separates c = true) (text : List Char) :
    words separates (c :: text) = words separates text :=
  words_append_cons [] text hc

/-- A text without separators is one word. -/
theorem words_eq_singleton {text : List Char} (hne : text ≠ [])
    (h : ∀ c ∈ text, separates c = false) : words separates text = [text] := by
  unfold words
  rw [List.splitOnP_eq_singleton h]
  simp [hne]

/-- Cutting at more separators cuts the pieces. -/
theorem splitOnP_or (p q : Char → Bool) (text : List Char) :
    text.splitOnP (fun c => p c || q c) = (text.splitOnP p).flatMap (·.splitOnP q) := by
  induction text with
  | nil => rfl
  | cons c text ih =>
      rw [List.splitOnP_cons_eq_if_modifyHead, List.splitOnP_cons_eq_if_modifyHead, ih]
      cases hp : p c with
      | true => rfl
      | false =>
          rcases List.exists_cons_of_ne_nil (List.splitOnP_ne_nil p text) with ⟨piece, rest, heq⟩
          rw [heq]
          cases hq : q c with
          | true =>
              simp [List.splitOnP_cons_eq_if_modifyHead, hq]
          | false =>
              -- the character goes to the first piece of the first piece
              rcases List.exists_cons_of_ne_nil (List.splitOnP_ne_nil q piece) with
                ⟨first, more, hfirst⟩
              simp [List.splitOnP_cons_eq_if_modifyHead, hq, hfirst]

/-- The words between separators of two kinds. -/
theorem words_or (p q : Char → Bool) (text : List Char) :
    words (fun c => p c || q c) text = (text.splitOnP p).flatMap (words q) := by
  unfold words
  rw [splitOnP_or, List.filter_flatMap]

/-- The words are what the text consists of, its separators aside. -/
theorem flatten_words (text : List Char) :
    (words separates text).flatten = text.filter fun c => !separates c := by
  induction hn : text.length using Nat.strongRecOn generalizing text with
  | ind n ih =>
      by_cases hnone : ∀ c ∈ text, separates c = false
      · have hall : text.filter (fun c => !separates c) = text := by
          rw [List.filter_eq_self]
          intro c hc
          rw [hnone c hc]
          rfl
        rw [hall]
        by_cases hempty : text = []
        · rw [hempty]
          rfl
        · rw [words_eq_singleton hempty hnone, List.flatten_singleton]
      · have hsome : ∃ c ∈ text, separates c = true := by
          by_contra hno
          apply hnone
          intro c hc
          by_contra htrue
          exact hno ⟨c, hc, by simpa using htrue⟩
        rcases hsome with ⟨c, hmem, hc⟩
        rcases List.append_of_mem hmem with ⟨before, after, rfl⟩
        rw [List.length_append, List.length_cons] at hn
        rw [words_append_cons before after hc, List.flatten_append,
          ih before.length (by omega) before rfl, ih after.length (by omega) after rfl,
          List.filter_append, List.filter_cons_of_neg (by simp [hc])]

/-- A word is not empty. -/
theorem ne_nil_of_mem_words {text word : List Char} (h : word ∈ words separates text) :
    word ≠ [] := by
  unfold words at h
  simpa using (List.mem_filter.mp h).2

/-- Nor has it a separator in it. -/
theorem not_separates_of_mem_words {text word : List Char} {c : Char}
    (h : word ∈ words separates text) (hc : c ∈ word) : separates c = false := by
  have hflat : c ∈ (words separates text).flatten := List.mem_flatten_of_mem h hc
  rw [flatten_words] at hflat
  simpa using (List.mem_filter.mp hflat).2

/-- A text that does not begin with a separator begins with its first word. -/
theorem words_cons {c : Char} {text : List Char} (hc : separates c = false) :
    words separates (c :: text) =
      (c :: text.takeWhile fun d => !separates d) ::
        words separates (text.dropWhile fun d => !separates d) := by
  have hfirst : ∀ d ∈ c :: text.takeWhile fun d => !separates d, separates d = false := by
    intro d hd
    rcases List.mem_cons.mp hd with rfl | hd
    · exact hc
    · have hall := List.all_takeWhile (p := fun d => !separates d) (l := text)
      simpa using List.all_eq_true.mp hall d hd
  have hsplit : text = (text.takeWhile fun d => !separates d) ++
      text.dropWhile fun d => !separates d := (List.takeWhile_append_dropWhile).symm
  cases hrest : text.dropWhile fun d => !separates d with
  | nil =>
      rw [hrest, List.append_nil] at hsplit
      rw [← hsplit] at hfirst ⊢
      rw [words_eq_singleton (List.cons_ne_nil c text) hfirst, words_nil]
  | cons d rest =>
      have hd : separates d = true := by
        have hhead := List.head?_dropWhile_not (fun d => !separates d) text
        rw [hrest] at hhead
        simpa using hhead
      rw [hrest] at hsplit
      calc words separates (c :: text)
        _ = words separates ((c :: text.takeWhile fun d => !separates d) ++ d :: rest) := by
            rw [List.cons_append, ← hsplit]
        _ = _ := by
            rw [words_append_cons _ rest hd, words_eq_singleton (List.cons_ne_nil _ _) hfirst,
              words_cons_separator hd]
            rfl

/-- The words of texts with a separator before each. -/
theorem words_append_flatMap {α : Type*} {c : Char} (hc : separates c = true)
    (start : List Char) (texts : List α) (toChars : α → List Char) :
    words separates (start ++ texts.flatMap fun text => c :: toChars text) =
      words separates start ++ texts.flatMap fun text => words separates (toChars text) := by
  induction texts generalizing start with
  | nil => simp
  | cons text texts ih =>
      rw [List.flatMap_cons, List.flatMap_cons, ← List.append_assoc, ih,
        words_append_cons start (toChars text) hc, List.append_assoc]

end

end Text
