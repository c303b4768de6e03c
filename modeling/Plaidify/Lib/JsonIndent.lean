import Plaidify.Lib.Json

/-!
# Indented JSON

`json.dumps(v, indent=n)`: every element and every member on a line of its own, behind
as many blanks as its depth asks for. Reading skips the blanks, so that the text reads
back as the value that was written (`loads_dumpsIndent`).
-/

namespace Json

/-- The end of a line, and the blanks in front of what is at a level. -/
def newline (indent level : Nat) : List Char :=
  '\n' :: List.replicate (indent * level) ' '

/-- The line of the closing bracket; there is none when nothing stands between the
brackets. -/
def closingLine (indent level : Nat) (isEmpty : Bool) : List Char :=
  if isEmpty then [] else newline indent level

mutual

/-- `json.dumps` with an indent as a list of characters. -/
def indentChars (indent : Nat) : Nat → Json → List Char
  | level, .arr xs =>
      '[' :: (indentElems indent (level + 1) xs ++ (closingLine indent level xs.isEmpty ++ [']']))
  | level, .obj kvs =>
      '{' :: (indentMembers indent (level + 1) kvs ++
        (closingLine indent level kvs.isEmpty ++ ['}']))
  | _, v => dumpsChars v

/-- The elements of an array, each on its line. -/
def indentElems (indent : Nat) : Nat → List Json → List Char
  | _, [] => []
  | level, x :: [] => newline indent level ++ indentChars indent level x
  | level, x :: y :: xs =>
      newline indent level ++
        (indentChars indent level x ++ (',' :: indentElems indent level (y :: xs)))

/-- The members of an object, each on its line. -/
def indentMembers (indent : Nat) : Nat → List (String × Json) → List Char
  | _, [] => []
  | level, (k, v) :: [] =>
      newline indent level ++ (quote k ++ (':' :: ' ' :: indentChars indent level v))
  | level, (k, v) :: m :: kvs =>
      newline indent level ++ (quote k ++ (':' :: ' ' :: (indentChars indent level v ++
        (',' :: indentMembers indent level (m :: kvs)))))

end

/-- `json.dumps(v, indent=indent)`. -/
def dumpsIndent (indent : Nat) (v : Json) : String :=
  String.ofList (indentChars indent 0 v)

/-! ## Blanks -/

theorem skipWs_newline (indent level : Nat) (cs : List Char) :
    skipWs (newline indent level ++ cs) = skipWs cs := by
  have hblank : ∀ c ∈ newline indent level, isBlank c = true := by
    intro c hc
    rcases List.mem_cons.mp hc with rfl | hc
    · rfl
    · rw [List.eq_of_mem_replicate hc]
      rfl
  exact List.dropWhile_append_of_pos hblank

theorem skipWs_closing {c : Char} (hc : isBlank c = false) (indent level : Nat)
    (rest : List Char) : skipWs (newline indent level ++ c :: rest) = c :: rest := by
  rw [skipWs_newline, skipWs_cons hc]

theorem stops_newline (indent level : Nat) (rest : List Char) :
    Stops (newline indent level ++ rest) :=
  Stops.cons (by simp) _

variable {floatRepr : String → String}

theorem indentChars_opens {v : Json} (hv : Writable floatRepr v) (indent level : Nat) :
    Opens (indentChars indent level v) := by
  cases v with
  | arr xs => exact ⟨'[', _, by rw [indentChars], by decide, by decide, by decide⟩
  | obj kvs => exact ⟨'{', _, by rw [indentChars], by decide, by decide, by decide⟩
  | float r => exact dumpsChars_opens hv
  | int n => exact dumpsChars_opens hv
  | str s => exact dumpsChars_opens hv
  | bool b => exact dumpsChars_opens hv
  | null => exact dumpsChars_opens hv

/-- The first line of elements starts with the first element. -/
theorem skipWs_indentElems {x : Json} (xs : List Json) (hx : Writable floatRepr x)
    (indent level : Nat) (rest : List Char) :
    Opens (skipWs (indentElems indent level (x :: xs) ++ rest)) := by
  have hopens := indentChars_opens hx indent level
  cases xs with
  | nil =>
      rw [indentElems, List.append_assoc, skipWs_newline, (hopens.append rest).skipWs]
      exact hopens.append rest
  | cons y xs =>
      rw [indentElems, List.append_assoc, List.append_assoc, skipWs_newline,
        (hopens.append _).skipWs]
      exact hopens.append _

theorem skipWs_indentMembers (m : String × Json) (kvs : List (String × Json))
    (indent level : Nat) (rest : List Char) :
    Opens (skipWs (indentMembers indent level (m :: kvs) ++ rest)) := by
  have hopens := quote_opens m.1
  cases kvs with
  | nil =>
      rw [indentMembers, List.append_assoc, List.append_assoc, skipWs_newline,
        (hopens.append _).skipWs]
      exact hopens.append _
  | cons m' kvs =>
      rw [indentMembers, List.append_assoc, List.append_assoc, skipWs_newline,
        (hopens.append _).skipWs]
      exact hopens.append _

/-! ## The round trip -/

mutual

theorem parseValue_indentChars (floatRepr : String → String) (indent : Nat) :
    ∀ (v : Json) (level fuel : Nat) (rest : List Char), Writable floatRepr v → Stops rest →
      2 * (indentChars indent level v).length ≤ fuel →
      parseValue floatRepr fuel (indentChars indent level v ++ rest) = some (v, rest)
  | v, level, 0, rest, hv, _, hf => by
      obtain ⟨c, t, heq, -⟩ := indentChars_opens hv indent level
      simp [heq] at hf
  -- a leaf is written without a line of its own
  | .null, level, fuel + 1, rest, hv, hr, hf =>
      parseValue_dumpsChars floatRepr .null (fuel + 1) rest hv hr hf
  | .bool b, level, fuel + 1, rest, hv, hr, hf =>
      parseValue_dumpsChars floatRepr (.bool b) (fuel + 1) rest hv hr hf
  | .int n, level, fuel + 1, rest, hv, hr, hf =>
      parseValue_dumpsChars floatRepr (.int n) (fuel + 1) rest hv hr hf
  | .float r, level, fuel + 1, rest, hv, hr, hf =>
      parseValue_dumpsChars floatRepr (.float r) (fuel + 1) rest hv hr hf
  | .str s, level, fuel + 1, rest, hv, hr, hf =>
      parseValue_dumpsChars floatRepr (.str s) (fuel + 1) rest hv hr hf
  | .arr [], level, fuel + 1, rest, _, _, _ => by
      simp [indentChars, indentElems, closingLine, parseValue, skipWs, isBlank]
  | .arr (x :: xs), level, fuel + 1, rest, hv, _, hf => by
      have hxs : WritableElems floatRepr (x :: xs) := by simpa only [Writable] using hv
      have hx : Writable floatRepr x := by
        simp only [WritableElems] at hxs
        exact hxs.1
      have hop := skipWs_indentElems xs hx indent (level + 1) (newline indent level ++ ']' :: rest)
      -- the line of the bracket leaves fuel enough for the elements
      have hlen : 2 * (indentElems indent (level + 1) (x :: xs)).length + 1 ≤ fuel := by
        simp only [indentChars, List.length_cons, List.length_append, List.length_nil] at hf
        omega
      have ih := parseElems_indentElems floatRepr indent x xs (level + 1) level fuel rest hxs hlen
      have htext : indentChars indent level (.arr (x :: xs)) ++ rest =
          '[' :: (indentElems indent (level + 1) (x :: xs) ++
            (newline indent level ++ ']' :: rest)) := by
        simp [indentChars, closingLine]
      rw [htext]
      simp only [parseValue]
      obtain ⟨c, t, heq, -, hne, -⟩ := hop
      rw [heq] at ih ⊢
      -- the first element does not begin with the closing bracket
      split
      case h_1 h => exact absurd (List.cons.inj h).1 hne
      case h_2 => rw [ih]
  | .obj [], level, fuel + 1, rest, _, _, _ => by
      simp [indentChars, indentMembers, closingLine, parseValue, skipWs, isBlank]
  | .obj (m :: kvs), level, fuel + 1, rest, hv, _, hf => by
      simp only [Writable] at hv
      have hdict : dictOf (m :: kvs) = m :: kvs := dictOf_eq_self hv.1
      have hop := skipWs_indentMembers m kvs indent (level + 1)
        (newline indent level ++ '}' :: rest)
      have hlen : 2 * (indentMembers indent (level + 1) (m :: kvs)).length + 1 ≤ fuel := by
        simp only [indentChars, List.length_cons, List.length_append, List.length_nil] at hf
        omega
      have ih :=
        parseMembers_indentMembers floatRepr indent m kvs (level + 1) level fuel rest hv.2 hlen
      have htext : indentChars indent level (.obj (m :: kvs)) ++ rest =
          '{' :: (indentMembers indent (level + 1) (m :: kvs) ++
            (newline indent level ++ '}' :: rest)) := by
        simp [indentChars, closingLine]
      rw [htext]
      simp only [parseValue]
      obtain ⟨c, t, heq, -, -, hne⟩ := hop
      rw [heq] at ih ⊢
      -- the first member does not begin with the closing brace
      split
      case h_1 h => exact absurd (List.cons.inj h).1 hne
      case h_2 =>
        rw [ih]
        simp only [hdict]
termination_by structural _ _ fuel => fuel

/-- `outer` is the level of the closing bracket. -/
theorem parseElems_indentElems (floatRepr : String → String) (indent : Nat) :
    ∀ (x : Json) (xs : List Json) (level outer fuel : Nat) (rest : List Char),
      WritableElems floatRepr (x :: xs) →
      2 * (indentElems indent level (x :: xs)).length + 1 ≤ fuel →
      parseElems floatRepr fuel
          (skipWs (indentElems indent level (x :: xs) ++ (newline indent outer ++ ']' :: rest))) =
        some (x :: xs, rest)
  | _, _, _, _, 0, _, _, hf => absurd hf (by omega)
  | x, [], level, outer, fuel + 1, rest, hxs, hf => by
      simp only [WritableElems] at hxs
      simp only [indentElems, List.length_append] at hf
      have ih := parseValue_indentChars floatRepr indent x level fuel
        (newline indent outer ++ ']' :: rest) hxs.1 (stops_newline indent outer _) (by omega)
      have hws : skipWs (indentElems indent level [x] ++ (newline indent outer ++ ']' :: rest)) =
          indentChars indent level x ++ (newline indent outer ++ ']' :: rest) := by
        rw [indentElems, List.append_assoc, skipWs_newline]
        exact ((indentChars_opens hxs.1 indent level).append _).skipWs
      rw [hws]
      simp only [parseElems, ih, skipWs_closing (show isBlank ']' = false from rfl)]
  | x, y :: ys, level, outer, fuel + 1, rest, hxs, hf => by
      have hys : WritableElems floatRepr (y :: ys) := by
        simp only [WritableElems] at hxs ⊢
        exact hxs.2
      simp only [WritableElems] at hxs
      simp only [indentElems, List.length_append, List.length_cons] at hf
      have ih := parseValue_indentChars floatRepr indent x level fuel
        (',' :: (indentElems indent level (y :: ys) ++ (newline indent outer ++ ']' :: rest)))
        hxs.1 (Stops.cons (by simp) _) (by omega)
      have ih' := parseElems_indentElems floatRepr indent y ys level outer fuel rest hys
        (by omega)
      have hws : skipWs (indentElems indent level (x :: y :: ys) ++
            (newline indent outer ++ ']' :: rest)) =
          indentChars indent level x ++
            (',' :: (indentElems indent level (y :: ys) ++
              (newline indent outer ++ ']' :: rest))) := by
        rw [indentElems, List.append_assoc, List.append_assoc, List.cons_append, skipWs_newline]
        exact ((indentChars_opens hxs.1 indent level).append _).skipWs
      rw [hws]
      simp only [parseElems, ih, skipWs_cons (show isBlank ',' = false from rfl), ih']
termination_by structural _ _ _ _ fuel => fuel

theorem parseMembers_indentMembers (floatRepr : String → String) (indent : Nat) :
    ∀ (m : String × Json) (kvs : List (String × Json)) (level outer fuel : Nat)
      (rest : List Char), WritableMembers floatRepr (m :: kvs) →
      2 * (indentMembers indent level (m :: kvs)).length + 1 ≤ fuel →
      parseMembers floatRepr fuel
          (skipWs (indentMembers indent level (m :: kvs) ++
            (newline indent outer ++ '}' :: rest))) =
        some (m :: kvs, rest)
  | _, _, _, _, 0, _, _, hf => absurd hf (by omega)
  | (k, v), [], level, outer, fuel + 1, rest, hkvs, hf => by
      simp only [WritableMembers] at hkvs
      simp only [indentMembers, List.length_append, List.length_cons] at hf
      have ih := parseValue_indentChars floatRepr indent v level fuel
        (newline indent outer ++ '}' :: rest) hkvs.1 (stops_newline indent outer _) (by omega)
      have hws : ∀ cs, skipWs (' ' :: (indentChars indent level v ++ cs)) =
          indentChars indent level v ++ cs :=
        fun cs => ((indentChars_opens hkvs.1 indent level).append cs).skipWs
      have hopen : ∀ cs, skipWs (newline indent level ++ '"' :: cs) = '"' :: cs :=
        fun cs => skipWs_closing rfl indent level cs
      simp only [indentMembers, quote, List.cons_append, List.append_assoc, List.nil_append,
        hopen, parseMembers, parseBody_flatMap, skipWs_cons (show isBlank ':' = false from rfl),
        hws, ih, skipWs_closing (show isBlank '}' = false from rfl), String.ofList_toList]
  | (k, v), m' :: kvs, level, outer, fuel + 1, rest, hkvs, hf => by
      have hrest : WritableMembers floatRepr (m' :: kvs) := by
        simp only [WritableMembers] at hkvs
        exact hkvs.2
      simp only [WritableMembers] at hkvs
      simp only [indentMembers, List.length_append, List.length_cons] at hf
      have ih := parseValue_indentChars floatRepr indent v level fuel
        (',' :: (indentMembers indent level (m' :: kvs) ++
          (newline indent outer ++ '}' :: rest)))
        hkvs.1 (Stops.cons (by simp) _) (by omega)
      have ih' := parseMembers_indentMembers floatRepr indent m' kvs level outer fuel rest hrest
        (by omega)
      have hws : ∀ cs, skipWs (' ' :: (indentChars indent level v ++ cs)) =
          indentChars indent level v ++ cs :=
        fun cs => ((indentChars_opens hkvs.1 indent level).append cs).skipWs
      have hopen : ∀ cs, skipWs (newline indent level ++ '"' :: cs) = '"' :: cs :=
        fun cs => skipWs_closing rfl indent level cs
      simp only [indentMembers, quote, List.cons_append, List.append_assoc, List.nil_append,
        hopen, parseMembers, parseBody_flatMap, skipWs_cons (show isBlank ':' = false from rfl),
        hws, ih, skipWs_cons (show isBlank ',' = false from rfl), ih', String.ofList_toList]
termination_by structural _ _ _ _ fuel => fuel

end

/-- **Round trip.** `loads` reads back every value that is written with an indent. -/
theorem loads_dumpsIndent {v : Json} (hv : Writable floatRepr v) (indent : Nat) :
    loads floatRepr (dumpsIndent indent v) = some v := by
  have h := parseValue_indentChars floatRepr indent v 0
    (2 * (indentChars indent 0 v).length + 1) [] hv Stops.nil (by omega)
  rw [List.append_nil] at h
  simp only [loads, dumpsIndent, String.toList_ofList, (indentChars_opens hv indent 0).skipWs, h]
  simp [skipWs]

end Json
