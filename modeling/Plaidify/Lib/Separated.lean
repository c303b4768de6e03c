import Mathlib.Data.List.Basic

/-!
# Fields joined by a separator

Joining fields with a separator that may occur inside them forgets where the
fields end. What the joined text still determines is exactly the list of
`pieces`: every field cut at the separator, one field after the other.
-/

namespace Separated

universe u

variable {α : Type u}

/-- A text is cut at its first separator in one way. -/
theorem append_cons_inj {c : α} {a a' b b' : List α} (ha : c ∉ a) (ha' : c ∉ a')
    (h : a ++ c :: b = a' ++ c :: b') : a = a' ∧ b = b' := by
  induction a generalizing a' with
  | nil =>
      cases a' with
      | nil => exact ⟨rfl, (List.cons.inj h).2⟩
      | cons d a' =>
          obtain ⟨rfl, -⟩ := List.cons.inj h
          exact absurd List.mem_cons_self ha'
  | cons e a ih =>
      cases a' with
      | nil =>
          obtain ⟨rfl, -⟩ := List.cons.inj h
          exact absurd List.mem_cons_self ha
      | cons d a' =>
          obtain ⟨rfl, hrest⟩ := List.cons.inj h
          rcases ih (fun hmem => ha (List.mem_cons_of_mem _ hmem))
            (fun hmem => ha' (List.mem_cons_of_mem _ hmem)) hrest with ⟨rfl, rfl⟩
          exact ⟨rfl, rfl⟩

variable [BEq α]

/-- Every field cut at the separator, in order. -/
def pieces (sep : α) (fields : List (List α)) : List (List α) :=
  fields.flatMap fun f => f.splitOn sep

@[simp] theorem pieces_nil (sep : α) : pieces sep ([] : List (List α)) = [] := rfl

@[simp] theorem pieces_cons (sep : α) (f : List α) (fs : List (List α)) :
    pieces sep (f :: fs) = f.splitOn sep ++ pieces sep fs := rfl

theorem pieces_append (sep : α) (fs gs : List (List α)) :
    pieces sep (fs ++ gs) = pieces sep fs ++ pieces sep gs := by
  simp [pieces]

variable [LawfulBEq α]

/-- Fields that avoid the separator are their own pieces. -/
theorem pieces_eq_self {sep : α} {fields : List (List α)} (h : ∀ f ∈ fields, sep ∉ f) :
    pieces sep fields = fields := by
  induction fields with
  | nil => rfl
  | cons f fs ih =>
      rw [pieces_cons, List.splitOn_eq_singleton (h f List.mem_cons_self),
        ih fun g hg => h g (List.mem_cons_of_mem _ hg)]
      rfl

/-- Cutting the joined text gives the pieces. -/
theorem splitOn_join (sep : α) {fields : List (List α)} (h : fields ≠ []) :
    ([sep].intercalate fields).splitOn sep = pieces sep fields := by
  induction fields with
  | nil => exact absurd rfl h
  | cons f fs ih =>
      cases fs with
      | nil => simp [List.intercalate]
      | cons g gs =>
          have hjoin : [sep].intercalate (f :: g :: gs)
              = f ++ sep :: [sep].intercalate (g :: gs) := by
            simp [List.intercalate]
          rw [hjoin, List.splitOn_append_cons_self, ih (by simp), ← pieces_cons]

/-- Two field lists join to the same text exactly when their pieces agree. -/
theorem join_eq_join_iff (sep : α) {fs gs : List (List α)} (hf : fs ≠ []) (hg : gs ≠ []) :
    [sep].intercalate fs = [sep].intercalate gs ↔ pieces sep fs = pieces sep gs := by
  constructor
  · intro h
    rw [← splitOn_join sep hf, h, splitOn_join sep hg]
  · intro h
    rw [← splitOn_join sep hf, ← splitOn_join sep hg] at h
    calc [sep].intercalate fs
        = [sep].intercalate (([sep].intercalate fs).splitOn sep) :=
          (List.intercalate_splitOn sep).symm
      _ = [sep].intercalate (([sep].intercalate gs).splitOn sep) := by rw [h]
      _ = [sep].intercalate gs := List.intercalate_splitOn sep

/-- The last field survives the joining when it avoids the separator. -/
theorem last_eq_of_pieces_eq {sep : α} {fs gs : List (List α)} {x y : List α}
    (hx : sep ∉ x) (hy : sep ∉ y) (h : pieces sep (fs ++ [x]) = pieces sep (gs ++ [y])) :
    x = y := by
  have hlast : ∀ (hs : List (List α)) (z : List α), sep ∉ z →
      pieces sep (hs ++ [z]) = pieces sep hs ++ [z] := by
    intro hs z hz
    rw [pieces_append, pieces_cons, pieces_nil, List.append_nil, List.splitOn_eq_singleton hz]
  rw [hlast fs x hx, hlast gs y hy] at h
  exact (List.append_singleton_inj.mp h).2

end Separated
