import Mathlib.Data.List.DropRight

/-!
# What a history says now

Two things that are read off the events so far: that something which happened still
stands, because nothing after it did away with it, and how often something happened
since it was last set back. Each has a rule for one more event.
-/

namespace Histories

variable {α : Type*}

/-- `x` happened, and what came after it spares it. -/
def Standing (spares : α → Prop) (x : α) (since history : List α) : Prop :=
  (∃ before, history = before ++ x :: since) ∧ ∀ y ∈ since, spares y

/-- How often `p` happened since `reset` last did. -/
def countSince (p reset : α → Bool) (history : List α) : Nat :=
  (history.rtakeWhile fun x => !reset x).countP p

theorem not_standing_nil {spares : α → Prop} {x : α} {since : List α} :
    ¬ Standing spares x since [] := by
  rintro ⟨⟨before, h⟩, -⟩
  simp at h

/-- One more event is the one that stands, or it spares the one that does. -/
theorem standing_concat {spares : α → Prop} {x y : α} {since history : List α} :
    Standing spares x since (history ++ [y]) ↔
      (since = [] ∧ x = y) ∨
        ∃ earlier, since = earlier ++ [y] ∧ spares y ∧ Standing spares x earlier history := by
  constructor
  · rintro ⟨⟨before, h⟩, hspares⟩
    rcases since.eq_nil_or_concat with rfl | ⟨earlier, z, hsince⟩
    · obtain ⟨-, hlast⟩ := List.append_inj' h rfl
      exact .inl ⟨rfl, (List.cons.inj hlast).1.symm⟩
    · rw [List.concat_eq_append] at hsince
      subst hsince
      -- the last event of both sides is the same one
      rw [← List.cons_append, ← List.append_assoc] at h
      obtain ⟨hfront, hlast⟩ := List.append_inj' h rfl
      obtain rfl : y = z := (List.cons.inj hlast).1
      refine .inr ⟨earlier, rfl, hspares y (by simp), ⟨before, hfront⟩, ?_⟩
      intro w hw
      exact hspares w (List.mem_append_left _ hw)
  · rintro (⟨rfl, rfl⟩ | ⟨earlier, rfl, hy, ⟨before, rfl⟩, hspares⟩)
    · exact ⟨⟨history, rfl⟩, by simp⟩
    · refine ⟨⟨before, by simp⟩, ?_⟩
      intro w hw
      rcases List.mem_append.mp hw with hw | hw
      · exact hspares w hw
      · rw [List.mem_singleton.mp hw]
        exact hy

@[simp] theorem countSince_nil (p reset : α → Bool) : countSince p reset [] = 0 := rfl

theorem countSince_concat_reset {p reset : α → Bool} {y : α} (hy : reset y = true)
    (history : List α) : countSince p reset (history ++ [y]) = 0 := by
  rw [countSince, List.rtakeWhile_concat_neg _ _ _ (by simp [hy])]
  rfl

theorem countSince_concat {p reset : α → Bool} {y : α} (hy : reset y = false)
    (history : List α) :
    countSince p reset (history ++ [y]) = countSince p reset history + if p y then 1 else 0 := by
  rw [countSince, List.rtakeWhile_concat_pos _ _ _ (by simp [hy]), List.countP_append,
    List.countP_singleton]
  rfl

theorem countSince_congr {p p' reset reset' : α → Bool} {history : List α}
    (h : ∀ x ∈ history, p x = p' x ∧ reset x = reset' x) :
    countSince p reset history = countSince p' reset' history := by
  induction history using List.reverseRecOn with
  | nil => rfl
  | append_singleton history y ih =>
    obtain ⟨hp, hreset⟩ := h y (by simp)
    have ih := ih fun x hx => h x (List.mem_append_left _ hx)
    cases hy : reset y with
    | true => rw [countSince_concat_reset hy, countSince_concat_reset (hreset ▸ hy)]
    | false => rw [countSince_concat hy, countSince_concat (hreset ▸ hy), ih, hp]

end Histories
