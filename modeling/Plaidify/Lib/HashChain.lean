import Mathlib.Data.List.Induction
import Mathlib.Data.List.Nodup

/-!
# Hash-linked lists

Every entry names its predecessor by a key (`prev`), and the first one names
nothing. `Linked k l` says that the entries of `l` continue a chain whose last
key is `k`; the empty chain has no last key.
-/

namespace HashChain

universe u v

variable {α : Type u} {κ : Type v} (prev : α → Option κ) (key : α → κ)

/-- The entries continue, one after the other, a chain whose last key is `k`. -/
def Linked : Option κ → List α → Prop
  | _, [] => True
  | k, x :: xs => prev x = k ∧ Linked (some (key x)) xs

/-- The last key of a chain `l` that continues one with last key `k`. -/
def tip (k : Option κ) (l : List α) : Option κ :=
  match l.getLast? with
  | none => k
  | some x => some (key x)

variable {prev key}

@[simp] theorem linked_nil (k : Option κ) : Linked prev key k [] := trivial

@[simp] theorem tip_nil (k : Option κ) : tip key k ([] : List α) = k := rfl

@[simp] theorem tip_concat (k : Option κ) (l : List α) (x : α) :
    tip key k (l ++ [x]) = some (key x) := by
  simp [tip]

theorem tip_cons (k : Option κ) (x : α) (xs : List α) :
    tip key k (x :: xs) = tip key (some (key x)) xs := by
  cases xs using List.reverseRecOn with
  | nil => rfl
  | append_singleton ys y => rw [← List.cons_append, tip_concat, tip_concat]

/-- A nonempty list has a last key whatever comes before it. -/
theorem tip_of_ne_nil (key : α → κ) {l : List α} (h : l ≠ []) (k : Option κ) :
    ∃ x ∈ l, tip key k l = some (key x) := by
  cases l using List.reverseRecOn with
  | nil => exact absurd rfl h
  | append_singleton ys y => exact ⟨y, by simp, tip_concat k ys y⟩

theorem linked_append {k : Option κ} {l₁ l₂ : List α} :
    Linked prev key k (l₁ ++ l₂) ↔ Linked prev key k l₁ ∧ Linked prev key (tip key k l₁) l₂ := by
  induction l₁ generalizing k with
  | nil => simp
  | cons x xs ih =>
      rw [List.cons_append, Linked, ih, Linked, tip_cons, and_assoc]

theorem linked_concat {k : Option κ} {l : List α} {x : α} :
    Linked prev key k (l ++ [x]) ↔ Linked prev key k l ∧ prev x = tip key k l := by
  simp [linked_append, Linked]

/-- What is left of a chain after losing a nonempty front starts from a key, so
it is not a chain of its own. -/
theorem not_linked_of_dropped {k : Option κ} {l₁ l₂ : List α}
    (h : Linked prev key k (l₁ ++ l₂)) (h₁ : l₁ ≠ []) (h₂ : l₂ ≠ []) :
    ¬ Linked prev key none l₂ := by
  obtain ⟨x, -, hx⟩ := tip_of_ne_nil key h₁ k
  have hl₂ := (linked_append.mp h).2
  cases l₂ with
  | nil => exact absurd rfl h₂
  | cons y ys =>
      intro hnone
      have h1 : prev y = some (key x) := by rw [← hx]; exact hl₂.1
      have h2 : prev y = none := hnone.1
      rw [h1] at h2
      exact absurd h2 (by simp)

/-- Every entry names nothing or another entry of the chain. -/
theorem prev_mem {l : List α} (h : Linked prev key none l) {x : α} (hx : x ∈ l) :
    prev x = none ∨ ∃ w ∈ l, prev x = some (key w) := by
  induction l using List.reverseRecOn with
  | nil => simp at hx
  | append_singleton l y ih =>
      obtain ⟨hl, hy⟩ := linked_concat.mp h
      rcases List.mem_append.mp hx with hx | hx
      · rcases ih hl hx with hnone | ⟨w, hw, hxw⟩
        · exact Or.inl hnone
        · exact Or.inr ⟨w, List.mem_append_left _ hw, hxw⟩
      · obtain rfl : x = y := by simpa using hx
        by_cases hne : l = []
        · subst hne
          exact Or.inl hy
        · obtain ⟨w, hw, htip⟩ := tip_of_ne_nil key hne none
          exact Or.inr ⟨w, List.mem_append_left _ hw, by rw [hy, htip]⟩

/-- Nobody names the last entry, provided that entries with one key name the
same predecessor (as a hash of the whole entry does). -/
theorem prev_ne_tip {l : List α} (h : Linked prev key none l)
    (hinj : ∀ x ∈ l, ∀ y ∈ l, key x = key y → prev x = prev y) {x : α} (hx : x ∈ l) :
    prev x ≠ tip key none l := by
  induction l using List.reverseRecOn generalizing x with
  | nil => simp at hx
  | append_singleton l y ih =>
      obtain ⟨hl, hy⟩ := linked_concat.mp h
      have hold : ∀ z ∈ l, prev z ≠ tip key none l := fun z hz =>
        ih hl (fun a ha b hb => hinj a (by simp [ha]) b (by simp [hb])) hz
      rw [tip_concat]
      intro hname
      -- Whoever has the key of `y` names what `y` names, the end of `l`.
      have hclash : ∀ w ∈ l, key w ≠ key y := by
        intro w hw hkey
        exact hold w hw ((hinj w (by simp [hw]) y (by simp) hkey).trans hy)
      rcases prev_mem h hx with hnone | ⟨w, hw, hxw⟩
      · rw [hnone] at hname
        exact absurd hname (by simp)
      · rcases List.mem_append.mp hx with hx | hx
        · rcases prev_mem hl hx with hnone | ⟨v, hv, hxv⟩
          · rw [hnone] at hname
            exact absurd hname (by simp)
          · exact hclash v hv (Option.some.inj (hxv.symm.trans hname))
        · obtain rfl : x = y := by simpa using hx
          by_cases hne : l = []
          · subst hne
            rw [hy] at hname
            exact absurd hname (by simp)
          · obtain ⟨v, hv, htip⟩ := tip_of_ne_nil key hne none
            rw [hy, htip] at hname
            exact hclash v hv (Option.some.inj hname)

/-- No entry of a chain is named twice, under the same proviso. -/
theorem nodup_prev {l : List α} (h : Linked prev key none l)
    (hinj : ∀ x ∈ l, ∀ y ∈ l, key x = key y → prev x = prev y) : (l.map prev).Nodup := by
  induction l using List.reverseRecOn with
  | nil => simp
  | append_singleton l x ih =>
      obtain ⟨hl, hx⟩ := linked_concat.mp h
      have hinjl : ∀ a ∈ l, ∀ b ∈ l, key a = key b → prev a = prev b := fun a ha b hb =>
        hinj a (by simp [ha]) b (by simp [hb])
      rw [List.map_append, List.map_cons, List.map_nil, List.nodup_append]
      refine ⟨ih hl hinjl, List.nodup_singleton _, ?_⟩
      intro p hp q hq hpq
      obtain rfl : q = prev x := by simpa using hq
      obtain ⟨z, hz, rfl⟩ := List.mem_map.mp hp
      exact prev_ne_tip hl hinjl hz (hpq.trans hx)

end HashChain
