import Mathlib.Data.List.Infix

/-!
# Depth counters and open elements

Two ways to know whether one is inside: a counter, which an event of one kind
starts, which other events then count up and down, and which rests at zero; and the
stack of the names that are open, where an end closes the nearest opening of its
name. `depth_pos_iff` says what the counter knows.
-/

namespace DepthCounter

section

variable {τ : Type} (starts ups downs : τ → Bool)

/-- One event. At rest only `starts` counts. -/
def step (depth : Nat) (t : τ) : Nat :=
  if depth = 0 then (if starts t then 1 else 0)
  else if ups t then depth + 1
  else if downs t then depth - 1
  else depth

/-- The counter after a run. -/
def depth (l : List τ) : Nat :=
  l.foldl (step starts ups downs) 0

/-- No part of the run from its beginning has more downs than ups. -/
def Covered (l : List τ) : Prop :=
  ∀ p, p <+: l → p.countP downs ≤ p.countP ups

variable {starts ups downs}

theorem depth_concat (l : List τ) (t : τ) :
    depth starts ups downs (l ++ [t]) = step starts ups downs (depth starts ups downs l) t := by
  unfold depth
  rw [List.foldl_append]
  rfl

theorem covered_nil : Covered ups downs ([] : List τ) := by
  intro p hp
  rw [List.prefix_nil.mp hp]
  exact Nat.le_refl 0

theorem Covered.of_concat {l : List τ} {t : τ} (h : Covered ups downs (l ++ [t])) :
    Covered ups downs l :=
  fun p hp => h p (hp.trans (List.prefix_append l [t]))

theorem Covered.concat {l : List τ} {t : τ} (h : Covered ups downs l)
    (ht : (l ++ [t]).countP downs ≤ (l ++ [t]).countP ups) : Covered ups downs (l ++ [t]) := by
  intro p hp
  rcases List.prefix_concat_iff.mp hp with rfl | hp
  · exact ht
  · exact h p hp

variable (starts) in
/-- Above zero an event changes the counter by the difference. -/
theorem step_of_pos (hdisjoint : ∀ t, ups t = true → downs t = false) {d : Nat} (hd : 0 < d)
    (t : τ) : step starts ups downs d t + [t].countP downs = d + [t].countP ups := by
  unfold step
  rw [if_neg (Nat.pos_iff_ne_zero.mp hd), List.countP_singleton, List.countP_singleton]
  by_cases hup : ups t = true
  · simp [hup, hdisjoint t hup]
  · by_cases hdown : downs t = true
    · rw [if_neg hup, if_pos hdown, if_pos hdown, if_neg hup]
      omega
    · simp [hup, hdown]

/-- While no downs exceed the ups, the counter stays above their difference. -/
theorem depth_of_covered (hdisjoint : ∀ t, ups t = true → downs t = false)
    (hstarts : ∀ t, starts t = true → ups t = true) {a : List τ} {t : τ}
    (ht : starts t = true) {b : List τ} (h : Covered ups downs b) :
    b.countP ups + 1 ≤ depth starts ups downs (a ++ t :: b) + b.countP downs := by
  induction b using List.reverseRecOn with
  | nil =>
    rw [depth_concat]
    unfold step
    by_cases hzero : depth starts ups downs a = 0
    · simp [hzero, ht]
    · simp [hzero, hstarts t ht]
  | append_singleton b u ih =>
    have hb := h.of_concat
    have hle := ih hb
    have hlast := h (b ++ [u]) List.prefix_rfl
    have hbefore := hb b List.prefix_rfl
    have happend : a ++ t :: (b ++ [u]) = (a ++ t :: b) ++ [u] := by simp
    rw [happend, depth_concat]
    have hpos : 0 < depth starts ups downs (a ++ t :: b) := by omega
    have hstep := step_of_pos starts hdisjoint hpos u
    simp only [List.countP_append] at hlast ⊢
    omega

/-- A counter that is not at rest was started by an event since which it equals the
difference. -/
theorem exists_start (hdisjoint : ∀ t, ups t = true → downs t = false) {l : List τ}
    (h : 0 < depth starts ups downs l) :
    ∃ a t b, l = a ++ t :: b ∧ starts t = true ∧ Covered ups downs b ∧
      depth starts ups downs l + b.countP downs = b.countP ups + 1 := by
  induction l using List.reverseRecOn with
  | nil => exact absurd h (Nat.lt_irrefl 0)
  | append_singleton l u ih =>
    rw [depth_concat] at h ⊢
    by_cases hzero : depth starts ups downs l = 0
    · -- the counter was at rest, and `u` starts it
      have hstart : starts u = true := by
        by_contra hno
        unfold step at h
        simp [hzero, hno] at h
      refine ⟨l, u, [], rfl, hstart, covered_nil, ?_⟩
      unfold step
      simp [hzero, hstart]
    · obtain ⟨a, t, b, hl, hstart, hcovered, hdepth⟩ := ih (Nat.pos_of_ne_zero hzero)
      have hvalue : step starts ups downs (depth starts ups downs l) u +
          (b ++ [u]).countP downs = (b ++ [u]).countP ups + 1 := by
        have hstep := step_of_pos starts hdisjoint (Nat.pos_of_ne_zero hzero) u
        simp only [List.countP_append]
        omega
      refine ⟨a, t, b ++ [u], by rw [hl]; simp, hstart, hcovered.concat ?_, hvalue⟩
      omega

/-- The counter is above zero after just those runs that have started it and since
have had no more downs than ups. -/
theorem depth_pos_iff (hdisjoint : ∀ t, ups t = true → downs t = false)
    (hstarts : ∀ t, starts t = true → ups t = true) (l : List τ) :
    0 < depth starts ups downs l ↔
      ∃ a t b, l = a ++ t :: b ∧ starts t = true ∧ Covered ups downs b := by
  constructor
  · intro h
    obtain ⟨a, t, b, hl, hstart, hcovered, -⟩ := exists_start hdisjoint h
    exact ⟨a, t, b, hl, hstart, hcovered⟩
  · rintro ⟨a, t, b, rfl, hstart, hcovered⟩
    have hle := depth_of_covered hdisjoint hstarts (a := a) hstart hcovered
    have hcount := hcovered b List.prefix_rfl
    omega

end

/-! ## Open names -/

/-- What is open when the nearest opening of a name is closed, with all that was
opened since; an end without an opening closes nothing. -/
def closeNearest (name : String) (opened : List String) : List String :=
  if name ∈ opened then (opened.dropWhile (· ≠ name)).tail else opened

end DepthCounter
