import Mathlib.Algebra.Order.Ring.Rat
import Mathlib.Tactic.Linarith

/-!
# Floating-point numbers

A number is a rational, an infinity or no number. An operation rounds its exact
result. Of the rounding only this is used: it is monotone, and short dyadic
fractions are numbers themselves.
-/

namespace Rounding

inductive Number where
  | finite (x : ℚ)
  | inf (negative : Bool)
  | nan
deriving DecidableEq

namespace Number

/-- No number is smaller or larger than any. -/
def lt : Number → Number → Bool
  | .nan, _ | _, .nan => false
  | .finite x, .finite y => x < y
  | .inf negative, .finite _ => negative
  | .finite _, .inf negative => !negative
  | .inf negative, .inf negative' => negative && !negative'

/-- The second one only if it is larger. -/
def max (a b : Number) : Number :=
  if a.lt b then b else a

/-- The second one only if it is smaller. -/
def min (a b : Number) : Number :=
  if b.lt a then b else a

def Within (lo hi : ℚ) (a : Number) : Prop :=
  ∃ x, a = .finite x ∧ lo ≤ x ∧ x ≤ hi

/-- Clamping leaves no infinity, and makes the lower bound of what is no number. -/
theorem min_max_within {lo hi : ℚ} (h : lo ≤ hi) (a : Number) :
    (Number.min (.finite hi) (Number.max (.finite lo) a)).Within lo hi := by
  -- what is at least `lo` is clamped from above
  have hmin : ∀ x, lo ≤ x → (Number.min (.finite hi) (.finite x)).Within lo hi := by
    intro x hx
    by_cases hlt : x < hi
    · refine ⟨x, ?_, hx, hlt.le⟩
      simp [Number.min, Number.lt, hlt]
    · refine ⟨hi, ?_, h, le_refl hi⟩
      simp [Number.min, Number.lt, hlt]
  cases a with
  | nan => exact hmin lo (le_refl lo)
  | inf negative =>
      cases negative with
      | true => exact hmin lo (le_refl lo)
      | false => exact ⟨hi, by simp [Number.min, Number.max, Number.lt], h, le_refl hi⟩
  | finite x =>
      by_cases hlt : lo < x
      · have hmax : Number.max (.finite lo) (.finite x) = .finite x := by
          simp [Number.max, Number.lt, hlt]
        rw [hmax]
        exact hmin x hlt.le
      · have hmax : Number.max (.finite lo) (.finite x) = .finite lo := by
          simp [Number.max, Number.lt, hlt]
        rw [hmax]
        exact hmin lo (le_refl lo)

end Number

/-- How the exact result of an operation is rounded. -/
structure Mode where
  round : ℚ → ℚ
  mono : Monotone round
  dyadic : ∀ m e : Nat, m ≤ 2 ^ 11 → e ≤ 11 → round (m / 2 ^ e) = m / 2 ^ e

/-- Exact arithmetic. -/
def exact : Mode where
  round := id
  mono := monotone_id
  dyadic _ _ _ _ := rfl

variable (mode : Mode)

theorem Mode.round_nat {m : Nat} (h : m ≤ 2 ^ 11) : mode.round m = m := by
  have hdyadic := mode.dyadic m 0 h (by omega)
  simpa using hdyadic

theorem Mode.round_half : mode.round (1 / 2) = 1 / 2 := by
  have hdyadic := mode.dyadic 1 1 (by omega) (by omega)
  simpa using hdyadic

/-- The product with a positive number. -/
def Number.scale (factor : ℚ) : Number → Number
  | .finite x => .finite (mode.round (x * factor))
  | .inf negative => .inf negative
  | .nan => .nan

/-- A factor of at most one does not lead beyond the bound. -/
theorem Number.scale_within {a : Number} {hi : Nat} {factor : ℚ} (h : a.Within 0 hi)
    (hhi : hi ≤ 2 ^ 11) (h₀ : 0 ≤ factor) (h₁ : factor ≤ 1) :
    (a.scale mode factor).Within 0 hi := by
  rcases h with ⟨x, rfl, hx, hle⟩
  have hzero : mode.round 0 = 0 := by simpa using mode.round_nat (m := 0) (by omega)
  have hlow : 0 ≤ x * factor := mul_nonneg hx h₀
  have hhigh : x * factor ≤ hi := by nlinarith
  refine ⟨mode.round (x * factor), rfl, ?_, ?_⟩
  · have hround := mode.mono hlow
    rwa [hzero] at hround
  · have hround := mode.mono hhigh
    rwa [mode.round_nat hhi] at hround

end Rounding
