import Mathlib.Algebra.Order.Ring.Int
import Plaidify.Refresh.Scheduler

/-!
# The backoff of a failing job

`_effective_interval` of `RefreshScheduler` (`src/src/scheduled_refresh.py`) as a
function of the number of failures. `_get_refresh_scheduler`
(`src/src/routers/refresh.py`) leaves the cap at its default, a day.
-/

namespace Plaidify.Refresh

/-- The job after this many failures in a row. -/
def RefreshJob.withFailures (job : RefreshJob) (failures : Nat) : RefreshJob :=
  { job with consecutiveFailures := failures }

/-- Failures make a job wait, and never less than without them. -/
structure NeverSpedUp (job : RefreshJob) : Prop where
  monotone : ∀ m n, m ≤ n →
    effectiveInterval (job.withFailures m) ≤ effectiveInterval (job.withFailures n)
  atLeast : ∀ n, job.intervalSeconds ≤ effectiveInterval (job.withFailures n)
  /-- When the failing job is due, so is the healthy one. -/
  due : ∀ n now, isDue (job.withFailures n) now = .ok true →
    isDue (job.withFailures 0) now = .ok true

/-! ## Capped doubling -/

/-- Doubling a number that is not negative does not make it smaller. -/
theorem mul_two_pow_mono {interval : Int} (h : 0 ≤ interval) {m n : Nat} (hmn : m ≤ n) :
    interval * 2 ^ m ≤ interval * 2 ^ n :=
  Int.mul_le_mul_of_nonneg_left (pow_le_pow_right₀ (by decide) hmn) h

theorem effectiveInterval_withFailures_zero (job : RefreshJob) :
    effectiveInterval (job.withFailures 0) = job.intervalSeconds :=
  if_pos rfl

theorem effectiveInterval_withFailures_succ (job : RefreshJob) (n : Nat) :
    effectiveInterval (job.withFailures (n + 1)) =
      min (job.intervalSeconds * 2 ^ (n + 1)) maxBackoff :=
  if_neg (Nat.succ_ne_zero n)

section

variable {job : RefreshJob} (hpos : 0 ≤ job.intervalSeconds)
  (hcap : job.intervalSeconds ≤ maxBackoff)

include hpos hcap

theorem le_effectiveInterval (n : Nat) :
    job.intervalSeconds ≤ effectiveInterval (job.withFailures n) := by
  cases n with
  | zero => rw [effectiveInterval_withFailures_zero]
  | succ n =>
      rw [effectiveInterval_withFailures_succ, Int.le_min]
      have hdoubled := mul_two_pow_mono hpos (Nat.zero_le (n + 1))
      rw [pow_zero, mul_one] at hdoubled
      exact ⟨hdoubled, hcap⟩

theorem effectiveInterval_mono {m n : Nat} (hmn : m ≤ n) :
    effectiveInterval (job.withFailures m) ≤ effectiveInterval (job.withFailures n) := by
  cases m with
  | zero =>
      -- the first failure is where the two formulas meet
      rw [effectiveInterval_withFailures_zero]
      exact le_effectiveInterval hpos hcap n
  | succ m =>
      obtain ⟨n, rfl⟩ : ∃ k, n = k + 1 := ⟨n - 1, by omega⟩
      rw [effectiveInterval_withFailures_succ, effectiveInterval_withFailures_succ]
      exact min_le_min_right maxBackoff (mul_two_pow_mono hpos hmn)

end

/-- A longer effective interval is due no earlier. -/
theorem isDue_of_effectiveInterval_le {job job' : RefreshJob} {now : DateTime}
    (hlast : job.lastRefreshed = job'.lastRefreshed)
    (hle : effectiveInterval job ≤ effectiveInterval job') (h : isDue job' now = .ok true) :
    isDue job now = .ok true := by
  unfold isDue at h ⊢
  rw [hlast]
  cases hother : job'.lastRefreshed with
  | none => rfl
  | some last =>
      rw [hother] at h
      dsimp only at h ⊢
      cases helapsed : now.sub last with
      | error message =>
          rw [helapsed] at h
          cases h
      | ok elapsed =>
          rw [helapsed] at h
          have hdue : effectiveInterval job' * 1000000 ≤ elapsed := by
            simpa [Except.map] using h
          have hearlier : effectiveInterval job * 1000000 ≤ elapsed := by omega
          simpa [Except.map] using hearlier

/-! ## Where the cap is no shorter than the interval -/

/-- Failures never speed a job up exactly where its interval is within the cap. -/
theorem neverSpedUp_iff {job : RefreshJob} (h : minIntervalSeconds ≤ job.intervalSeconds) :
    NeverSpedUp job ↔ job.intervalSeconds ≤ maxBackoff := by
  have hpos : 0 ≤ job.intervalSeconds := by
    have hmin : minIntervalSeconds = 300 := rfl
    omega
  constructor
  · intro hnever
    have hfirst := hnever.atLeast 1
    rw [effectiveInterval_withFailures_succ] at hfirst
    exact hfirst.trans (min_le_right _ _)
  · intro hcap
    refine ⟨fun m n => effectiveInterval_mono hpos hcap, le_effectiveInterval hpos hcap, ?_⟩
    intro n now hdue
    have hlast : (job.withFailures 0).lastRefreshed = (job.withFailures n).lastRefreshed := rfl
    have hle := effectiveInterval_mono hpos hcap (Nat.zero_le n)
    exact isDue_of_effectiveInterval_le hlast hle hdue

/-- A daily job. -/
theorem daily_neverSpedUp :
    NeverSpedUp { accessToken := "acc-1", userId := 1, intervalSeconds := 86400,
                  scheduleFormat := .daily } :=
  (neverSpedUp_iff (by decide)).mpr (by decide)

/-- The weekly preset is longer than the cap: after a failure the job is daily. -/
theorem weekly_spedUp :
    ∃ fmt seconds, resolveSchedule id (some "weekly") none = .ok (fmt, seconds) ∧
      minIntervalSeconds ≤ seconds ∧
      ¬NeverSpedUp { accessToken := "acc-1", userId := 1, intervalSeconds := seconds,
                     scheduleFormat := fmt } := by
  refine ⟨.weekly, 604800, rfl, by decide, ?_⟩
  intro hnever
  have hfirst := hnever.atLeast 1
  revert hfirst
  decide

end Plaidify.Refresh
