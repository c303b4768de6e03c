import Plaidify.Lib.Rounding
import Plaidify.Resilience.CircuitBreaker

/-!
# The chain of language models

`FallbackChain` of `src/src/core/llm_provider.py` over `retry_with_backoff` of
`src/src/core/circuit_breaker.py`. A provider is what its attempts come to, for
any sequence of outcomes.

The chain is compared with a reference: every provider is attempted until it is
not rate limited any more or the retries are used up, a response or a refused
authentication ends the chain, and any other failure moves on to the next
provider. `semantics_iff` says on which outcomes the code follows it. The chain
catches `LLMProviderError` only: an exception of the HTTP client ends it with
providers left, and so does a delay too large for a float.
-/

namespace Plaidify.Resilience

open Rounding

/-! ## Attempts -/

/-- What an attempt raises: the classes under `LLMProviderError`, and the rest. -/
inductive CallError where
  /-- `LLMRateLimitError`. -/
  | rateLimit (message : String) (retryAfter : Option Number)
  /-- `LLMAuthError`. -/
  | auth (message : String)
  /-- `LLMProviderError` itself, or another class under it. -/
  | provider (message : String)
  /-- An exception of the HTTP client, of its JSON, of reading a header. -/
  | other (message : String)
deriving DecidableEq

/-- `str(e)`. -/
def CallError.message : CallError → String
  | .rateLimit message _ | .auth message | .provider message | .other message => message

/-- A provider in a chain, with what its attempts come to and the random numbers
of the delays between them. -/
structure Provider (R : Type) where
  outcome : Nat → Except CallError R
  random : Nat → { x : ℚ // 0 ≤ x ∧ x < 1 }

inductive Event where
  | attempt (n : Nat)
  /-- After attempt `n`. -/
  | sleep (n : Nat) (delay : Number)
deriving DecidableEq

/-! ## `retry_with_backoff` -/

def maxDelay : Nat := 8

/-- `base_delay * (2**attempt)`: the power is turned into a float first, which
fails from 2 ** 1024 on. -/
def exponentialDelay (attempt : Nat) : Except CallError Number :=
  if attempt < 1024 then .ok (.finite (1 / 2 * 2 ^ attempt))
  else .error (.other "int too large to convert to float")

variable {R : Type} (mode : Mode)

/-- `0.5 + random.random() / 2`. -/
def jitter (random : ℚ) : ℚ :=
  mode.round (1 / 2 + mode.round (random / 2))

/-- The delay before the next attempt. -/
def nextDelay (attempt : Nat) (retryAfter : Option Number) (random : ℚ) :
    Except CallError Number := do
  let delay ← match retryAfter with
    | some delay => .ok delay
    | none => exponentialDelay attempt
  .ok ((Number.min (.finite maxDelay) (Number.max (.finite 0) delay)).scale mode (jitter mode random))

/-- The loop of `retry_with_backoff` from an attempt on, with `left` retries. -/
def retryFrom (p : Provider R) (left attempt : Nat) : List Event × Except CallError R :=
  match left, p.outcome attempt with
  | left + 1, .error (.rateLimit _ retryAfter) =>
      match nextDelay mode attempt retryAfter (p.random attempt) with
      | .error error => ([.attempt attempt], .error error)
      | .ok delay =>
          let (events, result) := retryFrom p left (attempt + 1)
          (.attempt attempt :: .sleep attempt delay :: events, result)
  | _, result => ([.attempt attempt], result)

/-- `retry_with_backoff`, as `_call_chain` calls it. -/
def retryWithBackoff (retries : Int) (p : Provider R) : List Event × Except CallError R :=
  retryFrom mode p retries.toNat 0

/-! ## The chain -/

/-- `self.providers`: the constructor refuses an empty list. -/
structure FallbackChain (R : Type) where
  providers : List (Provider R)
  nonempty : providers ≠ []

/-- The loop of `_call_chain` from the provider at `i` on. -/
def callFrom (retries : Int) :
    Nat → Option CallError → List (Provider R) → List (Nat × Event) × Except CallError R
  | _, lastError, [] =>
      ([], .error (.provider ("All providers in fallback chain failed. Last error: " ++
        (lastError.map (·.message)).getD "None")))
  | i, _, p :: rest =>
      let (events, result) := retryWithBackoff mode retries p
      let events := events.map (i, ·)
      match result with
      | .ok response => (events, .ok response)
      | .error (.auth message) => (events, .error (.auth message))
      | .error (.other message) => (events, .error (.other message))
      -- `except LLMProviderError`
      | .error error =>
          let (later, result) := callFrom retries (i + 1) (some error) rest
          (events ++ later, result)

/-- `_call`, up to what the breaker records of it. -/
def FallbackChain.call (cfg : Settings) (seconds : ℚ → String) (retries : Int)
    (chain : FallbackChain R) (now : ℚ) (breaker : CircuitBreaker) :
    List (Nat × Event) × Except CallError R :=
  match beforeCall cfg now breaker with
  | .error e =>
      ([], .error (.provider ("Circuit 'llm' is open; failing fast (retry in ~" ++
        seconds e.retryAfter ++ "s)")))
  | .ok _ => callFrom mode retries 0 none chain.providers

/-! ## The reference -/

/-- An event without its delay. -/
inductive Action where
  | attempt (n : Nat)
  | sleep (n : Nat)
deriving DecidableEq

def Event.action : Event → Action
  | .attempt n => .attempt n
  | .sleep n _ => .sleep n

def RateLimited : Except CallError R → Prop
  | .error (.rateLimit _ _) => True
  | _ => False

instance (result : Except CallError R) : Decidable (RateLimited result) := by
  unfold RateLimited
  split <;> infer_instance

/-- The first attempt that is not rate limited, or the last one that is allowed. -/
def lastAttempt (retries : Nat) (p : Provider R) : Nat :=
  ((List.range retries).find? fun n => ¬RateLimited (p.outcome n)).getD retries

/-- Attempts one after the other, with a sleep before each retry. -/
def attempts (first last : Nat) : List Action :=
  (List.range' first (last - first)).flatMap (fun n => [.attempt n, .sleep n]) ++ [.attempt last]

inductive Verdict (R : Type) where
  | returned (response : R)
  | denied (message : String)
  | failed
deriving DecidableEq

def verdict : Except CallError R → Verdict R
  | .ok response => .returned response
  | .error (.auth message) => .denied message
  | .error _ => .failed

/-- What the providers from `i` on should come to. -/
def reference (retries : Nat) : Nat → List (Provider R) → List (Nat × Action) × Verdict R
  | _, [] => ([], .failed)
  | i, p :: rest =>
      let mine := (attempts 0 (lastAttempt retries p)).map (i, ·)
      match verdict (p.outcome (lastAttempt retries p)) with
      | .failed =>
          let (later, result) := reference retries (i + 1) rest
          (mine ++ later, result)
      | final => (mine, final)

/-- How many attempts a provider gets. -/
def attemptsOf (i : Nat) (run : List (Nat × Event)) : Nat :=
  run.countP fun (j, event) => j == i && event.action matches .attempt _

/-- A call of the chain follows the reference, within its bounds. -/
structure Semantics (retries : Int) (providers : List (Provider R))
    (run : List (Nat × Event) × Except CallError R) : Prop where
  actions : run.1.map (fun (i, event) => (i, event.action)) =
    (reference retries.toNat 0 providers).1
  outcome : verdict run.2 = (reference retries.toNat 0 providers).2
  few : ∀ i, (attemptsOf i run.1 : Int) ≤ retries + 1
  limited : ∀ i n p, (i, .attempt (n + 1)) ∈ run.1 → providers[i]? = some p →
    RateLimited (p.outcome n)
  short : ∀ i n delay, (i, .sleep n delay) ∈ run.1 → delay.Within 0 maxDelay

/-- A provider that is rate limited once more, without a hint, when the delay has
become too large. -/
def Overflows (retries : Nat) (p : Provider R) : Prop :=
  ∃ n, 1024 ≤ n ∧ n < lastAttempt retries p ∧
    ∃ message, p.outcome n = .error (.rateLimit message none)

/-- Of the providers that are reached, only the last one of the chain ends with
an exception outside `LLMProviderError`, and none overflows. -/
def AllCaught (retries : Nat) : List (Provider R) → Prop
  | [] => True
  | p :: rest =>
      ¬Overflows retries p ∧
        match p.outcome (lastAttempt retries p) with
        | .ok _ | .error (.auth _) => True
        | .error (.other _) => rest = []
        | .error _ => AllCaught retries rest

/-! ## The attempts of one provider -/

variable {mode : Mode} {p : Provider R} {retries : Nat}

theorem lastAttempt_cases (retries : Nat) (p : Provider R) :
    (lastAttempt retries p < retries ∧ ¬RateLimited (p.outcome (lastAttempt retries p)) ∨
      lastAttempt retries p = retries) ∧
    ∀ n < lastAttempt retries p, RateLimited (p.outcome n) := by
  unfold lastAttempt
  cases hfind : (List.range retries).find? fun n => ¬RateLimited (p.outcome n) with
  | none =>
      rw [List.find?_range_eq_none] at hfind
      refine ⟨.inr rfl, fun n hn => ?_⟩
      simpa using hfind n hn
  | some k =>
      rcases List.find?_range_eq_some.mp hfind with ⟨hnot, hmem, hbefore⟩
      refine ⟨.inl ⟨List.mem_range.mp hmem, by simpa using hnot⟩, fun n hn => ?_⟩
      simpa using hbefore n hn

theorem lastAttempt_le (retries : Nat) (p : Provider R) : lastAttempt retries p ≤ retries := by
  rcases lastAttempt_cases retries p with ⟨⟨hlt, -⟩ | heq, -⟩
  · exact hlt.le
  · exact heq.le

theorem rateLimited_of_lt {n : Nat} (h : n < lastAttempt retries p) :
    RateLimited (p.outcome n) :=
  (lastAttempt_cases retries p).2 n h

theorem not_rateLimited_last (h : lastAttempt retries p < retries) :
    ¬RateLimited (p.outcome (lastAttempt retries p)) := by
  rcases lastAttempt_cases retries p with ⟨⟨-, hnot⟩ | heq, -⟩
  · exact hnot
  · omega

@[simp] theorem attempts_self (n : Nat) : attempts n n = [.attempt n] := by
  simp [attempts]

theorem attempts_of_lt {first last : Nat} (h : first < last) :
    attempts first last = .attempt first :: .sleep first :: attempts (first + 1) last := by
  have hlength : last - first = (last - (first + 1)) + 1 := by omega
  unfold attempts
  rw [hlength, List.range'_succ]
  simp

theorem attempts_length (first last : Nat) :
    (attempts first last).length = 2 * (last - first) + 1 := by
  simp [attempts, Nat.mul_comm]

theorem rateLimited_iff {result : Except CallError R} :
    RateLimited result ↔ ∃ message hint, result = .error (.rateLimit message hint) := by
  constructor
  · intro h
    match result, h with
    | .error (.rateLimit message hint), _ => exact ⟨message, hint, rfl⟩
  · rintro ⟨message, hint, rfl⟩
    exact trivial

theorem jitter_bounds (mode : Mode) (random : { x : ℚ // 0 ≤ x ∧ x < 1 }) :
    0 ≤ jitter mode random ∧ jitter mode random ≤ 1 := by
  have hzero : mode.round 0 = 0 := by simpa using mode.round_nat (m := 0) (by omega)
  have hone : mode.round 1 = 1 := by simpa using mode.round_nat (m := 1) (by omega)
  have hlow : 0 ≤ mode.round (random / 2) := by
    have hmono := mode.mono (show (0 : ℚ) ≤ random / 2 by linarith [random.2.1])
    rwa [hzero] at hmono
  have hhigh : mode.round (random / 2) ≤ 1 / 2 := by
    have hmono := mode.mono (show (random : ℚ) / 2 ≤ 1 / 2 by linarith [random.2.2])
    rwa [mode.round_half] at hmono
  constructor
  · have hmono := mode.mono (show 0 ≤ 1 / 2 + mode.round (random / 2) by linarith)
    rwa [hzero] at hmono
  · have hmono := mode.mono (show 1 / 2 + mode.round (random / 2) ≤ 1 by linarith)
    rwa [hone] at hmono

/-- There is a delay, within its bounds, unless the exponential one overflows. -/
theorem nextDelay_cases (mode : Mode) (attempt : Nat) (hint : Option Number)
    (random : { x : ℚ // 0 ≤ x ∧ x < 1 }) :
    (¬(1024 ≤ attempt ∧ hint = none) ∧
      ∃ delay, nextDelay mode attempt hint random = .ok delay ∧ delay.Within 0 maxDelay) ∨
    ((1024 ≤ attempt ∧ hint = none) ∧
      ∃ message, nextDelay mode attempt hint random = .error (.other message)) := by
  have hscale : ∀ delay : Number,
      ((Number.min (.finite maxDelay) (Number.max (.finite 0) delay)).scale mode
        (jitter mode random)).Within 0 maxDelay := by
    intro delay
    have hjitter := jitter_bounds mode random
    apply Number.scale_within mode _ (by decide) hjitter.1 hjitter.2
    exact Number.min_max_within (by norm_num [maxDelay]) delay
  cases hint with
  | some delay => exact .inl ⟨by simp, _, rfl, hscale delay⟩
  | none =>
      by_cases hattempt : attempt < 1024
      · refine .inl ⟨by omega, _, ?_, hscale (.finite (1 / 2 * 2 ^ attempt))⟩
        simp only [nextDelay, exponentialDelay, if_pos hattempt]
        rfl
      · refine .inr ⟨⟨by omega, rfl⟩, "int too large to convert to float", ?_⟩
        simp only [nextDelay, exponentialDelay, if_neg hattempt]
        rfl

/-- The loop ends with an attempt that is not rate limited, or the last one. -/
theorem retryFrom_final {left attempt : Nat}
    (h : left = 0 ∨ ¬RateLimited (p.outcome attempt)) :
    retryFrom mode p left attempt = ([.attempt attempt], p.outcome attempt) := by
  unfold retryFrom
  split
  · rename_i left message hint houtcome
    rcases h with hzero | hnot
    · cases hzero
    · exact absurd (rateLimited_iff.mpr ⟨message, hint, houtcome⟩) hnot
  · rfl

theorem retryFrom_next {left attempt : Nat} {message : String} {hint : Option Number}
    {delay : Number} (houtcome : p.outcome attempt = .error (.rateLimit message hint))
    (hdelay : nextDelay mode attempt hint (p.random attempt) = .ok delay) :
    retryFrom mode p (left + 1) attempt =
      (.attempt attempt :: .sleep attempt delay :: (retryFrom mode p left (attempt + 1)).1,
        (retryFrom mode p left (attempt + 1)).2) := by
  conv_lhs => unfold retryFrom
  rw [houtcome]
  simp only [hdelay]

theorem retryFrom_overflow {left attempt : Nat} {message : String} {hint : Option Number}
    {error : CallError} (houtcome : p.outcome attempt = .error (.rateLimit message hint))
    (hdelay : nextDelay mode attempt hint (p.random attempt) = .error error) :
    retryFrom mode p (left + 1) attempt = ([.attempt attempt], .error error) := by
  unfold retryFrom
  rw [houtcome]
  simp only [hdelay]

theorem retryFrom_short {left attempt n : Nat} {delay : Number}
    (h : .sleep n delay ∈ (retryFrom mode p left attempt).1) : delay.Within 0 maxDelay := by
  induction left generalizing attempt with
  | zero =>
      rw [retryFrom_final (.inl rfl)] at h
      simp at h
  | succ left ih =>
      by_cases hlimited : RateLimited (p.outcome attempt)
      · rcases rateLimited_iff.mp hlimited with ⟨message, hint, houtcome⟩
        rcases nextDelay_cases mode attempt hint (p.random attempt) with
          ⟨-, delay', hdelay, hwithin⟩ | ⟨-, message', herror⟩
        · rw [retryFrom_next houtcome hdelay] at h
          simp only [List.mem_cons, reduceCtorEq, Event.sleep.injEq, false_or] at h
          rcases h with ⟨-, rfl⟩ | hlater
          · exact hwithin
          · exact ih hlater
        · rw [retryFrom_overflow houtcome herror] at h
          simp at h
      · rw [retryFrom_final (.inr hlimited)] at h
        simp at h

/-- Without an overflow the attempts are the ones of the reference. -/
theorem retryFrom_follows {left attempt : Nat} (hretries : attempt + left = retries)
    (hattempt : attempt ≤ lastAttempt retries p) (h : ¬Overflows retries p) :
    (retryFrom mode p left attempt).1.map Event.action =
        attempts attempt (lastAttempt retries p) ∧
      (retryFrom mode p left attempt).2 = p.outcome (lastAttempt retries p) := by
  have hlast := lastAttempt_le retries p
  induction left generalizing attempt with
  | zero =>
      have heq : attempt = lastAttempt retries p := by omega
      rw [retryFrom_final (.inl rfl), ← heq]
      simp [Event.action]
  | succ left ih =>
      by_cases hlimited : RateLimited (p.outcome attempt)
      · -- then this is not the last attempt
        have hlt : attempt < lastAttempt retries p := by
          by_contra hnot
          have heq : attempt = lastAttempt retries p := by omega
          have hbefore : lastAttempt retries p < retries := by omega
          apply not_rateLimited_last hbefore
          rwa [← heq]
        rcases rateLimited_iff.mp hlimited with ⟨message, hint, houtcome⟩
        rcases nextDelay_cases mode attempt hint (p.random attempt) with
          ⟨-, delay, hdelay, -⟩ | ⟨⟨hlarge, rfl⟩, -⟩
        · have hlater := @ih (attempt + 1) (by omega) (by omega)
          rw [retryFrom_next houtcome hdelay, attempts_of_lt hlt, ← hlater.1]
          exact ⟨rfl, hlater.2⟩
        · exact absurd ⟨attempt, hlarge, hlt, message, houtcome⟩ h
      · have heq : attempt = lastAttempt retries p := by
          by_contra hne
          have hlt : attempt < lastAttempt retries p := by omega
          exact hlimited (rateLimited_of_lt hlt)
        rw [retryFrom_final (.inr hlimited), ← heq]
        simp [Event.action]

/-- With an overflow the attempts stop too early, with an exception that is not
the provider's. -/
theorem retryFrom_overflows {left attempt n : Nat} {message : String}
    (hretries : attempt + left = retries) (hattempt : attempt ≤ n) (hlarge : 1024 ≤ n)
    (hlt : n < lastAttempt retries p)
    (houtcome : p.outcome n = .error (.rateLimit message none)) :
    (∃ message, (retryFrom mode p left attempt).2 = .error (.other message)) ∧
      (retryFrom mode p left attempt).1.length < 2 * (lastAttempt retries p - attempt) + 1 := by
  have hlast := lastAttempt_le retries p
  induction left generalizing attempt with
  | zero => omega
  | succ left ih =>
      have hbefore : attempt < lastAttempt retries p := by omega
      rcases rateLimited_iff.mp (rateLimited_of_lt hbefore) with ⟨message', hint, hnow⟩
      rcases nextDelay_cases mode attempt hint (p.random attempt) with
        ⟨hno, delay, hdelay, -⟩ | ⟨-, message'', herror⟩
      · have hne : attempt ≠ n := by
          rintro rfl
          rw [houtcome] at hnow
          simp only [Except.error.injEq, CallError.rateLimit.injEq] at hnow
          exact hno ⟨hlarge, hnow.2.symm⟩
        have hlater := @ih (attempt + 1) (by omega) (by omega)
        rw [retryFrom_next hnow hdelay]
        refine ⟨hlater.1, ?_⟩
        have hlength := hlater.2
        simp only [List.length_cons]
        omega
      · rw [retryFrom_overflow hnow herror]
        refine ⟨⟨message'', rfl⟩, ?_⟩
        simp only [List.length_singleton]
        omega

theorem retryWithBackoff_follows (mode : Mode) (retries : Int)
    (h : ¬Overflows retries.toNat p) :
    (retryWithBackoff mode retries p).1.map Event.action =
        attempts 0 (lastAttempt retries.toNat p) ∧
      (retryWithBackoff mode retries p).2 = p.outcome (lastAttempt retries.toNat p) :=
  retryFrom_follows (Nat.zero_add _) (Nat.zero_le _) h

theorem retryWithBackoff_overflows (mode : Mode) (retries : Int)
    (h : Overflows retries.toNat p) :
    (∃ message, (retryWithBackoff mode retries p).2 = .error (.other message)) ∧
      (retryWithBackoff mode retries p).1.length < 2 * lastAttempt retries.toNat p + 1 := by
  rcases h with ⟨n, hlarge, hlt, message, houtcome⟩
  exact retryFrom_overflows (Nat.zero_add _) (Nat.zero_le n) hlarge hlt houtcome

/-! ## The chain and the reference -/

variable {i : Nat} {providers : List (Provider R)}

/-- What the caller sees of a call: events without delays, and the verdict. -/
def seen (run : List (Nat × Event) × Except CallError R) : List (Nat × Action) × Verdict R :=
  (run.1.map fun (i, event) => (i, event.action), verdict run.2)

theorem map_tag (events : List Event) :
    (events.map (i, ·)).map (fun (i, event) => (i, event.action)) =
      (events.map Event.action).map (i, ·) := by
  simp [Function.comp_def]

/-- The attempts of the first provider are always there. -/
theorem reference_length_ge (retries i : Nat) (p : Provider R) (providers : List (Provider R)) :
    2 * lastAttempt retries p + 1 ≤ (reference retries i (p :: providers)).1.length := by
  have hmine := attempts_length 0 (lastAttempt retries p)
  unfold reference
  split
  all_goals simp only [List.length_append, List.length_map]
  all_goals omega

theorem seen_ended {events : List Event} {result : Except CallError R} :
    seen (events.map (i, ·), result) = ((events.map Event.action).map (i, ·), verdict result) := by
  simp only [seen, map_tag]

/-- A provider after which the chain goes on. -/
theorem seen_goes_on {events : List Event} {later : List (Nat × Event) × Except CallError R} :
    seen (events.map (i, ·) ++ later.1, later.2) =
      ((events.map Event.action).map (i, ·) ++ (seen later).1, (seen later).2) := by
  simp only [seen, List.map_append, map_tag]

/-- The chain does what the reference does exactly if whatever the providers raise
is caught. -/
theorem callFrom_follows_iff (mode : Mode) (retries : Int) (i : Nat) (lastError : Option CallError)
    (providers : List (Provider R)) :
    seen (callFrom mode retries i lastError providers) = reference retries.toNat i providers ↔
      AllCaught retries.toNat providers := by
  induction providers generalizing i lastError with
  | nil => exact iff_of_true rfl trivial
  | cons p rest ih =>
      by_cases hover : Overflows retries.toNat p
      · -- the call ends in the middle of the attempts of this provider
        refine iff_of_false ?_ fun h => h.1 hover
        rcases retryWithBackoff_overflows mode retries hover with ⟨⟨message, herror⟩, hshort⟩
        have hcall : callFrom mode retries i lastError (p :: rest) =
            ((retryWithBackoff mode retries p).1.map (i, ·), .error (.other message)) := by
          simp only [callFrom, herror]
        intro heq
        have hlength := congrArg (fun r => r.1.length) heq
        have hreference := reference_length_ge retries.toNat i p rest
        rw [hcall, seen_ended] at hlength
        simp only [List.length_map] at hlength
        omega
      · rcases retryWithBackoff_follows mode retries hover with ⟨hactions, hresult⟩
        rcases hlast : p.outcome (lastAttempt retries.toNat p) with error | response
        · rw [hlast] at hresult
          cases error with
          | auth message =>
              simp only [callFrom, reference, AllCaught, hover, hresult, hlast, seen_ended,
                hactions, verdict, not_false_eq_true, and_self]
          | other message =>
              -- the chain ends here, the reference only if this is the last provider
              simp only [callFrom, reference, AllCaught, hover, hresult, hlast, seen_ended,
                hactions, verdict, not_false_eq_true, true_and]
              constructor
              · intro heq
                cases rest with
                | nil => rfl
                | cons q rest =>
                    have hlength := congrArg (fun r => r.1.length) heq
                    have hmore := reference_length_ge retries.toNat (i + 1) q rest
                    simp only [List.length_append] at hlength
                    omega
              · rintro rfl
                simp [reference]
          | rateLimit message _ | provider message =>
              simp only [callFrom, reference, AllCaught, hover, hresult, hlast, seen_goes_on,
                hactions, verdict, not_false_eq_true, true_and, Prod.mk.injEq,
                List.append_cancel_left_eq]
              rw [← ih (i + 1), Prod.ext_iff]
        · simp only [callFrom, reference, AllCaught, hover, hresult, hlast, seen_ended, hactions,
            verdict, not_false_eq_true, and_self]

/-! ## Bounds -/

theorem attempt_mem_attempts {first last n : Nat} (h : first ≤ last) :
    .attempt n ∈ attempts first last ↔ first ≤ n ∧ n ≤ last := by
  simp only [attempts, List.mem_append, List.mem_flatMap, List.mem_range'_1, List.mem_cons,
    Action.attempt.injEq, reduceCtorEq, List.not_mem_nil, or_false]
  constructor
  · rintro (⟨k, hk, rfl⟩ | rfl)
    · omega
    · omega
  · intro hn
    by_cases hlast : n = last
    · exact .inr hlast
    · exact .inl ⟨n, by omega, rfl⟩

def Action.isAttempt : Action → Bool
  | .attempt _ => true
  | .sleep _ => false

theorem countP_attempts (first last : Nat) :
    (attempts first last).countP Action.isAttempt = last - first + 1 := by
  have hpair : ∀ n, [Action.attempt n, .sleep n].countP Action.isAttempt = 1 := fun n => rfl
  simp [attempts, List.countP_flatMap, Function.comp_def, hpair, Action.isAttempt]

/-- The attempts of the provider at `i` among those of the reference. -/
def attemptCount (i : Nat) (actions : List (Nat × Action)) : Nat :=
  actions.countP fun (j, action) => j == i && action.isAttempt

theorem attemptsOf_eq (i : Nat) (run : List (Nat × Event)) :
    attemptsOf i run = attemptCount i (run.map fun (i, event) => (i, event.action)) := by
  unfold attemptsOf attemptCount
  rw [List.countP_map]
  congr 1
  funext ⟨j, event⟩
  cases event <;> rfl

theorem attemptCount_tagged (i j : Nat) (actions : List Action) :
    attemptCount i (actions.map (j, ·)) =
      if j = i then actions.countP Action.isAttempt else 0 := by
  unfold attemptCount
  rw [List.countP_map]
  by_cases h : j = i
  · simp [h, Function.comp_def]
  · simp [h, Function.comp_def]

theorem reference_index {x : Nat × Action} (h : x ∈ (reference retries i providers).1) :
    i ≤ x.1 := by
  induction providers generalizing i with
  | nil => simp [reference] at h
  | cons p rest ih =>
      have hmine : ∀ x ∈ (attempts 0 (lastAttempt retries p)).map (i, ·), i ≤ x.1 := by
        intro x hx
        rcases List.mem_map.mp hx with ⟨action, -, rfl⟩
        exact le_refl i
      unfold reference at h
      split at h
      · rcases List.mem_append.mp h with hx | hx
        · exact hmine x hx
        · have hlater := ih hx
          omega
      · exact hmine x h

theorem attemptCount_reference_le (retries i : Nat) (providers : List (Provider R)) (j : Nat) :
    attemptCount j (reference retries i providers).1 ≤ retries + 1 := by
  induction providers generalizing i with
  | nil => simp [reference, attemptCount]
  | cons p rest ih =>
      have hlast := lastAttempt_le retries p
      have hmine : attemptCount j ((attempts 0 (lastAttempt retries p)).map (i, ·)) =
          if i = j then lastAttempt retries p + 1 else 0 := by
        rw [attemptCount_tagged, countP_attempts]
        simp
      unfold reference
      split
      · -- the providers after this one have other positions
        have hlater : i = j →
            attemptCount j (reference retries (i + 1) rest).1 = 0 := by
          rintro rfl
          unfold attemptCount
          rw [List.countP_eq_zero]
          intro x hx
          have hindex := reference_index hx
          have hne : x.1 ≠ i := by omega
          simp [hne]
        have hrest := ih (i + 1)
        simp only [attemptCount, List.countP_append] at hmine hlater hrest ⊢
        rw [hmine]
        by_cases hij : i = j
        · rw [if_pos hij, hlater hij]
          omega
        · rw [if_neg hij]
          omega
      · rw [hmine]
        split
        · omega
        · omega

theorem reference_limited {j n : Nat} (h : (j, .attempt (n + 1)) ∈ (reference retries i providers).1)
    {p : Provider R} (hp : providers[j - i]? = some p) : RateLimited (p.outcome n) := by
  induction providers generalizing i with
  | nil => simp [reference] at h
  | cons q rest ih =>
      have hmine : (j, .attempt (n + 1)) ∈ (attempts 0 (lastAttempt retries q)).map (i, ·) →
          RateLimited (p.outcome n) := by
        intro hmem
        rcases List.mem_map.mp hmem with ⟨action, haction, heq⟩
        obtain ⟨rfl, rfl⟩ := Prod.mk.inj heq
        have hle := (attempt_mem_attempts (Nat.zero_le _)).mp haction
        simp only [Nat.sub_self, List.getElem?_cons_zero, Option.some.injEq] at hp
        rw [← hp]
        have hlt : n < lastAttempt retries q := by omega
        exact rateLimited_of_lt hlt
      unfold reference at h
      split at h
      · rcases List.mem_append.mp h with hx | hx
        · exact hmine hx
        · have hindex : i + 1 ≤ j := reference_index hx
          apply ih hx
          have hsub : j - i = (j - (i + 1)) + 1 := by omega
          rwa [hsub, List.getElem?_cons_succ] at hp
      · exact hmine h

theorem callFrom_short {retries : Int} {lastError : Option CallError} {j n : Nat} {delay : Number}
    (h : (j, .sleep n delay) ∈ (callFrom mode retries i lastError providers).1) :
    delay.Within 0 maxDelay := by
  induction providers generalizing i lastError with
  | nil => simp [callFrom] at h
  | cons p rest ih =>
      have hmine : (j, .sleep n delay) ∈ (retryWithBackoff mode retries p).1.map (i, ·) →
          delay.Within 0 maxDelay := by
        intro hmem
        rcases List.mem_map.mp hmem with ⟨event, hevent, heq⟩
        obtain ⟨rfl, rfl⟩ := Prod.mk.inj heq
        exact retryFrom_short hevent
      simp only [callFrom] at h
      split at h
      · exact hmine h
      · exact hmine h
      · exact hmine h
      · rcases List.mem_append.mp h with hx | hx
        · exact hmine hx
        · exact ih hx

/-- With the breaker closed, a call of the chain follows the reference exactly if
the setting is not negative and whatever the providers raise is caught. -/
theorem semantics_iff (cfg : Settings) (seconds : ℚ → String) (retries : Int)
    (chain : FallbackChain R) (now : ℚ) (breaker : CircuitBreaker)
    (hclosed : breaker.state = .closed) :
    Semantics retries chain.providers (chain.call mode cfg seconds retries now breaker) ↔
      0 ≤ retries ∧ AllCaught retries.toNat chain.providers := by
  have hbefore : beforeCall cfg now breaker = .ok breaker := by
    simp [beforeCall, hclosed]
  have hcall : chain.call mode cfg seconds retries now breaker =
      callFrom mode retries 0 none chain.providers := by
    simp only [FallbackChain.call, hbefore]
  rw [hcall, ← callFrom_follows_iff mode retries 0 none chain.providers]
  constructor
  · intro h
    refine ⟨?_, Prod.ext h.actions h.outcome⟩
    -- the first attempt is made whatever the setting
    have hfew := h.few 0
    have hcount : 0 < attemptsOf 0 (callFrom mode retries 0 none chain.providers).1 := by
      rw [attemptsOf_eq, h.actions]
      cases hproviders : chain.providers with
      | nil => exact absurd hproviders chain.nonempty
      | cons p rest =>
          apply List.countP_pos_iff.mpr
          refine ⟨(0, .attempt 0), ?_, rfl⟩
          have hmem : (.attempt 0) ∈ attempts 0 (lastAttempt retries.toNat p) :=
            (attempt_mem_attempts (Nat.zero_le _)).mpr ⟨le_refl 0, Nat.zero_le _⟩
          unfold reference
          split
          · exact List.mem_append_left _ (List.mem_map_of_mem hmem)
          · exact List.mem_map_of_mem hmem
    omega
  · rintro ⟨hretries, hseen⟩
    have hactions := congrArg Prod.fst hseen
    have houtcome := congrArg Prod.snd hseen
    refine ⟨hactions, houtcome, ?_, ?_, ?_⟩
    · intro i
      have hle := attemptCount_reference_le retries.toNat 0 chain.providers i
      rw [attemptsOf_eq]
      simp only [seen] at hactions
      rw [hactions]
      omega
    · intro i n p hmem hp
      have hmem' : (i, .attempt (n + 1)) ∈ (reference retries.toNat 0 chain.providers).1 := by
        rw [← hactions]
        exact List.mem_map_of_mem hmem
      exact reference_limited hmem' hp
    · intro i n delay hmem
      exact callFrom_short hmem

/-! ## Two models -/

/-- Attempts that go as listed, and as the last one ever after. -/
def Provider.ofList (outcomes : List (Except CallError String)) (last : Except CallError String) :
    Provider String where
  outcome n := outcomes.getD n last
  random _ := ⟨0, by norm_num, by norm_num⟩

/-- The cheap model is rate limited twice and then down, the other one answers. -/
def busyChain : FallbackChain String where
  providers := [
    .ofList [.error (.rateLimit "OpenAI rate limit exceeded" (some (.finite 20))),
      .error (.rateLimit "OpenAI rate limit exceeded" none)]
      (.error (.provider "OpenAI API error 500: ")),
    .ofList [] (.ok "answer")]
  nonempty := by simp

theorem busyChain_semantics :
    Semantics 2 busyChain.providers
      (busyChain.call Rounding.exact {} (fun _ => "30") 2 0 {}) := by
  refine (semantics_iff {} (fun _ => "30") 2 busyChain 0 {} rfl).mpr ⟨by omega, ?_⟩
  have hlast : lastAttempt 2 (Provider.ofList
      [.error (.rateLimit "OpenAI rate limit exceeded" (some (.finite 20))),
        .error (.rateLimit "OpenAI rate limit exceeded" none)]
      (.error (.provider "OpenAI API error 500: "))) = 2 := by decide
  have hlast' : lastAttempt 2 (Provider.ofList [] (.ok "answer")) = 0 := by decide
  simp only [busyChain, AllCaught, Overflows, hlast, hlast', Int.reduceToNat]
  refine ⟨?_, ?_, trivial⟩
  · rintro ⟨n, hlarge, hlt, -⟩
    omega
  · rintro ⟨n, hlarge, hlt, -⟩
    omega

/-- The cheap model cannot be reached, the other one would answer. -/
def unreachableChain : FallbackChain String where
  providers := [
    .ofList [] (.error (.other "All connection attempts failed")),
    .ofList [] (.ok "answer")]
  nonempty := by simp

theorem unreachableChain_not_semantics :
    ¬Semantics 2 unreachableChain.providers
      (unreachableChain.call Rounding.exact {} (fun _ => "30") 2 0 {}) := by
  intro h
  have houtcome := h.outcome
  have hcode : verdict (unreachableChain.call Rounding.exact {} (fun _ => "30") 2 0 {}).2 =
      .failed := by decide
  have hreference : (reference 2 0 unreachableChain.providers).2 = .returned "answer" := by decide
  rw [hcode] at houtcome
  exact absurd (houtcome.trans hreference) (by decide)

end Plaidify.Resilience
