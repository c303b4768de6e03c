import Mathlib.Algebra.Order.Ring.Rat
import Mathlib.Tactic.Linarith
import Plaidify.Lib.Parties
import Plaidify.Lib.Runs

/-!
# The circuit breaker

`CircuitBreaker` of `src/src/core/circuit_breaker.py`, with any number of calls
under way. Its critical sections contain no `await`, so a call is admitted in
one step, and its outcome is recorded in the step in which it ends. A call that
is cancelled records nothing: `CancelledError` is no `Exception`.

While the breaker is half-open one trial should be in flight, and while it is
open no call should get through. `disciplined_iff` says in which runs this is
so. The code admits every call that finds the breaker half-open, and it takes
any success for a recovery, also one of a call that was admitted before the
breaker opened.
-/

namespace Plaidify.Resilience

/-! ## The breaker -/

structure Settings where
  failureThreshold : Int := 5
  resetTimeout : ℚ := 30

/-- `self.failure_threshold`. -/
def Settings.threshold (cfg : Settings) : Int :=
  max 1 cfg.failureThreshold

/-- `self.reset_timeout`. -/
def Settings.timeout (cfg : Settings) : ℚ :=
  max 0 cfg.resetTimeout

inductive CircuitState where
  | closed
  | «open»
  | halfOpen
deriving DecidableEq

structure CircuitBreaker where
  state : CircuitState := .closed
  failures : Int := 0
  openedAt : ℚ := 0
deriving DecidableEq

/-- `CircuitBreakerOpenError`. -/
structure CircuitBreakerOpenError where
  retryAfter : ℚ

variable (cfg : Settings)

/-- `_before_call`. -/
def beforeCall (now : ℚ) (breaker : CircuitBreaker) :
    Except CircuitBreakerOpenError CircuitBreaker :=
  if breaker.state = .open then
    let elapsed := now - breaker.openedAt
    if cfg.timeout ≤ elapsed then .ok { breaker with state := .halfOpen }
    else .error ⟨cfg.timeout - elapsed⟩
  else .ok breaker

/-- `_on_success`. -/
def onSuccess (breaker : CircuitBreaker) : CircuitBreaker :=
  { breaker with failures := 0, state := .closed }

/-- `_on_failure` opens the breaker. -/
def opens (breaker : CircuitBreaker) : Bool :=
  breaker.state = .halfOpen ∨ cfg.threshold ≤ breaker.failures + 1

/-- `_on_failure`. -/
def onFailure (now : ℚ) (breaker : CircuitBreaker) : CircuitBreaker :=
  if opens cfg breaker then
    { failures := breaker.failures + 1, state := .open, openedAt := now }
  else { breaker with failures := breaker.failures + 1 }

/-! ## Calls -/

/-- A call that was admitted, as a trial if the breaker was half-open then. -/
structure InFlight where
  id : Nat
  trial : Bool
deriving DecidableEq

structure State where
  now : ℚ
  breaker : CircuitBreaker
  inFlight : List InFlight
  /-- History variable: the breaker has opened at least once. -/
  everOpened : Bool
deriving DecidableEq

inductive Outcome where
  | success
  | failure
  | cancelled
deriving DecidableEq

inductive Label where
  /-- A new call asks to be admitted. -/
  | call (id : Nat)
  /-- The function of a call that was admitted comes back. -/
  | finish (id : Nat) (outcome : Outcome)
  | wait (seconds : ℚ)
deriving DecidableEq

def init (now : ℚ) : State where
  now
  breaker := {}
  inFlight := []
  everOpened := false

/-- `call`, from the `await` of the function on. -/
def record (s : State) (others : List InFlight) : Outcome → State
  | .success => { s with breaker := onSuccess s.breaker, inFlight := others }
  | .failure =>
      { s with
        breaker := onFailure cfg s.now s.breaker
        inFlight := others
        everOpened := s.everOpened || opens cfg s.breaker }
  | .cancelled => { s with inFlight := others }

def step (s : State) : Label → Option State
  | .call id =>
      match beforeCall cfg s.now s.breaker with
      | .error _ => some s
      | .ok breaker =>
          let admitted := { id, trial := breaker.state = .halfOpen }
          some { s with breaker, inFlight := admitted :: s.inFlight }
  | .finish id outcome =>
      (Parties.pick (fun c : InFlight => c.id == id) s.inFlight).map fun (_, others) =>
        record cfg s others outcome
  | .wait seconds => if 0 ≤ seconds then some { s with now := s.now + seconds } else none

/-! ## Discipline -/

/-- The trial calls in flight. -/
def trials (s : State) : Nat :=
  s.inFlight.countP (·.trial)

/-- The breaker has opened, and the timeout has not elapsed since it did. -/
def Shut (s : State) : Prop :=
  s.everOpened = true ∧ s.now < s.breaker.openedAt + cfg.timeout

/-- One trial at a time, and nothing gets through a breaker that is shut. -/
structure Disciplined (s : State) : Prop where
  oneTrial : s.breaker.state = .halfOpen → trials s ≤ 1
  staysOpen : Shut cfg s → s.breaker.state = .open
  rejects : Shut cfg s → ∀ id t, step cfg s (.call id) = some t → t.inFlight = s.inFlight

/-- No call succeeds while the breaker is open and the timeout has not elapsed,
and no call becomes a trial while another one is in flight. -/
def OnTime (s : State) : Label → Prop
  | .call _ =>
      s.breaker.state = .halfOpen ∨
          (s.breaker.state = .open ∧ cfg.timeout ≤ s.now - s.breaker.openedAt) →
        trials s = 0
  | .finish _ .success =>
      s.breaker.state = .open → cfg.timeout ≤ s.now - s.breaker.openedAt
  | _ => True

instance (s : State) (l : Label) : Decidable (OnTime cfg s l) :=
  match l with
  | .call _ => inferInstanceAs (Decidable (_ ∨ _ → _))
  | .finish _ .success => inferInstanceAs (Decidable (_ → _))
  | .finish _ .failure => isTrue trivial
  | .finish _ .cancelled => isTrue trivial
  | .wait _ => isTrue trivial

variable {cfg} {s t : State}

/-- A breaker that is shut and open lets nothing through. -/
theorem Disciplined.of_staysOpen (hone : s.breaker.state = .halfOpen → trials s ≤ 1)
    (hopen : Shut cfg s → s.breaker.state = .open) : Disciplined cfg s := by
  refine ⟨hone, hopen, ?_⟩
  intro hshut id t h
  have hearly : ¬ cfg.timeout ≤ s.now - s.breaker.openedAt := by
    intro h
    have := hshut.2
    linarith
  have hrejected : step cfg s (.call id) = some s := by
    simp [step, beforeCall, hopen hshut, hearly]
  obtain rfl : s = t := Option.some.inj (hrejected.symm.trans h)
  rfl

/-- The breaker leaves `closed` by opening. -/
def Inv (s : State) : Prop :=
  s.breaker.state ≠ .closed → s.everOpened = true

theorem init_inv (now : ℚ) : Inv (init now) := fun h => absurd rfl h

theorem init_disciplined (now : ℚ) : Disciplined cfg (init now) := by
  refine .of_staysOpen (by simp [init]) ?_
  intro hshut
  exact absurd hshut.1 (by simp [init])

theorem trials_cons (c : InFlight) (s : State) (breaker : CircuitBreaker) :
    trials { s with breaker, inFlight := c :: s.inFlight } =
      trials s + if c.trial then 1 else 0 :=
  List.countP_cons

theorem trials_pick {id : Nat} {c : InFlight} {others : List InFlight}
    (h : Parties.pick (fun c : InFlight => c.id == id) s.inFlight = some (c, others)) :
    others.countP (·.trial) ≤ trials s := by
  unfold trials
  rw [(Parties.pick_perm h).countP_eq, List.countP_cons]
  omega

/-- The ways in which a call is answered. -/
theorem call_cases {id : Nat} (h : step cfg s (.call id) = some t) :
    (s.breaker.state = .closed ∧ t = { s with inFlight := ⟨id, false⟩ :: s.inFlight }) ∨
    (s.breaker.state = .halfOpen ∧ t = { s with inFlight := ⟨id, true⟩ :: s.inFlight }) ∨
    (s.breaker.state = .open ∧ cfg.timeout ≤ s.now - s.breaker.openedAt ∧
      t = { s with
        breaker := { s.breaker with state := .halfOpen }
        inFlight := ⟨id, true⟩ :: s.inFlight }) ∨
    (s.breaker.state = .open ∧ ¬ cfg.timeout ≤ s.now - s.breaker.openedAt ∧ t = s) := by
  rcases hstate : s.breaker.state with _ | _ | _
  · left
    simpa [step, beforeCall, hstate, eq_comm] using h
  · by_cases hlate : cfg.timeout ≤ s.now - s.breaker.openedAt
    · right; right; left
      simpa [step, beforeCall, hstate, hlate, eq_comm] using h
    · right; right; right
      simpa [step, beforeCall, hstate, hlate, eq_comm] using h
  · right; left
    simpa [step, beforeCall, hstate, eq_comm] using h

theorem finish_cases {id : Nat} {outcome : Outcome}
    (h : step cfg s (.finish id outcome) = some t) :
    ∃ c others, Parties.pick (fun c : InFlight => c.id == id) s.inFlight = some (c, others) ∧
      t = record cfg s others outcome := by
  obtain ⟨⟨c, others⟩, hpick, rfl⟩ := Option.map_eq_some_iff.mp h
  exact ⟨c, others, hpick, rfl⟩

theorem wait_cases {seconds : ℚ} (h : step cfg s (.wait seconds) = some t) :
    0 ≤ seconds ∧ t = { s with now := s.now + seconds } := by
  simp only [step] at h
  split at h
  · exact ⟨‹_›, (Option.some.inj h).symm⟩
  · cases h

/-- A breaker that opens now is shut for the whole timeout, and open. -/
theorem onFailure_state (cfg : Settings) (now : ℚ) (breaker : CircuitBreaker) :
    ((onFailure cfg now breaker).state = .open ∧ opens cfg breaker = true) ∨
      (onFailure cfg now breaker = { breaker with failures := breaker.failures + 1 } ∧
        opens cfg breaker = false) := by
  unfold onFailure
  cases hopens : opens cfg breaker with
  | true => exact .inl ⟨rfl, rfl⟩
  | false => exact .inr ⟨rfl, rfl⟩

theorem step_inv {l : Label} (hs : Inv s) (h : step cfg s l = some t) : Inv t := by
  cases l with
  | call id =>
      rcases call_cases h with ⟨hstate, rfl⟩ | ⟨hstate, rfl⟩ | ⟨hstate, -, rfl⟩ | ⟨-, -, rfl⟩
      · exact hs
      · exact hs
      · exact fun _ => hs (by simp [hstate])
      · exact hs
  | finish id outcome =>
      obtain ⟨c, others, -, rfl⟩ := finish_cases h
      cases outcome with
      | success => exact fun hne => absurd rfl hne
      | cancelled => exact hs
      | failure =>
          rcases onFailure_state cfg s.now s.breaker with ⟨-, hopens⟩ | ⟨hkept, -⟩
          · intro _
            simp [record, hopens]
          · intro hne
            have hever := hs (by simpa [record, hkept] using hne)
            simp [record, hever]
  | wait seconds =>
      obtain ⟨-, rfl⟩ := wait_cases h
      exact hs

/-- A new trial keeps the discipline exactly when it is the only one. -/
theorem disciplined_trial_iff (id : Nat) (breaker : CircuitBreaker)
    (hstate : breaker.state = .halfOpen)
    (hopen : Shut cfg { s with breaker, inFlight := ⟨id, true⟩ :: s.inFlight } → False) :
    Disciplined cfg { s with breaker, inFlight := ⟨id, true⟩ :: s.inFlight } ↔ trials s = 0 := by
  have hcount := trials_cons ⟨id, true⟩ s breaker
  rw [if_pos rfl] at hcount
  constructor
  · intro h
    have := h.oneTrial hstate
    omega
  · intro h
    refine .of_staysOpen ?_ fun hshut => (hopen hshut).elim
    intro _
    omega

/-- A step keeps the discipline exactly when it is on time. -/
theorem disciplined_step_iff {l : Label} (hs : Inv s) (hd : Disciplined cfg s)
    (h : step cfg s l = some t) : Disciplined cfg t ↔ OnTime cfg s l := by
  -- a breaker that is shut is open, and the other way round until the timeout has elapsed
  have hshut : Shut cfg s ↔
      s.breaker.state = .open ∧ ¬ cfg.timeout ≤ s.now - s.breaker.openedAt := by
    constructor
    · intro hshut
      refine ⟨hd.staysOpen hshut, fun hle => ?_⟩
      have := hshut.2
      linarith
    · rintro ⟨hstate, hlt⟩
      refine ⟨hs (by simp [hstate]), ?_⟩
      rw [not_le] at hlt
      linarith
  cases l with
  | call id =>
      rcases call_cases h with ⟨hstate, rfl⟩ | ⟨hstate, rfl⟩ | ⟨hstate, hlate, rfl⟩ |
        ⟨hstate, hearly, rfl⟩
      · -- closed: the call is let through
        refine iff_of_true (.of_staysOpen (by simp [hstate]) hd.staysOpen) ?_
        simp [OnTime, hstate]
      · -- half-open: one more call is let through
        have hiff := disciplined_trial_iff id s.breaker hstate fun h =>
          absurd (hd.staysOpen h) (by simp [hstate])
        rw [hiff]
        simp [OnTime, hstate]
      · -- open and late: the call is the trial
        have hiff := disciplined_trial_iff (s := s) id
          { s.breaker with state := .halfOpen } rfl fun h => by
            have := h.2
            linarith
        rw [hiff]
        simp [OnTime, hstate, hlate]
      · -- open and early: the call is refused
        refine iff_of_true hd ?_
        simp [OnTime, hstate, hearly]
  | finish id outcome =>
      obtain ⟨c, others, hpick, rfl⟩ := finish_cases h
      have hcount := trials_pick hpick
      cases outcome with
      | success =>
          have hshut' : Shut cfg (record cfg s others .success) ↔ Shut cfg s := Iff.rfl
          -- a success closes the breaker, which it may not do before the timeout
          constructor
          · intro ht hstate
            by_contra hlate
            have hshut'' := hshut'.mpr (hshut.mpr ⟨hstate, hlate⟩)
            exact absurd (ht.staysOpen hshut'') (by simp [record, onSuccess])
          · intro hontime
            refine .of_staysOpen (by simp [record, onSuccess]) fun h => ?_
            obtain ⟨hstate, hlate⟩ := hshut.mp (hshut'.mp h)
            exact absurd (hontime hstate) hlate
      | failure =>
          refine iff_of_true ?_ trivial
          -- a failure opens it, or leaves it as it is
          rcases onFailure_state cfg s.now s.breaker with ⟨hopen, -⟩ | ⟨hkept, hopens⟩
          · exact .of_staysOpen (by simp [record, hopen]) fun _ => hopen
          · refine .of_staysOpen ?_ ?_
            · intro hhalf
              have hstate : s.breaker.state = .halfOpen := by simpa [record, hkept] using hhalf
              exact hcount.trans (hd.oneTrial hstate)
            · intro hshut'
              simp only [Shut, record, hkept, hopens, Bool.or_false] at hshut' ⊢
              exact hd.staysOpen hshut'
      | cancelled =>
          -- a cancelled call counts as neither
          exact iff_of_true (.of_staysOpen (fun hhalf => hcount.trans (hd.oneTrial hhalf))
            hd.staysOpen) trivial
  | wait seconds =>
      obtain ⟨hpos, rfl⟩ := wait_cases h
      refine iff_of_true (.of_staysOpen hd.oneTrial fun h => hd.staysOpen ⟨h.1, ?_⟩) trivial
      -- the timeout has not elapsed, for it had not before the wait either
      have hlt : s.now + seconds < s.breaker.openedAt + cfg.timeout := h.2
      linarith

/-- In every state of a run the breaker is disciplined, exactly when every call
of the run is on time. -/
theorem disciplined_iff (cfg : Settings) {now : ℚ} {u : State} {run : List Label}
    (h : Runs.exec (step cfg) (init now) run = some u) :
    (∀ before after t, run = before ++ after → Runs.exec (step cfg) (init now) before = some t →
      Disciplined cfg t) ↔ Runs.Along (step cfg) (OnTime cfg) (init now) run :=
  Runs.always_iff_along (fun _ _ _ hs h => step_inv hs h)
    (fun _ _ _ hs hd h => disciplined_step_iff hs hd h) (init_inv now) (init_disciplined now) h

/-- A call fails, the next one is rejected, and the trial after the timeout is a
success. -/
def recovery : List Label :=
  [.call 1, .finish 1 .failure, .call 2, .wait 30, .call 3, .finish 3 .success]

theorem recovery_disciplined :
    ∃ u, Runs.exec (step { failureThreshold := 1 }) (init 0) recovery = some u ∧
      ∀ before after t, recovery = before ++ after →
        Runs.exec (step { failureThreshold := 1 }) (init 0) before = some t →
        Disciplined { failureThreshold := 1 } t := by
  have hrun : Runs.exec (step { failureThreshold := 1 }) (init 0) recovery =
      some { init 30 with everOpened := true } := by decide +kernel
  exact ⟨_, hrun, (disciplined_iff { failureThreshold := 1 } hrun).mpr (by decide +kernel)⟩

/-- Of two calls one opens the breaker, and the late success of the other one
closes it at once. -/
theorem lateSuccess_not_disciplined :
    ¬ ∀ (cfg : Settings) (now : ℚ) (run : List Label) (u : State),
      Runs.exec (step cfg) (init now) run = some u → Disciplined cfg u := by
  intro hall
  have hd := hall { failureThreshold := 1 } 0
    [.call 1, .call 2, .finish 1 .failure, .finish 2 .success] _ rfl
  exact absurd (hd.staysOpen ⟨rfl, by decide +kernel⟩) (by decide)

end Plaidify.Resilience
