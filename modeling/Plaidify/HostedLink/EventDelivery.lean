import Plaidify.Lib.Rounding
import Plaidify.Lib.Runs

/-!
# The queue of the page's events

`EventDelivery` of `src/frontend-next/src/events.ts`, for any interleaving of its
calls, of the outcomes of its requests and of its timer. Events are numbered in
the order in which they are enqueued; the queue holds their numbers, since the
counter of attempts belongs to the event and outlives its place in the queue.

`durable_iff` says in which runs the delivery is durable. A completion takes away
whatever is at the head of the queue. That is its own event, unless the queue was
disposed of while the request was in flight, and something else was enqueued.
-/

namespace Plaidify.HostedLink.EventDelivery

open Rounding

/-! ## The class -/

structure Options where
  /-- Any JavaScript number. -/
  maxAttempts : Number := .finite 6

/-- `attempts >= this.options.maxAttempts`. -/
def Options.exhausted (options : Options) (attempts : Nat) : Bool :=
  options.maxAttempts ≠ .nan && !(Number.finite attempts).lt options.maxAttempts

/-- Its payload goes into the body of the request as it is. -/
structure QueuedEvent where
  event : String
  attempts : Nat := 0
deriving DecidableEq

/-- `next.attempts += 1`. -/
def QueuedEvent.failed (e : QueuedEvent) : QueuedEvent :=
  { e with attempts := e.attempts + 1 }

structure State where
  /-- The events ever enqueued, by number. -/
  events : List QueuedEvent := []
  queue : List Nat := []
  inFlight : Bool := false
  /-- The requests that are not answered yet. -/
  requests : List Nat := []
  /-- `this.retryTimer !== null`. -/
  timer : Bool := false
  /-- The calls of `onDeliveryFailed` that have not returned. -/
  callbacks : Nat := 0
  /-- History variable: how many events had been enqueued at the last `dispose`. -/
  disposed : Nat := 0
  /-- History variable: the requests made, in order. -/
  log : List Nat := []
  /-- History variable: the events of the requests that succeeded. -/
  accepted : List Nat := []
  /-- History variable: the events given to `onDeliveryFailed`. -/
  reported : List Nat := []
deriving DecidableEq

def State.attemptsOf (s : State) (x : Nat) : Nat :=
  (s.events[x]?.map QueuedEvent.attempts).getD 0

/-- `drain`, up to the answer of its request. -/
def drain (s : State) : State :=
  if s.inFlight then s
  else
    match s.queue.head? with
    | none => s
    | some next =>
        { s with inFlight := true, requests := next :: s.requests, log := s.log ++ [next] }

/-- `if (this.queue.length > 0) void this.drain();` -/
def drainRest (s : State) : State :=
  if s.queue = [] then s else drain s

def enqueue (s : State) (event : String) : State :=
  drain { s with events := s.events ++ [{ event }], queue := s.queue ++ [s.events.length] }

/-- `drain`, from a response with an ok status on. -/
def succeed (s : State) (x : Nat) : State :=
  drainRest
    { s with
      requests := s.requests.erase x
      accepted := x :: s.accepted
      queue := s.queue.tail
      inFlight := false }

variable (options : Options)

/-- `drain`, from an exception on, up to the call of `onDeliveryFailed`. -/
def fail (s : State) (x : Nat) : State :=
  let s :=
    { s with
      requests := s.requests.erase x
      events := s.events.modify x QueuedEvent.failed
      inFlight := false }
  if options.exhausted (s.attemptsOf x) then
    { s with queue := s.queue.tail, reported := x :: s.reported, callbacks := s.callbacks + 1 }
  else { s with timer := true }

def dispose (s : State) : State :=
  { s with timer := false, queue := [], disposed := s.events.length }

/-! ## Runs -/

inductive Label where
  | enqueue (event : String)
  | dispose
  | succeeded (x : Nat)
  /-- The request is refused or fails, inside a callback at once. -/
  | failed (x : Nat)
  /-- The callback may have called `enqueue` and `dispose` before. -/
  | callbackReturned
  | timerFired
deriving DecidableEq

/-- JavaScript runs a callback to its end before another answer or timer. -/
def step (s : State) : Label → Option State
  | .enqueue event => some (enqueue s event)
  | .dispose => some (dispose s)
  | .succeeded x => if x ∈ s.requests ∧ s.callbacks = 0 then some (succeed s x) else none
  | .failed x => if x ∈ s.requests then some (fail options s x) else none
  | .callbackReturned =>
      if 0 < s.callbacks then some (drainRest { s with callbacks := s.callbacks - 1 }) else none
  | .timerFired =>
      if s.timer = true ∧ s.callbacks = 0 then some (drain { s with timer := false }) else none

/-! ## Durability -/

/-- Accepted, or given up after enough failures and reported. -/
def Settled (s : State) (x : Nat) : Prop :=
  x ∈ s.accepted ∨ x ∈ s.reported ∧ options.exhausted (s.attemptsOf x)

structure Durable (s : State) : Prop where
  single : s.requests.length ≤ 1
  /-- Events are attempted in their order. -/
  ordered : s.log.Pairwise (· ≤ ·)
  /-- Before the next one is attempted, each is done with. -/
  finished : ∀ y ∈ s.log, ∀ x, s.disposed ≤ x → x < y → Settled options s x
  /-- What is done with is not attempted again. -/
  stopped : ∀ x ∈ s.requests, x ∉ s.accepted ∧ x ∉ s.reported
  /-- What has failed often enough does not wait for another attempt. -/
  patient : ∀ x ∈ s.queue, s.attemptsOf x = 0 ∨ ¬options.exhausted (s.attemptsOf x)
  kept : ∀ x, s.disposed ≤ x → x < s.events.length →
    x ∈ s.accepted ∨ x ∈ s.reported ∨ x ∈ s.queue
  driven : s.callbacks = 0 → s.queue ≠ [] → s.requests ≠ [] ∨ s.timer = true

/-- What is removed from the queue, if anything, is the event of the request. -/
def OwnHead (s : State) : Label → Prop
  | .succeeded x => ∀ y ∈ s.queue.head?, y = x
  | .failed x => options.exhausted (s.attemptsOf x + 1) → ∀ y ∈ s.queue.head?, y = x
  | _ => True

instance (s : State) (l : Label) : Decidable (OwnHead options s l) := by
  unfold OwnHead
  split <;> infer_instance

/-! ## What a step leaves alone -/

section Frame

variable (s : State)

theorem drain_cases :
    (drain s = s ∧ (s.inFlight = true ∨ s.queue = [])) ∨
      ∃ next rest, s.inFlight = false ∧ s.queue = next :: rest ∧
        drain s = { s with
          inFlight := true, requests := next :: s.requests, log := s.log ++ [next] } := by
  unfold drain
  cases hflight : s.inFlight with
  | true => exact .inl ⟨rfl, .inl rfl⟩
  | false =>
      cases hqueue : s.queue with
      | nil => exact .inl ⟨rfl, .inr rfl⟩
      | cons next rest => exact .inr ⟨next, rest, rfl, rfl, rfl⟩

@[simp] theorem drain_events : (drain s).events = s.events := by
  rcases drain_cases s with ⟨h, -⟩ | ⟨next, rest, -, -, h⟩
  · rw [h]
  · rw [h]

@[simp] theorem drain_queue : (drain s).queue = s.queue := by
  rcases drain_cases s with ⟨h, -⟩ | ⟨next, rest, -, -, h⟩
  · rw [h]
  · rw [h]

@[simp] theorem drain_disposed : (drain s).disposed = s.disposed := by
  rcases drain_cases s with ⟨h, -⟩ | ⟨next, rest, -, -, h⟩
  · rw [h]
  · rw [h]

@[simp] theorem drain_accepted : (drain s).accepted = s.accepted := by
  rcases drain_cases s with ⟨h, -⟩ | ⟨next, rest, -, -, h⟩
  · rw [h]
  · rw [h]

@[simp] theorem drain_reported : (drain s).reported = s.reported := by
  rcases drain_cases s with ⟨h, -⟩ | ⟨next, rest, -, -, h⟩
  · rw [h]
  · rw [h]

/-- Draining an empty queue does nothing. -/
theorem drainRest_eq : drainRest s = drain s := by
  unfold drainRest
  split
  · rename_i hempty
    rcases drain_cases s with ⟨h, -⟩ | ⟨next, rest, -, hqueue, -⟩
    · exact h.symm
    · rw [hempty] at hqueue
      cases hqueue
  · rfl

end Frame

/-! ## The invariant -/

/-- What holds in every state, whatever the completions remove. -/
structure Inv (s : State) : Prop where
  busy : s.inFlight = true → ∃ x, s.requests = [x]
  idle : s.inFlight = false → s.requests = []
  sorted : s.queue.Pairwise (· < ·)
  fresh : ∀ x ∈ s.queue, s.disposed ≤ x ∧ x < s.events.length
  /-- A request is for the head of the queue, until that is disposed of. -/
  requested : ∀ x ∈ s.requests, s.queue.head? = some x ∨ x < s.disposed
  disposed_le : s.disposed ≤ s.events.length
  log_le : ∀ y ∈ s.log, y < s.events.length ∧ ∀ x ∈ s.queue, y ≤ x
  ordered : s.log.Pairwise (· ≤ ·)
  done : ∀ x, x ∈ s.accepted ∨ x ∈ s.reported →
    x < s.events.length ∧ x ∉ s.queue ∧ x ∉ s.requests
  spent : ∀ x ∈ s.reported, options.exhausted (s.attemptsOf x)
  patient : ∀ x ∈ s.queue, s.attemptsOf x = 0 ∨ ¬options.exhausted (s.attemptsOf x)

/-- The queue is attended to. -/
def Driven (s : State) : Prop :=
  s.callbacks = 0 → s.queue ≠ [] → s.requests ≠ [] ∨ s.timer = true

theorem init_inv : Inv options {} where
  busy := by simp
  idle := by simp
  sorted := by simp
  fresh := by simp
  requested := by simp
  disposed_le := by simp
  log_le := by simp
  ordered := by simp
  done := by simp
  spent := by simp
  patient := by simp

variable {options : Options} {s t : State}

theorem drain_inv (h : Inv options s) : Inv options (drain s) := by
  rcases drain_cases s with ⟨heq, -⟩ | ⟨next, rest, hflight, hqueue, heq⟩
  · rw [heq]
    exact h
  · have hidle := h.idle hflight
    have hnext : next ∈ s.queue := by simp [hqueue]
    have hfresh := h.fresh next hnext
    rw [heq]
    refine ⟨?_, ?_, h.sorted, h.fresh, ?_, h.disposed_le, ?_, ?_, ?_, h.spent, h.patient⟩
    · intro _
      exact ⟨next, by simp [hidle]⟩
    · intro hfalse
      cases hfalse
    · intro x hx
      have hx' : x = next := by simpa [hidle] using hx
      left
      simp [hqueue, hx']
    · -- the new entry of the log is the head of a sorted queue
      intro y hy
      rcases List.mem_append.mp hy with hold | hnew
      · exact h.log_le y hold
      · have hy' : y = next := by simpa using hnew
        subst hy'
        refine ⟨hfresh.2, fun x hx => ?_⟩
        have hsorted := h.sorted
        rw [hqueue] at hsorted hx
        rcases List.mem_cons.mp hx with rfl | hrest
        · exact le_refl x
        · exact (List.rel_of_pairwise_cons hsorted hrest).le
    · rw [List.pairwise_append]
      refine ⟨h.ordered, List.pairwise_singleton _ _, fun y hy x hx => ?_⟩
      have hx' : x = next := by simpa using hx
      rw [hx']
      exact (h.log_le y hy).2 next hnext
    · intro x hx
      have hdone := h.done x hx
      refine ⟨hdone.1, hdone.2.1, ?_⟩
      intro hmem
      have hx' : x = next := by simpa [hidle] using hmem
      exact hdone.2.1 (hx' ▸ hnext)

/-- After `drain` a request is under way, unless there is nothing to send. -/
theorem drain_driven (h : Inv options s) : Driven (drain s) := by
  intro _ hne
  left
  rw [drain_queue] at hne
  rcases drain_cases s with ⟨heq, hflight | hempty⟩ | ⟨next, rest, -, -, heq⟩
  · rcases h.busy hflight with ⟨x, hx⟩
    rw [heq, hx]
    simp
  · exact absurd hempty hne
  · rw [heq]
    simp

section

variable {x : Nat}

theorem Inv.issued (h : Inv options s) (hx : x ∈ s.requests) : x < s.events.length := by
  rcases h.requested x hx with hhead | hdisposed
  · exact (h.fresh x (List.mem_of_mem_head? hhead)).2
  · exact lt_of_lt_of_le hdisposed h.disposed_le

/-- At most one request is out. -/
theorem Inv.requests_eq (h : Inv options s) (hx : x ∈ s.requests) : s.requests = [x] := by
  cases hflight : s.inFlight with
  | false =>
      rw [h.idle hflight] at hx
      cases hx
  | true =>
      rcases h.busy hflight with ⟨y, hy⟩
      rw [hy] at hx ⊢
      rw [List.mem_singleton.mp hx]

theorem Inv.not_mem_tail (h : Inv options s) (hx : x ∈ s.requests) : x ∉ s.queue.tail := by
  intro hmem
  rcases h.requested x hx with hhead | hdisposed
  · -- the queue is sorted, and `x` is its head
    have hsorted := h.sorted
    cases hqueue : s.queue with
    | nil =>
        rw [hqueue] at hhead
        cases hhead
    | cons y rest =>
        rw [hqueue] at hhead hmem hsorted
        have hy : y = x := by simpa using hhead
        have hlt := List.rel_of_pairwise_cons hsorted hmem
        omega
  · have hfresh := h.fresh x (List.mem_of_mem_tail hmem)
    omega

theorem Inv.not_done (h : Inv options s) (hx : x ∈ s.requests) :
    x ∉ s.accepted ∧ x ∉ s.reported := by
  constructor
  · intro hmem
    exact (h.done x (.inl hmem)).2.2 hx
  · intro hmem
    exact (h.done x (.inr hmem)).2.2 hx

end

theorem attemptsOf_concat {events : List QueuedEvent} {e : QueuedEvent} {x : Nat}
    (h : x < events.length) :
    (((events ++ [e])[x]?.map QueuedEvent.attempts).getD 0) =
      (events[x]?.map QueuedEvent.attempts).getD 0 := by
  rw [List.getElem?_append_left h]

theorem attemptsOf_modify (events : List QueuedEvent) (x y : Nat) :
    (((events.modify x QueuedEvent.failed)[y]?.map QueuedEvent.attempts).getD 0) =
      if x = y ∧ y < events.length then (events[y]?.map QueuedEvent.attempts).getD 0 + 1
      else (events[y]?.map QueuedEvent.attempts).getD 0 := by
  rw [List.getElem?_modify]
  by_cases hxy : x = y
  · by_cases hy : y < events.length
    · simp [hxy, hy, QueuedEvent.failed]
    · simp [hxy, hy]
  · simp [hxy]

/-- The state of `enqueue`, before it drains. -/
def pushed (s : State) (event : String) : State :=
  { s with events := s.events ++ [{ event }], queue := s.queue ++ [s.events.length] }

theorem pushed_inv (event : String) (h : Inv options s) : Inv options (pushed s event) := by
  unfold pushed
  refine ⟨h.busy, h.idle, ?_, ?_, ?_, ?_, ?_, h.ordered, ?_, ?_, ?_⟩
  · -- sorted: the new number is the last
    rw [List.pairwise_append]
    refine ⟨h.sorted, List.pairwise_singleton _ _, fun y hy x hx => ?_⟩
    have hx' : x = s.events.length := by simpa using hx
    rw [hx']
    exact (h.fresh y hy).2
  · -- fresh
    intro x hx
    have hle := h.disposed_le
    simp only [List.length_append, List.length_singleton]
    rcases List.mem_append.mp hx with hold | hnew
    · have hfresh := h.fresh x hold
      omega
    · have hx' : x = s.events.length := by simpa using hnew
      omega
  · -- requested: the head of the queue stays
    intro x hx
    rcases h.requested x hx with hhead | hdisposed
    · left
      rw [List.head?_append, hhead]
      rfl
    · exact .inr hdisposed
  · -- disposed_le
    have hle := h.disposed_le
    simp only [List.length_append, List.length_singleton]
    omega
  · -- log_le
    intro y hy
    have hlog := h.log_le y hy
    simp only [List.length_append, List.length_singleton]
    refine ⟨by omega, fun x hx => ?_⟩
    rcases List.mem_append.mp hx with hold | hnew
    · exact hlog.2 x hold
    · have hx' : x = s.events.length := by simpa using hnew
      omega
  · -- done: the new event is neither accepted nor reported
    intro x hx
    have hdone := h.done x hx
    simp only [List.length_append, List.length_singleton, List.mem_append, List.mem_singleton]
    refine ⟨by omega, ?_, hdone.2.2⟩
    rintro (hold | rfl)
    · exact hdone.2.1 hold
    · omega
  · -- spent
    intro x hx
    have hspent := h.spent x hx
    have hlt := (h.done x (.inr hx)).1
    unfold State.attemptsOf at hspent ⊢
    rwa [attemptsOf_concat hlt]
  · -- patient
    intro x hx
    unfold State.attemptsOf
    rcases List.mem_append.mp hx with hold | hnew
    · have hpatient := h.patient x hold
      have hlt := (h.fresh x hold).2
      unfold State.attemptsOf at hpatient
      rwa [attemptsOf_concat hlt]
    · left
      simp [List.mem_singleton.mp hnew]

theorem dispose_inv (h : Inv options s) : Inv options (dispose s) := by
  refine ⟨h.busy, h.idle, List.Pairwise.nil, ?_, ?_, le_refl _, ?_, h.ordered, ?_, h.spent, ?_⟩
  · intro x hx
    cases hx
  · intro x hx
    exact .inr (h.issued hx)
  · intro y hy
    refine ⟨(h.log_le y hy).1, fun x hx => ?_⟩
    cases hx
  · intro x hx
    have hdone := h.done x hx
    exact ⟨hdone.1, List.not_mem_nil, hdone.2.2⟩
  · intro x hx
    cases hx

/-- The state of a success, before the queue is drained. -/
def answered (s : State) (x : Nat) : State :=
  { s with
    requests := s.requests.erase x
    accepted := x :: s.accepted
    queue := s.queue.tail
    inFlight := false }

theorem answered_inv {x : Nat} (h : Inv options s) (hx : x ∈ s.requests) :
    Inv options (answered s x) := by
  have hrequests := h.requests_eq hx
  have herase : s.requests.erase x = [] := by simp [hrequests]
  unfold answered
  refine ⟨?_, ?_, h.sorted.tail, ?_, ?_, h.disposed_le, ?_, h.ordered, ?_, h.spent,
    fun y hy => h.patient y (List.mem_of_mem_tail hy)⟩
  · intro hfalse
    cases hfalse
  · intro _
    exact herase
  · intro y hy
    exact h.fresh y (List.mem_of_mem_tail hy)
  · intro y hy
    rw [herase] at hy
    cases hy
  · intro y hy
    exact ⟨(h.log_le y hy).1, fun z hz => (h.log_le y hy).2 z (List.mem_of_mem_tail hz)⟩
  · intro y hy
    simp only [herase, List.not_mem_nil, not_false_eq_true, and_true]
    simp only [List.mem_cons] at hy
    rcases hy with (rfl | haccepted) | hreported
    · exact ⟨h.issued hx, h.not_mem_tail hx⟩
    · have hdone := h.done y (.inl haccepted)
      exact ⟨hdone.1, fun hmem => hdone.2.1 (List.mem_of_mem_tail hmem)⟩
    · have hdone := h.done y (.inr hreported)
      exact ⟨hdone.1, fun hmem => hdone.2.1 (List.mem_of_mem_tail hmem)⟩

/-- The state of a failure, before it is known whether it is the last one. -/
def noted (s : State) (x : Nat) : State :=
  { s with
    requests := s.requests.erase x
    events := s.events.modify x QueuedEvent.failed
    inFlight := false }

theorem noted_attemptsOf {x : Nat} (h : Inv options s) (hx : x ∈ s.requests) (y : Nat) :
    (noted s x).attemptsOf y = if x = y then s.attemptsOf y + 1 else s.attemptsOf y := by
  have hmodify := attemptsOf_modify s.events x y
  have hlt := h.issued hx
  unfold noted State.attemptsOf
  rw [hmodify]
  by_cases hxy : x = y
  · subst hxy
    simp [hlt]
  · simp [hxy]

theorem fail_eq {x : Nat} (h : Inv options s) (hx : x ∈ s.requests) :
    fail options s x =
      if options.exhausted (s.attemptsOf x + 1) then
        { noted s x with
          queue := s.queue.tail, reported := x :: s.reported, callbacks := s.callbacks + 1 }
      else { noted s x with timer := true } := by
  have hattempts := noted_attemptsOf h hx x
  rw [if_pos rfl] at hattempts
  unfold fail
  change (if options.exhausted ((noted s x).attemptsOf x) then _ else _) = _
  rw [hattempts]
  rfl

theorem fail_inv {x : Nat} (h : Inv options s) (hx : x ∈ s.requests) :
    Inv options (fail options s x) := by
  have hrequests := h.requests_eq hx
  have herase : (noted s x).requests = [] := by simp [noted, hrequests]
  have hlength : (noted s x).events.length = s.events.length := by simp [noted]
  have hother : ∀ y ∈ s.reported, (noted s x).attemptsOf y = s.attemptsOf y := by
    intro y hy
    have hne : x ≠ y := fun heq => (h.not_done hx).2 (heq ▸ hy)
    rw [noted_attemptsOf h hx y, if_neg hne]
  have hidle : (noted s x).inFlight = false := rfl
  rw [fail_eq h hx]
  split
  · -- the last failure: the event is reported
    rename_i hexhausted
    -- the rest of the queue is as before, and the event goes to those reported
    refine ⟨?_, fun _ => herase, h.sorted.tail, ?_, ?_, ?_, ?_, h.ordered, ?_, ?_, ?_⟩
    · -- busy
      intro hbusy
      cases hidle.symm.trans hbusy
    · -- fresh
      intro y hy
      rw [hlength]
      exact h.fresh y (List.mem_of_mem_tail hy)
    · -- requested
      intro y hy
      rw [herase] at hy
      cases hy
    · -- disposed_le
      rw [hlength]
      exact h.disposed_le
    · -- log_le
      intro y hy
      rw [hlength]
      exact ⟨(h.log_le y hy).1, fun z hz => (h.log_le y hy).2 z (List.mem_of_mem_tail hz)⟩
    · -- done: the event was issued and is no longer in the queue
      intro y hy
      rw [hlength]
      simp only [herase, List.not_mem_nil, not_false_eq_true, and_true]
      have hcases : y = x ∨ y ∈ s.accepted ∨ y ∈ s.reported := by
        rcases hy with haccepted | hreported
        · exact .inr (.inl haccepted)
        · rcases List.mem_cons.mp hreported with heq | hold
          · exact .inl heq
          · exact .inr (.inr hold)
      rcases hcases with rfl | hold
      · exact ⟨h.issued hx, h.not_mem_tail hx⟩
      · have hdone := h.done y hold
        exact ⟨hdone.1, fun hmem => hdone.2.1 (List.mem_of_mem_tail hmem)⟩
    · -- spent
      intro y hy
      change options.exhausted ((noted s x).attemptsOf y) = true
      rcases List.mem_cons.mp hy with rfl | hold
      · rwa [noted_attemptsOf h hx, if_pos rfl]
      · rw [hother y hold]
        exact h.spent y hold
    · -- patient
      intro y hy
      have hne : x ≠ y := fun heq => h.not_mem_tail hx (heq ▸ hy)
      change (noted s x).attemptsOf y = 0 ∨ ¬options.exhausted ((noted s x).attemptsOf y) = true
      rw [noted_attemptsOf h hx y, if_neg hne]
      exact h.patient y (List.mem_of_mem_tail hy)
  · -- the event stays at the head and is tried again
    rename_i hmore
    refine ⟨?_, fun _ => herase, h.sorted, ?_, ?_, ?_, ?_, h.ordered, ?_, ?_, ?_⟩
    · -- busy
      intro hbusy
      cases hidle.symm.trans hbusy
    · -- fresh
      intro y hy
      rw [hlength]
      exact h.fresh y hy
    · -- requested
      intro y hy
      rw [herase] at hy
      cases hy
    · -- disposed_le
      rw [hlength]
      exact h.disposed_le
    · -- log_le
      intro y hy
      rw [hlength]
      exact h.log_le y hy
    · -- done
      intro y hy
      have hdone := h.done y hy
      rw [hlength, herase]
      exact ⟨hdone.1, hdone.2.1, List.not_mem_nil⟩
    · -- spent
      intro y hy
      change options.exhausted ((noted s x).attemptsOf y) = true
      rw [hother y hy]
      exact h.spent y hy
    · -- patient: the event has tries left, and the others lost none
      intro y hy
      change (noted s x).attemptsOf y = 0 ∨ ¬options.exhausted ((noted s x).attemptsOf y) = true
      rw [noted_attemptsOf h hx y]
      by_cases hxy : x = y
      · subst hxy
        rw [if_pos rfl]
        exact .inr hmore
      · rw [if_neg hxy]
        exact h.patient y hy

/-! ## Steps -/

/-- What a step does to the state. -/
theorem step_cases {l : Label} (hstep : step options s l = some t) :
    (∃ event, l = .enqueue event ∧ t = drain (pushed s event)) ∨
    (l = .dispose ∧ t = dispose s) ∨
    (∃ x ∈ s.requests, l = .succeeded x ∧ t = drain (answered s x)) ∨
    (∃ x ∈ s.requests, l = .failed x ∧ t = fail options s x) ∨
    (l = .callbackReturned ∨ l = .timerFired) ∧
      ∃ callbacks timer, t = drain { s with callbacks, timer } := by
  cases l with
  | enqueue event => exact .inl ⟨event, rfl, (Option.some.inj hstep).symm⟩
  | dispose => exact .inr (.inl ⟨rfl, (Option.some.inj hstep).symm⟩)
  | succeeded x =>
      have ⟨hx, heq⟩ := Option.ite_none_right_eq_some.mp hstep
      refine .inr (.inr (.inl ⟨x, hx.1, rfl, ?_⟩))
      rw [← drainRest_eq]
      exact (Option.some.inj heq).symm
  | failed x =>
      have ⟨hx, heq⟩ := Option.ite_none_right_eq_some.mp hstep
      exact .inr (.inr (.inr (.inl ⟨x, hx, rfl, (Option.some.inj heq).symm⟩)))
  | callbackReturned =>
      have ⟨_, heq⟩ := Option.ite_none_right_eq_some.mp hstep
      refine .inr (.inr (.inr (.inr ⟨.inl rfl, s.callbacks - 1, s.timer, ?_⟩)))
      rw [← drainRest_eq]
      exact (Option.some.inj heq).symm
  | timerFired =>
      have ⟨_, heq⟩ := Option.ite_none_right_eq_some.mp hstep
      exact .inr (.inr (.inr (.inr ⟨.inr rfl, s.callbacks, false, (Option.some.inj heq).symm⟩)))

theorem step_inv {l : Label} (h : Inv options s) (hstep : step options s l = some t) :
    Inv options t := by
  rcases step_cases hstep with ⟨event, -, rfl⟩ | ⟨-, rfl⟩ | ⟨x, hx, -, rfl⟩ | ⟨x, hx, -, rfl⟩ |
    ⟨-, callbacks, timer, rfl⟩
  · exact drain_inv (pushed_inv event h)
  · exact dispose_inv h
  · exact drain_inv (answered_inv h hx)
  · exact fail_inv h hx
  · apply drain_inv
    exact { h with }

theorem step_driven {l : Label} (h : Inv options s) (hstep : step options s l = some t) :
    Driven t := by
  rcases step_cases hstep with ⟨event, -, rfl⟩ | ⟨-, rfl⟩ | ⟨x, hx, -, rfl⟩ | ⟨x, hx, -, rfl⟩ |
    ⟨-, callbacks, timer, rfl⟩
  · exact drain_driven (pushed_inv event h)
  · intro _ hne
    exact absurd rfl hne
  · exact drain_driven (answered_inv h hx)
  · -- either the callback runs now, or the timer
    rw [fail_eq h hx]
    split
    · intro hzero
      cases hzero
    · intro _ _
      exact .inr rfl
  · have hsame : Inv options { s with callbacks, timer } := { h with }
    exact drain_driven hsame

/-! ## Nothing is lost -/

/-- What was enqueued since the last `dispose` is somewhere. -/
def Kept (s : State) : Prop :=
  ∀ x, s.disposed ≤ x → x < s.events.length →
    x ∈ s.accepted ∨ x ∈ s.reported ∨ x ∈ s.queue

/-- A completion of the request for `x` takes away the head of the queue, and
makes note of `x`. -/
theorem kept_tail_iff {x : Nat} (h : Inv options s) (hkept : Kept s)
    (hevents : t.events.length = s.events.length) (hdisposed : t.disposed = s.disposed)
    (hqueue : t.queue = s.queue.tail)
    (hnoted : ∀ y, (y ∈ t.accepted ∨ y ∈ t.reported) ↔
      y = x ∨ y ∈ s.accepted ∨ y ∈ s.reported) :
    Kept t ↔ ∀ y ∈ s.queue.head?, y = x := by
  have hdone : ∀ y, (y ∈ t.accepted ∨ y ∈ t.reported ∨ y ∈ t.queue) ↔
      (y = x ∨ y ∈ s.accepted ∨ y ∈ s.reported) ∨ y ∈ s.queue.tail := by
    intro y
    rw [← or_assoc, hnoted, hqueue]
  constructor
  · intro ht y hy
    have hmem : y ∈ s.queue := List.mem_of_mem_head? hy
    have hfresh := h.fresh y hmem
    rcases (hdone y).mp (ht y (by omega) (by omega)) with (heq | hold) | htail
    · exact heq
    · exact absurd hmem (h.done y hold).2.1
    · -- the head of a sorted queue is not in its tail
      exfalso
      have hsorted := h.sorted
      cases hcons : s.queue with
      | nil =>
          rw [hcons] at hmem
          cases hmem
      | cons z rest =>
          rw [hcons] at hy htail hsorted
          have hz : z = y := by simpa using hy
          have hlt := List.rel_of_pairwise_cons hsorted htail
          omega
  · intro hhead y hle hlt
    apply (hdone y).mpr
    rcases hkept y (by omega) (by omega) with haccepted | hreported | hmem
    · exact .inl (.inr (.inl haccepted))
    · exact .inl (.inr (.inr hreported))
    · cases hcons : s.queue with
      | nil =>
          rw [hcons] at hmem
          cases hmem
      | cons z rest =>
          rw [hcons] at hmem hhead
          rcases List.mem_cons.mp hmem with rfl | hrest
          · exact .inl (.inl (hhead y rfl))
          · exact .inr hrest

/-- A step keeps everything exactly if it removes no event but its own. -/
theorem step_kept_iff {l : Label} (h : Inv options s) (hkept : Kept s)
    (hstep : step options s l = some t) : Kept t ↔ OwnHead options s l := by
  rcases step_cases hstep with ⟨event, rfl, rfl⟩ | ⟨rfl, rfl⟩ | ⟨x, hx, rfl, rfl⟩ |
    ⟨x, hx, rfl, rfl⟩ | ⟨hl, callbacks, timer, rfl⟩
  · -- a new event waits in the queue
    refine iff_of_true ?_ trivial
    intro y hle hlt
    simp only [drain_disposed, drain_events, drain_accepted, drain_reported, drain_queue,
      pushed, List.length_append, List.length_singleton, List.mem_append,
      List.mem_singleton] at hle hlt ⊢
    by_cases hnew : y = s.events.length
    · exact .inr (.inr (.inr hnew))
    · rcases hkept y hle (by omega) with haccepted | hreported | hmem
      · exact .inl haccepted
      · exact .inr (.inl hreported)
      · exact .inr (.inr (.inl hmem))
  · -- after `dispose` nothing enqueued before it counts
    refine iff_of_true ?_ trivial
    intro y hle hlt
    have hle' : s.events.length ≤ y := hle
    have hlt' : y < s.events.length := hlt
    omega
  · -- an answer takes the head of the queue away, whosever it is
    apply kept_tail_iff h hkept
    · simp [answered]
    · simp [answered]
    · simp [answered]
    · intro y
      simp [answered, or_assoc]
  · -- a failure reports its event, or keeps it in the queue
    rw [fail_eq h hx]
    split
    · rename_i hexhausted
      have hiff : Kept { noted s x with
          queue := s.queue.tail, reported := x :: s.reported, callbacks := s.callbacks + 1 } ↔
          ∀ y ∈ s.queue.head?, y = x := by
        apply kept_tail_iff h hkept
        · simp [noted]
        · rfl
        · rfl
        · intro y
          simp [noted, or_left_comm]
      rw [hiff]
      simp [OwnHead, hexhausted]
    · rename_i hnot
      refine iff_of_true ?_ fun hexhausted => absurd hexhausted hnot
      intro y hle hlt
      have hlt' : y < s.events.length := by simpa [noted] using hlt
      exact hkept y hle hlt'
  · -- a callback or the timer moves no event
    refine iff_of_true ?_ ?_
    · intro y hle hlt
      simp only [drain_disposed, drain_events, drain_accepted, drain_reported,
        drain_queue] at hle hlt ⊢
      exact hkept y hle hlt
    · rcases hl with rfl | rfl
      · trivial
      · trivial

/-- In a state of the invariant that is driven, durability is that nothing is lost. -/
theorem durable_iff_kept (h : Inv options s) (hdriven : Driven s) :
    Durable options s ↔ Kept s := by
  constructor
  · intro hdurable
    exact hdurable.kept
  · intro hkept
    refine ⟨?_, h.ordered, ?_, fun x hx => h.not_done hx, h.patient, hkept, hdriven⟩
    · cases hflight : s.inFlight with
      | false => simp [h.idle hflight]
      | true =>
          rcases h.busy hflight with ⟨x, hx⟩
          simp [hx]
    · -- what comes before an attempted event has left the queue
      intro y hy x hle hlt
      have hlog := h.log_le y hy
      rcases hkept x hle (by omega) with haccepted | hreported | hmem
      · exact .inl haccepted
      · exact .inr ⟨hreported, h.spent x hreported⟩
      · have hle' := hlog.2 x hmem
        omega

/-- The delivery is durable in every state of a run exactly if each completion
finds its own event at the head of the queue, or the queue empty. -/
theorem durable_iff {labels : List Label} (h : Runs.exec (step options) {} labels = some t) :
    (∀ before after u, labels = before ++ after → Runs.exec (step options) {} before = some u →
        Durable options u) ↔
      Runs.Along (step options) (OwnHead options) {} labels := by
  have hinit : Driven {} := by
    intro _ hne
    exact absurd rfl hne
  refine Runs.always_iff_along (I := fun s => Inv options s ∧ Driven s) ?_ ?_
    ⟨init_inv options, hinit⟩ ?_ h
  · rintro s l u ⟨hs, -⟩ hl
    exact ⟨step_inv hs hl, step_driven hs hl⟩
  · rintro s l u ⟨hs, hdriven⟩ hdurable hl
    have hkept := (durable_iff_kept hs hdriven).mp hdurable
    rw [durable_iff_kept (step_inv hs hl) (step_driven hs hl)]
    exact step_kept_iff hs hkept hl
  · apply (durable_iff_kept (init_inv options) hinit).mpr
    intro x _ hlt
    cases hlt

/-! ## Two pages -/

/-- The first event is refused once, a second one waits for it, and the page
unmounts between two requests. -/
def unmounted : List Label :=
  [.enqueue "OPEN", .enqueue "INSTITUTION_SELECTED", .failed 0, .timerFired, .succeeded 0,
    .succeeded 1, .enqueue "EXIT", .succeeded 2, .dispose]

theorem unmounted_durable :
    (Runs.exec (step {}) {} unmounted).isSome = true ∧
      ∀ before after u, unmounted = before ++ after →
        Runs.exec (step {}) {} before = some u → Durable {} u := by
  have hrun : (Runs.exec (step {}) {} unmounted).isSome = true := by decide +kernel
  rcases Option.isSome_iff_exists.mp hrun with ⟨t, ht⟩
  refine ⟨hrun, (durable_iff ht).mpr ?_⟩
  decide +kernel

/-- The code of the error changes while `EXIT` is on its way: the effect disposes
of the queue, and the page goes on with another event. -/
def errorChanged : List Label :=
  [.enqueue "EXIT", .dispose, .enqueue "ERROR", .succeeded 0]

theorem errorChanged_not_durable : ¬∀ before after u, errorChanged = before ++ after →
    Runs.exec (step {}) {} before = some u → Durable {} u := by
  intro hall
  have hrun : (Runs.exec (step {}) {} errorChanged).map
      (fun u => (u.disposed, u.events.length, u.accepted, u.reported, u.queue)) =
      some (1, 2, [0], [], []) := by decide +kernel
  rcases Option.map_eq_some_iff.mp hrun with ⟨u, hu, hfields⟩
  have hkept := (hall errorChanged [] u (by simp) hu).kept 1
  simp only [Prod.mk.injEq] at hfields
  rcases hfields with ⟨hdisposed, hlength, haccepted, hreported, hqueue⟩
  rw [hdisposed, hlength, haccepted, hreported, hqueue] at hkept
  simp at hkept

end Plaidify.HostedLink.EventDelivery
