import Plaidify.EventStream.Stream

/-!
# What a subscriber receives

A subscriber has received some events, has others ahead in its replay and its
queue, and others still are to be published. As long as the steps of a run are
`Timely`, these make up the events of the session, each once and in order, up to
the one that closes the stream.
-/

namespace Plaidify.EventStream

open Closing (Alike Closed)
open Links (Backend)

/-! ## The invariant -/

namespace Subscriber

/-- What the replay has ahead. -/
def ahead (sub : Subscriber) (events : List StreamEvent) : List StreamEvent :=
  match sub.phase with
  | .replaying sent => (sub.past events).drop sent
  | _ => []

/-- What the subscriber has received, or has ahead. -/
def got (sub : Subscriber) (events : List StreamEvent) : List StreamEvent :=
  sub.received ++ sub.ahead events ++ sub.queue

end Subscriber

/-- What holds of a subscriber: of its queue, of what it has received and of what it
replays. -/
structure Good (s : State) (sub : Subscriber) : Prop where
  snapshot : s.backend = .redis → sub.snapshot ≠ none
  memory : s.backend = .memory → sub.listener ≠ .starting
  replayed : ∀ sent, sub.phase = .replaying sent → sub.received = (sub.past s.events).take sent
  /-- Before the subscription there is the copy of the session. -/
  starting : sub.listener = .starting →
    sub.queue = [] ∧ sub.got s.events = sub.past s.events ∧ sub.past s.events <+: s.events
  active : sub.listener = .active → Alike closes (sub.got s.events ++ s.unpublished) s.events
  ended : sub.listener = .ended → (∀ appended, sub.phase ≠ .returned appended) →
    Closed closes (sub.got s.events) ∧ Alike closes (sub.got s.events) s.events
  returned : ∀ appended, sub.phase = .returned appended →
    sub.listener = .ended ∧ appended ≤ s.events.length ∧
      Alike closes sub.received (s.events.take appended)

/-- What holds of a stream whose steps are timely. -/
structure Inv (s : State) : Prop where
  unpublished : s.backend = .memory → s.unpublished = []
  good : ∀ i sub, s.subscribers i = some sub → Good s sub

/-- A new session has no subscribers. -/
theorem init_inv (backend : Backend) : Inv (start backend) where
  unpublished _ := rfl
  good := by
    intro i sub hsub
    cases hsub

/-! ## What it gives -/

/-- A subscriber that has replayed all, with nothing in its queue, has got what it
received. -/
theorem got_of_settled {sub : Subscriber} {events : List StreamEvent}
    (hphase : ∀ sent, sub.phase ≠ .replaying sent) (hqueue : sub.queue = []) :
    sub.got events = sub.received := by
  unfold Subscriber.got Subscriber.ahead
  rw [hqueue, List.append_nil]
  split
  · rename_i sent heq
    exact absurd heq (hphase sent)
  · exact List.append_nil _

/-- What was received comes first. -/
theorem received_prefix_got (sub : Subscriber) (events : List StreamEvent) :
    ∃ later, sub.got events = sub.received ++ later :=
  ⟨sub.ahead events ++ sub.queue, List.append_assoc ..⟩

/-- What was received is a beginning of the events, up to the closing one. -/
theorem Good.delivered {s : State} {sub : Subscriber} (h : Good s sub) : Delivered s sub := by
  rcases received_prefix_got sub s.events with ⟨later, hgot⟩
  by_cases hreturned : ∃ appended, sub.phase = .returned appended
  · rcases hreturned with ⟨appended, hphase⟩
    rcases h.returned appended hphase with ⟨-, -, halike⟩
    constructor
    · -- it returned, and what it received is all that was there then
      rw [show Closing.upTo closes sub.received = _ from halike]
      exact Closing.upTo_prefix (List.take_prefix appended s.events)
    · intro _
      unfold Subscriber.owed
      rw [hphase]
      exact halike
  · -- it goes on
    have hnot : ∀ appended, sub.phase ≠ .returned appended := fun n hn => hreturned ⟨n, hn⟩
    have howed : sub.owed s.events = s.events := by
      unfold Subscriber.owed
      split
      · rename_i appended hphase
        exact absurd hphase (hnot appended)
      · rfl
    -- once it is settled nothing is on its way to it
    have hsettled : sub.Settled s.unpublished →
        sub.listener ≠ .starting ∧ sub.got s.events = sub.received ∧ s.unpublished = [] := by
      rintro (⟨appended, hphase⟩ | ⟨hphase, hlistener, hqueue, hunpublished⟩)
      · exact absurd hphase (hnot appended)
      · refine ⟨hlistener, got_of_settled ?_ hqueue, hunpublished⟩
        intro sent hreplaying
        rw [hphase] at hreplaying
        cases hreplaying
    cases hlistener : sub.listener with
    | starting =>
        -- it does not listen yet, and replays a beginning of the history
        rcases h.starting hlistener with ⟨-, hpast, hprefix⟩
        constructor
        · rw [← hpast, hgot] at hprefix
          exact Closing.upTo_prefix ((List.prefix_append sub.received later).trans hprefix)
        · intro hdone
          exact absurd hlistener (hsettled hdone).1
    | active =>
        -- it listens, and what it got and is still to get is the history
        have halike := h.active hlistener
        constructor
        · rw [hgot, List.append_assoc] at halike
          exact halike.upTo_prefix
        · intro hdone
          rcases hsettled hdone with ⟨-, hreceived, hnil⟩
          rw [hreceived, hnil, List.append_nil] at halike
          rw [howed]
          exact halike
    | ended =>
        -- its listener stopped at an event that closes the stream
        have halike := (h.ended hlistener hnot).2
        constructor
        · rw [hgot] at halike
          exact halike.upTo_prefix
        · intro hdone
          rw [(hsettled hdone).2.1] at halike
          rw [howed]
          exact halike

/-! ## Steps that change the session -/

/-- A copy does not grow with the session's list. -/
theorem past_of_snapshot {sub : Subscriber} (h : sub.snapshot ≠ none)
    (events events' : List StreamEvent) :
    sub.past events = sub.past events' := by
  rcases Option.ne_none_iff_exists'.mp h with ⟨snapshot, hsnapshot⟩
  unfold Subscriber.past
  rw [hsnapshot]
  rfl

/-- What a subscriber gets depends on the session's list only while it replays that. -/
theorem got_congr {sub : Subscriber} {events events' : List StreamEvent}
    (h : sub.past events = sub.past events' ∨ ∀ sent, sub.phase ≠ .replaying sent) :
    sub.got events = sub.got events' := by
  have hahead : sub.ahead events = sub.ahead events' := by
    unfold Subscriber.ahead
    split
    · rename_i sent hphase
      rcases h with hpast | hnot
      · rw [hpast]
      · exact absurd hphase (hnot sent)
    · rfl
  unfold Subscriber.got
  rw [hahead]

/-- The events up to the end of a stream, after one more. -/
theorem take_append {events : List StreamEvent} {appended : Nat} (h : appended ≤ events.length)
    (e : StreamEvent) : (events ++ [e]).take appended = events.take appended :=
  List.take_append_of_le_length h

/-- A stream that has returned goes by the events of its end. -/
theorem Good.returned_append {s : State} {sub : Subscriber} (h : Good s sub) (e : StreamEvent)
    (appended : Nat) (hphase : sub.phase = .returned appended) :
    sub.listener = .ended ∧ appended ≤ (s.events ++ [e]).length ∧
      Alike closes sub.received ((s.events ++ [e]).take appended) := by
  rcases h.returned appended hphase with ⟨hlistener, hle, halike⟩
  rw [take_append hle]
  refine ⟨hlistener, ?_, halike⟩
  rw [List.length_append]
  omega

/-- A listener that has stopped has passed a closing event on. -/
theorem Good.ended_append {s : State} {sub : Subscriber} (h : Good s sub) (e : StreamEvent)
    (hgot : sub.got (s.events ++ [e]) = sub.got s.events) (hlistener : sub.listener = .ended)
    (hnot : ∀ appended, sub.phase ≠ .returned appended) :
    Closed closes (sub.got (s.events ++ [e])) ∧
      Alike closes (sub.got (s.events ++ [e])) (s.events ++ [e]) := by
  rcases h.ended hlistener hnot with ⟨hclosed, halike⟩
  rw [hgot]
  exact ⟨hclosed, halike.trans (Alike.of_closed (halike.closed.mp hclosed) [e])⟩

/-- Under Redis: an event is appended, and is to be published. -/
theorem Good.append {s : State} {sub : Subscriber} (h : Good s sub) (hbackend : s.backend = .redis)
    (e : StreamEvent) :
    Good { s with events := s.events ++ [e], unpublished := s.unpublished ++ [e] } sub := by
  have hpast := past_of_snapshot (h.snapshot hbackend) (s.events ++ [e]) s.events
  have hgot : sub.got (s.events ++ [e]) = sub.got s.events := got_congr (.inl hpast)
  constructor
  · exact h.snapshot
  · exact h.memory
  · intro sent hphase
    dsimp only
    rw [hpast]
    exact h.replayed sent hphase
  · intro hlistener
    dsimp only
    rcases h.starting hlistener with ⟨hqueue, heq, hprefix⟩
    rw [hgot, hpast]
    exact ⟨hqueue, heq, hprefix.trans (List.prefix_append _ _)⟩
  · intro hlistener
    dsimp only
    rw [hgot, ← List.append_assoc]
    exact (h.active hlistener).append [e]
  · exact h.ended_append e hgot
  · exact h.returned_append e

/-- Without a listener nothing is delivered. -/
theorem deliver_of_not_active {backend : Backend} {e : StreamEvent} {sub : Subscriber}
    (h : sub.listener ≠ .active) : sub.deliver backend e = sub := by
  unfold Subscriber.deliver
  split
  · rename_i hactive
    exact absurd hactive h
  · rfl

/-- With one the event goes to the end of the queue. -/
theorem deliver_of_active {backend : Backend} {e : StreamEvent} {sub : Subscriber}
    (h : sub.listener = .active) : sub.deliver backend e =
      { sub with
        queue := sub.queue ++ [e]
        listener := if backend = .redis ∧ closes e = true then .ended else .active } := by
  unfold Subscriber.deliver
  rw [h]

/-- In memory: an event is appended and put into the queue of a subscriber that
is not replaying. -/
theorem Good.push {s : State} {sub : Subscriber} (h : Good s sub) (hbackend : s.backend = .memory)
    (hunpublished : s.unpublished = []) (hreplaying : ∀ sent, sub.phase ≠ .replaying sent)
    (e : StreamEvent) {subscribers : Nat → Option Subscriber} :
    Good { s with events := s.events ++ [e], subscribers } (sub.deliver s.backend e) := by
  have hgot : sub.got (s.events ++ [e]) = sub.got s.events := got_congr (.inr hreplaying)
  by_cases hactive : sub.listener = .active
  · rw [deliver_of_active hactive, hbackend, if_neg (by simp)]
    constructor
    · intro hredis
      cases hredis
    · intro _ hstarting
      cases hstarting
    · intro sent hphase
      exact absurd hphase (hreplaying sent)
    · intro hstarting
      cases hstarting
    · intro _
      dsimp only
      have halike := (h.active hactive).append [e]
      rw [hunpublished, List.append_nil, ← hgot] at halike
      rw [hunpublished, List.append_nil]
      show Alike closes (sub.received ++ sub.ahead (s.events ++ [e]) ++ (sub.queue ++ [e])) _
      rw [← List.append_assoc]
      exact halike
    · intro hended
      cases hended
    · intro appended hphase
      have hended := (h.returned appended hphase).1
      rw [hactive] at hended
      cases hended
  · rw [deliver_of_not_active hactive]
    constructor
    · exact h.snapshot
    · exact h.memory
    · intro sent hphase
      exact absurd hphase (hreplaying sent)
    · intro hstarting
      exact absurd hstarting (h.memory hbackend)
    · intro hyes
      exact absurd hyes hactive
    · exact h.ended_append e hgot
    · exact h.returned_append e

/-- The next event is published. -/
theorem Good.publish {s : State} {sub : Subscriber} (h : Good s sub) {e : StreamEvent}
    {later : List StreamEvent} (hnext : s.unpublished = e :: later)
    {subscribers : Nat → Option Subscriber} :
    Good { s with unpublished := later, subscribers } (sub.deliver s.backend e) := by
  by_cases hactive : sub.listener = .active
  · have halike := h.active hactive
    rw [hnext] at halike
    have hgot : (sub.received ++ sub.ahead s.events ++ (sub.queue ++ [e])) ++ later =
        sub.got s.events ++ e :: later := by
      unfold Subscriber.got
      simp
    rw [deliver_of_active hactive]
    -- the fields of the invariant, one by one
    constructor
    · exact h.snapshot
    · intro _ hstarting
      dsimp only at hstarting
      split at hstarting <;> cases hstarting
    · exact h.replayed
    · intro hstarting
      dsimp only at hstarting
      split at hstarting <;> cases hstarting
    · intro _
      show Alike closes ((sub.received ++ sub.ahead s.events ++ (sub.queue ++ [e])) ++ later) _
      rw [hgot]
      exact halike
    · intro hended _
      -- the listener has stopped at an event that closes the stream
      have hcloses : closes e = true := by
        dsimp only at hended
        split at hended
        · rename_i hboth
          exact hboth.2
        · cases hended
      have hclosed : Closed closes (sub.received ++ sub.ahead s.events ++ (sub.queue ++ [e])) :=
        ⟨e, by simp, hcloses⟩
      have hwhole : Alike closes
          (sub.received ++ sub.ahead s.events ++ (sub.queue ++ [e]) ++ later) s.events := by
        rw [hgot]
        exact halike
      exact ⟨hclosed, Alike.of_append hwhole hclosed⟩
    · -- a subscriber that returned has no active listener
      intro appended hphase
      have hended := (h.returned appended hphase).1
      rw [hactive] at hended
      cases hended
  · -- whoever does not listen is not given the event
    rw [deliver_of_not_active hactive]
    exact ⟨h.snapshot, h.memory, h.replayed, h.starting, fun hyes => absurd hyes hactive, h.ended,
      h.returned⟩

/-- Whatever is published, or fails to be, is nothing to a subscriber that is
not subscribed. -/
theorem Good.unwatched {s : State} {sub : Subscriber} (h : Good s sub)
    (hactive : sub.listener ≠ .active) (unpublished : List StreamEvent)
    {subscribers : Nat → Option Subscriber} : Good { s with unpublished, subscribers } sub :=
  ⟨h.snapshot, h.memory, h.replayed, h.starting, fun hyes => absurd hyes hactive, h.ended,
    h.returned⟩

/-! ## Steps of a subscriber -/

/-- A generator in another phase has not returned. -/
theorem not_returned_of_phase {sub : Subscriber} {phase : Phase} (h : sub.phase = phase)
    (hphase : ∀ appended, phase ≠ .returned appended) :
    ∀ appended, sub.phase ≠ .returned appended := by
  intro appended
  rw [h]
  exact hphase appended

/-- A subscriber that goes on in its replay or its queue. -/
theorem Good.move {s : State} {sub : Subscriber} (h : Good s sub) (sub' : Subscriber)
    (hsnapshot : sub'.snapshot = sub.snapshot) (hlistener : sub'.listener = sub.listener)
    (hbefore : ∀ appended, sub.phase ≠ .returned appended)
    (hafter : ∀ appended, sub'.phase ≠ .returned appended)
    (hgot : sub'.got s.events = sub.got s.events) (hqueue : sub.queue = [] → sub'.queue = [])
    (hreplayed : ∀ sent, sub'.phase = .replaying sent →
      sub'.received = (sub.past s.events).take sent)
    {subscribers : Nat → Option Subscriber} : Good { s with subscribers } sub' := by
  have hpast : sub'.past s.events = sub.past s.events := by
    unfold Subscriber.past
    rw [hsnapshot]
  constructor
  · intro hbackend
    rw [hsnapshot]
    exact h.snapshot hbackend
  · intro hbackend
    rw [hlistener]
    exact h.memory hbackend
  · intro sent hphase
    dsimp only
    rw [hpast]
    exact hreplayed sent hphase
  · intro hstarting
    dsimp only
    rw [hlistener] at hstarting
    rcases h.starting hstarting with ⟨hnil, heq, hprefix⟩
    rw [hgot, hpast]
    exact ⟨hqueue hnil, heq, hprefix⟩
  · intro hactive
    dsimp only
    rw [hlistener] at hactive
    rw [hgot]
    exact h.active hactive
  · intro hended _
    dsimp only
    rw [hlistener] at hended
    rw [hgot]
    exact h.ended hended hbefore
  · intro appended hphase
    exact absurd hphase (hafter appended)

/-- A subscriber that has received a closing event has received what the events
say. -/
theorem Good.alike_of_closed {s : State} {sub : Subscriber} (h : Good s sub)
    (hphase : ∀ appended, sub.phase ≠ .returned appended)
    (hclosed : Closed closes sub.received) : Alike closes sub.received s.events := by
  rcases received_prefix_got sub s.events with ⟨later, hgot⟩
  cases hlistener : sub.listener with
  | starting =>
      rcases h.starting hlistener with ⟨-, hpast, hprefix⟩
      rw [← hpast, hgot] at hprefix
      rcases (List.prefix_append sub.received later).trans hprefix with ⟨others, hevents⟩
      rw [← hevents]
      exact Alike.of_closed hclosed others
  | active =>
      have halike := h.active hlistener
      rw [hgot, List.append_assoc] at halike
      exact Alike.of_append halike hclosed
  | ended =>
      have halike := (h.ended hlistener hphase).2
      rw [hgot] at halike
      exact Alike.of_append halike hclosed

/-- A subscriber whose stream ends has received what the events say. -/
theorem Good.finish {s : State} {sub : Subscriber} (h : Good s sub)
    (halike : Alike closes sub.received s.events) {subscribers : Nat → Option Subscriber} :
    Good { s with subscribers } (sub.finish s.events.length) where
  snapshot := h.snapshot
  memory := by
    intro _ hstarting
    cases hstarting
  replayed := by
    intro sent hphase
    cases hphase
  starting := by
    intro hstarting
    cases hstarting
  active := by
    intro hactive
    cases hactive
  ended := by
    intro _ hnot
    exact absurd rfl (hnot s.events.length)
  returned := by
    intro appended hphase
    obtain rfl := Phase.returned.inj hphase
    refine ⟨rfl, Nat.le_refl _, ?_⟩
    dsimp only
    rw [List.take_length]
    exact halike

/-- The replay goes on, and what it sends is the next event that is owed. -/
theorem Good.replay {s t : State} {i : Nat} {sub : Subscriber} (h : Good s sub)
    (hstep : replayStep s i sub = some t) : ∃ sub', t = s.put i sub' ∧
      ∀ subscribers, Good { s with subscribers } sub' := by
  unfold replayStep at hstep
  split at hstep
  · rename_i sent hphase
    have hreceived := h.replayed sent hphase
    have hbefore := not_returned_of_phase hphase (by simp)
    have hahead : sub.ahead s.events = (sub.past s.events).drop sent := by
      unfold Subscriber.ahead
      rw [hphase]
    split at hstep
    · -- one more past event
      rename_i e he
      have hsplit : (sub.past s.events).drop sent = e :: (sub.past s.events).drop (sent + 1) := by
        rcases List.getElem?_eq_some_iff.mp he with ⟨hlt, rfl⟩
        exact List.drop_eq_getElem_cons hlt
      refine ⟨_, (Option.some.inj hstep).symm, fun subscribers =>
        h.move { sub with phase := .replaying (sent + 1), received := sub.received ++ [e] }
          rfl rfl hbefore ?_ ?_ (fun hnil => hnil) ?_⟩
      · intro appended hreturned
        cases hreturned
      · show (sub.received ++ [e]) ++ (sub.past s.events).drop (sent + 1) ++ sub.queue =
          sub.received ++ sub.ahead s.events ++ sub.queue
        rw [hahead, hsplit]
        simp
      · intro sent' hphase'
        obtain rfl := Phase.replaying.inj hphase'
        dsimp only
        rw [hreceived, List.take_add_one, he]
        rfl
    · -- the replay is at its end
      rename_i hnone
      have hnil : (sub.past s.events).drop sent = [] :=
        List.drop_eq_nil_of_le (List.getElem?_eq_none_iff.mp hnone)
      refine ⟨_, (Option.some.inj hstep).symm, fun subscribers =>
        h.move { sub with phase := .streaming } rfl rfl hbefore ?_ ?_ (fun hqueue => hqueue) ?_⟩
      · intro appended hreturned
        cases hreturned
      · show sub.received ++ [] ++ sub.queue = sub.received ++ sub.ahead s.events ++ sub.queue
        rw [hahead, hnil]
      · intro sent' hphase'
        cases hphase'
  · cases hstep

/-- The next event of the queue is sent, and a closing one ends the stream. -/
theorem Good.take {s t : State} {i : Nat} {sub : Subscriber} (h : Good s sub)
    (hstep : takeStep s i sub = some t) : ∃ sub', t = s.put i sub' ∧
      ∀ subscribers, Good { s with subscribers } sub' := by
  unfold takeStep at hstep
  split at hstep
  · rename_i e queue hphase hqueue
    refine ⟨_, (Option.some.inj hstep).symm, fun subscribers => ?_⟩
    have hbefore := not_returned_of_phase hphase (by simp)
    have hgot : ({ sub with queue, received := sub.received ++ [e] } : Subscriber).got s.events =
        sub.got s.events := by
      unfold Subscriber.got Subscriber.ahead
      rw [hphase, hqueue]
      simp
    have hmoved : Good { s with subscribers }
        { sub with queue, received := sub.received ++ [e] } := by
      refine h.move { sub with queue, received := sub.received ++ [e] } rfl rfl hbefore hbefore hgot
        (fun hnil => ?_) fun sent hreplaying => ?_
      · rw [hqueue] at hnil
        cases hnil
      · have hreplaying : sub.phase = .replaying sent := hreplaying
        rw [hphase] at hreplaying
        cases hreplaying
    split
    · -- the event closes the stream
      rename_i hcloses
      have hclosed : Closed closes (sub.received ++ [e]) := ⟨e, by simp, hcloses⟩
      exact hmoved.finish (hmoved.alike_of_closed hbefore hclosed)
    · exact hmoved
  · cases hstep

/-! ## What the steps keep -/

/-- A subscriber is served as well, whatever the status and the others. -/
theorem Good.frame {s : State} {sub : Subscriber} (h : Good s sub) (status : Option String)
    (subscribers : Nat → Option Subscriber) : Good { s with status, subscribers } sub :=
  ⟨h.snapshot, h.memory, h.replayed, h.starting, h.active, h.ended, h.returned⟩

/-- One subscriber goes on. -/
theorem put_inv {s : State} (hs : Inv s) {i : Nat} {sub : Subscriber}
    (h : ∀ subscribers, Good { s with subscribers } sub) : Inv (s.put i sub) where
  unpublished := hs.unpublished
  good := by
    intro j other hother
    by_cases hj : j = i
    · subst hj
      have heq : Function.update s.subscribers j (some sub) j = some other := hother
      rw [Function.update_self] at heq
      obtain rfl := Option.some.inj heq
      exact h _
    · have heq : Function.update s.subscribers i (some sub) j = some other := hother
      rw [Function.update_of_ne hj] at heq
      exact (hs.good j other heq).frame s.status _

/-- While there is a session, events are appended. -/
theorem append_of_found {s : State} (h : s.status ≠ none) (e : StreamEvent) :
    append s e = s.events ++ [e] := by
  unfold append
  rw [if_pos (Option.isSome_iff_ne_none.mpr h)]

/-- In memory an event is appended and published at once, while nobody replays. -/
theorem push_inv {s : State} (hs : Inv s) (hbackend : s.backend = .memory)
    (hstatus : s.status ≠ none) (hreplaying : NoneReplaying s) (e : StreamEvent) :
    Inv { s with events := append s e, subscribers := publish s e } where
  unpublished := hs.unpublished
  good := by
    intro i sub hsub
    rcases Option.map_eq_some_iff.mp hsub with ⟨old, hold, rfl⟩
    rw [append_of_found hstatus]
    have hnot : ∀ sent, old.phase ≠ .replaying sent := fun sent => hreplaying i old sent hold
    exact (hs.good i old hold).push hbackend (hs.unpublished hbackend) hnot e

/-- Under Redis it is appended, and to be published. -/
theorem append_inv {s : State} (hs : Inv s) (hbackend : s.backend = .redis)
    (hstatus : s.status ≠ none) (e : StreamEvent) :
    Inv { s with events := append s e, unpublished := s.unpublished ++ [e] } where
  unpublished := by
    intro hmemory
    rw [show s.backend = .memory from hmemory] at hbackend
    cases hbackend
  good := by
    intro i sub hsub
    rw [append_of_found hstatus]
    exact (hs.good i sub hsub).append hbackend e

/-- It is published in its turn, if anybody is there to hear it. -/
theorem publish_inv {s : State} (hs : Inv s) {place : Nat} {succeeds : Bool} {e : StreamEvent}
    (he : s.unpublished[place]? = some e) (htimely : Watched s → succeeds = true ∧ place = 0) :
    Inv { s with
      unpublished := s.unpublished.eraseIdx place
      subscribers := if succeeds then publish s e else s.subscribers } where
  unpublished := by
    intro hmemory
    rw [hs.unpublished hmemory] at he
    cases he
  good := by
    intro i sub hsub
    by_cases hwatched : Watched s
    · -- in order, and it succeeds
      rcases htimely hwatched with ⟨rfl, rfl⟩
      rcases Option.map_eq_some_iff.mp hsub with ⟨old, hold, rfl⟩
      cases hnext : s.unpublished with
      | nil =>
          rw [hnext] at he
          cases he
      | cons first later =>
          rw [hnext] at he
          obtain rfl := Option.some.inj he
          exact (hs.good i old hold).publish hnext
    · have hnone : ∀ j other, s.subscribers j = some other → other.listener ≠ .active :=
        fun j other hother hactive => hwatched ⟨j, other, hother, hactive⟩
      cases succeeds with
      | false => exact (hs.good i sub hsub).unwatched (hnone i sub hsub) _
      | true =>
          rcases Option.map_eq_some_iff.mp hsub with ⟨old, hold, rfl⟩
          rw [deliver_of_not_active (hnone i old hold)]
          exact (hs.good i old hold).unwatched (hnone i old hold) _

/-- A new subscriber has all events of the session ahead. -/
theorem newSubscriber_good {s : State} (hs : Inv s) (subscribers : Nat → Option Subscriber) :
    Good { s with subscribers } (newSubscriber s.backend s.events) := by
  cases hbackend : s.backend with
  | redis =>
      constructor
      · intro _ hnone
        cases hnone
      · intro hmemory
        cases hmemory
      · intro sent hphase
        obtain rfl := Phase.replaying.inj hphase
        rfl
      · intro _
        refine ⟨rfl, ?_, List.prefix_rfl⟩
        show [] ++ List.drop 0 s.events ++ [] = s.events
        simp
      · intro hactive
        cases hactive
      · intro hended
        cases hended
      · intro appended hphase
        cases hphase
  | memory =>
      constructor
      · intro hredis
        cases hredis
      · intro _ hstarting
        cases hstarting
      · intro sent hphase
        obtain rfl := Phase.replaying.inj hphase
        rfl
      · intro hstarting
        cases hstarting
      · intro _
        show Alike closes ([] ++ List.drop 0 s.events ++ [] ++ s.unpublished) s.events
        rw [hs.unpublished hbackend]
        simp only [List.drop_zero, List.nil_append, List.append_nil]
        exact Alike.refl s.events
      · intro hended
        cases hended
      · intro appended hphase
        cases hphase

/-- The subscription becomes active when the copy lacks what is to be published. -/
theorem Good.listen {s : State} {sub : Subscriber} (h : Good s sub)
    (hstarting : sub.listener = .starting)
    (halike : Alike closes (sub.past s.events ++ s.unpublished) s.events)
    (subscribers : Nat → Option Subscriber) :
    Good { s with subscribers } { sub with listener := .active } := by
  rcases h.starting hstarting with ⟨-, hpast, -⟩
  constructor
  · exact h.snapshot
  · intro _ hagain
    cases hagain
  · exact h.replayed
  · intro hagain
    cases hagain
  · intro _
    show Alike closes (sub.got s.events ++ s.unpublished) s.events
    rw [hpast]
    exact halike
  · intro hended
    cases hended
  · intro appended hphase
    have hended := (h.returned appended hphase).1
    rw [hstarting] at hended
    cases hended

/-- The stream ends at a ping with nothing left on its way. -/
theorem Good.alike_of_drained {s : State} {sub : Subscriber} (h : Good s sub)
    (hphase : sub.phase = .pinging) (hdrained : Drained s sub) :
    Alike closes sub.received s.events := by
  have hnot := not_returned_of_phase hphase (by simp)
  rcases hdrained with hclosed | ⟨hlistener, hqueue, hunpublished⟩
  · exact h.alike_of_closed hnot hclosed
  · have hgot : sub.got s.events = sub.received := by
      refine got_of_settled (fun sent hreplaying => ?_) hqueue
      rw [hphase] at hreplaying
      cases hreplaying
    cases hcase : sub.listener with
    | starting => exact absurd hcase hlistener
    | active =>
        have halike := h.active hcase
        rw [hgot, hunpublished, List.append_nil] at halike
        exact halike
    | ended =>
        have halike := (h.ended hcase hnot).2
        rw [hgot] at halike
        exact halike

/-- Between the queue and a ping nothing moves. -/
theorem Good.turn {s : State} {sub : Subscriber} (h : Good s sub) {phase : Phase}
    (hbefore : sub.phase = .streaming ∨ sub.phase = .pinging)
    (hafter : phase = .streaming ∨ phase = .pinging) (subscribers : Nat → Option Subscriber) :
    Good { s with subscribers } { sub with phase } := by
  have hgot : ({ sub with phase } : Subscriber).got s.events = sub.got s.events := by
    unfold Subscriber.got Subscriber.ahead
    rcases hbefore with hb | hb <;> rcases hafter with rfl | rfl <;> rw [hb]
  have hnot : ∀ appended, sub.phase ≠ .returned appended := by
    rcases hbefore with hb | hb
    · exact not_returned_of_phase hb (by simp)
    · exact not_returned_of_phase hb (by simp)
  refine h.move { sub with phase } rfl rfl hnot ?_ hgot (fun hnil => hnil) ?_
  · rcases hafter with rfl | rfl <;> simp
  · intro sent hreplaying
    have hreplaying : phase = .replaying sent := hreplaying
    rcases hafter with rfl | rfl <;> cases hreplaying

/-- Every timely step keeps all subscribers served. -/
theorem step_inv (s : State) (l : Label) (t : State) (hs : Inv s) (hl : Timely s l)
    (h : step s l = some t) : Inv t := by
  cases l with
  | push e =>
      simp only [step] at h
      split at h
      · rename_i hbackend
        obtain rfl := Option.some.inj h
        -- in memory an event goes to the history and to every queue at once
        exact push_inv hs hbackend hl.1 hl.2 e
      · cases h
  | append e =>
      simp only [step] at h
      split at h
      · rename_i hbackend
        obtain rfl := Option.some.inj h
        -- on Redis it is stored first and published later
        exact append_inv hs hbackend hl e
      · cases h
  | publish place succeeds =>
      rcases Option.map_eq_some_iff.mp h with ⟨e, he, rfl⟩
      exact publish_inv hs he hl
  | setStatus status =>
      obtain rfl := Option.some.inj h
      -- the status is no part of what a subscriber gets
      exact ⟨hs.unpublished, fun i sub hsub => (hs.good i sub hsub).frame status s.subscribers⟩
  | subscribe i =>
      simp only [step] at h
      split at h
      · cases h
      · obtain rfl := Option.some.inj h
        exact hs
      · obtain rfl := Option.some.inj h
        -- a new subscriber has received nothing
        exact put_inv hs fun subscribers => newSubscriber_good hs subscribers
  | listen i =>
      rcases Option.bind_eq_some_iff.mp h with ⟨sub, hsub, hstep⟩
      split at hstep
      · rename_i hstarting
        obtain rfl := Option.some.inj hstep
        -- a timely listener misses nothing between its copy and its channel
        exact put_inv hs fun subscribers =>
          (hs.good i sub hsub).listen hstarting (hl sub hsub) subscribers
      · cases hstep
  | listenerFails i => exact absurd hl id
  | replay i =>
      rcases Option.bind_eq_some_iff.mp h with ⟨sub, hsub, hstep⟩
      -- the replay hands out the snapshot one by one
      rcases (hs.good i sub hsub).replay hstep with ⟨sub', rfl, hgood⟩
      exact put_inv hs hgood
  | take i =>
      rcases Option.bind_eq_some_iff.mp h with ⟨sub, hsub, hstep⟩
      -- what is taken comes out of the queue
      rcases (hs.good i sub hsub).take hstep with ⟨sub', rfl, hgood⟩
      exact put_inv hs hgood
  | ping i =>
      rcases Option.bind_eq_some_iff.mp h with ⟨sub, hsub, hstep⟩
      split at hstep
      · rename_i hphase
        obtain rfl := Option.some.inj hstep
        exact put_inv hs fun subscribers =>
          -- a ping goes between two events
          (hs.good i sub hsub).turn (.inl hphase.1) (.inr rfl) subscribers
      · cases hstep
  | check i =>
      rcases Option.bind_eq_some_iff.mp h with ⟨sub, hsub, hstep⟩
      split at hstep
      · rename_i hphase
        obtain rfl := Option.some.inj hstep
        refine put_inv hs fun subscribers => ?_
        split
        · rename_i hfinished
          -- it returns only once everything that was published has been handed out
          have halike := (hs.good i sub hsub).alike_of_drained hphase (hl sub hsub hfinished)
          exact (hs.good i sub hsub).finish halike
        · exact (hs.good i sub hsub).turn (.inr hphase) (.inl rfl) subscribers
      · cases hstep
  | leave i =>
      obtain rfl := Option.some.inj h
      refine ⟨hs.unpublished, fun j sub hsub => ?_⟩
      dsimp only at hsub
      -- the others do not notice
      by_cases hj : j = i
      · subst hj
        rw [Function.update_self] at hsub
        cases hsub
      · rw [Function.update_of_ne hj] at hsub
        exact (hs.good j sub hsub).frame s.status _

/-! ## Runs -/

/-- **Events are delivered exactly once.** In a run whose steps are timely every
subscriber has received what it is owed. -/
theorem exactlyOnce_of_timely (backend : Backend) {run : List Label} {s : State}
    (htimely : Runs.Along step Timely (start backend) run)
    (h : Runs.exec step (start backend) run = some s) : ExactlyOnce s := by
  have hinv := Runs.invariant_along (I := Inv) step_inv (init_inv backend) htimely h
  intro i sub hsub
  exact (hinv.good i sub hsub).delivered

/-- The page was opened. -/
def opened : StreamEvent := ⟨"OPEN", "1"⟩

/-- Credentials were submitted. -/
def submitted : StreamEvent := ⟨"CREDENTIALS_SUBMITTED", "2"⟩

/-- The event that closes the stream. -/
def connected : StreamEvent := ⟨"CONNECTED", "3"⟩

/-- Under Redis, a subscriber that comes between two events; the second is
published while it replays the first. -/
def followed : List Label :=
  [.append opened, .publish 0 true, .subscribe 1, .listen 1, .append submitted, .publish 0 true,
    .replay 1, .replay 1, .take 1, .ping 1, .check 1, .append connected,
    .setStatus (some "completed"), .publish 0 true, .take 1]

/-- Each event is published before the next is appended, and a subscriber listens
before. -/
theorem followed_timely : Runs.Along step Timely (start .redis) followed := by
  have hfound : ∀ status : String, some status ≠ none := fun status => Option.some_ne_none status
  refine ⟨hfound _, fun _ => ⟨rfl, rfl⟩, trivial, ?_, hfound _, fun _ => ⟨rfl, rfl⟩, trivial,
    trivial, trivial, trivial, ?_, hfound _, trivial, fun _ => ⟨rfl, rfl⟩, trivial, trivial⟩
  · -- the copy has all that was published
    intro sub hsub
    obtain rfl := Option.some.inj hsub
    exact Alike.refl _
  · intro sub hsub hfinished
    cases hfinished

theorem followed_exactlyOnce : ∃ s, Runs.exec step (start .redis) followed = some s ∧
    (s.subscribers 1).map (·.received) = some [opened, submitted, connected] ∧ ExactlyOnce s := by
  have hrun : (Runs.exec step (start .redis) followed).map
      (fun s => (s.subscribers 1).map (·.received)) =
        some (some [opened, submitted, connected]) := by decide +kernel
  rcases Option.map_eq_some_iff.mp hrun with ⟨s, hs, hreceived⟩
  exact ⟨s, hs, hreceived, exactlyOnce_of_timely .redis followed_timely hs⟩

/-- An event is pushed between a subscriber's registration and its replay. -/
def pushedWhileReplaying : List Label :=
  [.subscribe 1, .push opened, .replay 1, .replay 1, .take 1]

/-- An event is published between the copy of the session and the subscription. -/
def publishedBeforeListening : List Label :=
  [.subscribe 1, .append opened, .publish 0 true, .listen 1, .replay 1]

theorem pushedWhileReplaying_twice_publishedBeforeListening_never :
    (∃ s, Runs.exec step (start .memory) pushedWhileReplaying = some s ∧
        (s.subscribers 1).map (·.received) = some [opened, opened] ∧ ¬ ExactlyOnce s) ∧
      ∃ s, Runs.exec step (start .redis) publishedBeforeListening = some s ∧
        s.subscribers 1 = some ⟨some [], .active, [], .streaming, []⟩ ∧ ¬ ExactlyOnce s := by
  have hmemory : (Runs.exec step (start .memory) pushedWhileReplaying).map
      (fun s => (s.subscribers 1, s.events)) =
        some (some ⟨none, .active, [], .streaming, [opened, opened]⟩, [opened]) := by
    decide +kernel
  have hredis : (Runs.exec step (start .redis) publishedBeforeListening).map
      (fun s => (s.subscribers 1, s.events, s.unpublished)) =
        some (some ⟨some [], .active, [], .streaming, []⟩, [opened], []) := by decide +kernel
  rcases Option.map_eq_some_iff.mp hmemory with ⟨s, hs, heq⟩
  rcases Prod.mk.inj heq with ⟨hsub, hevents⟩
  rcases Option.map_eq_some_iff.mp hredis with ⟨t, ht, heq'⟩
  rcases Prod.mk.inj heq' with ⟨hsub', hrest⟩
  rcases Prod.mk.inj hrest with ⟨hevents', hunpublished⟩
  refine ⟨⟨s, hs, by rw [hsub]; rfl, fun hall => ?_⟩, ⟨t, ht, hsub', fun hall => ?_⟩⟩
  · have hordered := (hall 1 _ hsub).ordered
    rw [hevents] at hordered
    revert hordered
    decide
  · have hcomplete := (hall 1 _ hsub').complete
      (.inr ⟨rfl, by decide, rfl, hunpublished⟩)
    rw [hevents'] at hcomplete
    revert hcomplete
    unfold Alike
    decide

end Plaidify.EventStream
