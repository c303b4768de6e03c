import Mathlib.Logic.Function.Basic
import Plaidify.Lib.Closing
import Plaidify.Lib.Runs
import Plaidify.Links.Endpoints

/-!
# The event stream of a link session

`link_event_stream` and `_push_link_session_event` of
`src/src/routers/link_sessions.py`, with `publish_link_event` and
`subscribe_link_events` of `src/src/session_store.py`, for one link session.

In memory the session is one object, and a push appends to its list and puts the
event into the registered queues without an `await` that suspends. A subscriber
registers its queue with the request, and its replay iterates the list while
others append to it. Under Redis a subscriber replays a copy, a push publishes
after it has appended, and the queue is filled by a task that subscribes to the
channel some time after the copy was made.
-/

namespace Plaidify.EventStream

open Links (Backend)

/-- An event, with the JSON text that the stream sends for it. -/
structure StreamEvent where
  event : String
  data : String
deriving Repr, DecidableEq

/-- The events after which the stream ends. -/
def closes (e : StreamEvent) : Bool :=
  e.event == "CONNECTED" || e.event == "ERROR"

/-! ## State -/

/-- The task that fills the queue of a subscriber. -/
inductive Listener where
  /-- It has not subscribed to the channel yet. -/
  | starting
  /-- Subscribed; in memory, the queue is registered. -/
  | active
  | ended
deriving Repr, DecidableEq

/-- Where `event_generator` is. -/
inductive Phase where
  /-- It has sent this number of past events. -/
  | replaying (sent : Nat)
  /-- It waits for the queue. -/
  | streaming
  /-- It has sent a ping, and is to look at the session. -/
  | pinging
  /-- It has returned, after this number of events had been appended. -/
  | returned (appended : Nat)
deriving Repr, DecidableEq

structure Subscriber where
  /-- Under Redis, the events of the session as it was read. -/
  snapshot : Option (List StreamEvent)
  listener : Listener
  /-- What was published to it, whether or not it has arrived. -/
  queue : List StreamEvent
  phase : Phase
  /-- History variable: the events that it was sent, in that order. -/
  received : List StreamEvent
deriving Repr, DecidableEq

structure State where
  backend : Backend
  /-- The status of the session as it would be read; `none` where there is none. -/
  status : Option String
  /-- The list `events` of the session. -/
  events : List StreamEvent
  /-- Under Redis, the events that are to be published. -/
  unpublished : List StreamEvent
  subscribers : Nat → Option Subscriber

namespace Subscriber

/-- The list that the replay iterates. -/
def past (sub : Subscriber) (events : List StreamEvent) : List StreamEvent :=
  sub.snapshot.getD events

/-- An event is published. The listener of a channel stops at one that closes
the stream. -/
def deliver (backend : Backend) (e : StreamEvent) (sub : Subscriber) : Subscriber :=
  match sub.listener with
  | .active =>
      { sub with
        queue := sub.queue ++ [e]
        listener := if backend = .redis ∧ closes e = true then .ended else .active }
  | _ => sub

/-- The generator returns. -/
def finish (appended : Nat) (sub : Subscriber) : Subscriber :=
  { sub with phase := .returned appended, listener := .ended }

end Subscriber

/-- What `link_event_stream` has of a new subscriber. -/
def newSubscriber (backend : Backend) (events : List StreamEvent) : Subscriber :=
  match backend with
  -- a copy, read before the listener task subscribes
  | .redis => ⟨some events, .starting, [], .replaying 0, []⟩
  -- the replay iterates the list that events are appended to
  | .memory => ⟨none, .active, [], .replaying 0, []⟩

def publish (s : State) (e : StreamEvent) : Nat → Option Subscriber :=
  fun i => (s.subscribers i).map (Subscriber.deliver s.backend e)

/-- `append_link_session_event`. -/
def append (s : State) (e : StreamEvent) : List StreamEvent :=
  if s.status.isSome then s.events ++ [e] else s.events

/-- Statuses at which the generator returns after a ping. -/
def finished (status : Option String) : Bool :=
  match status with
  | none => true
  | some status => ["completed", "error", "expired"].contains status

/-! ## Steps -/

inductive Label where
  /-- `_push_link_session_event` in memory. -/
  | push (e : StreamEvent)
  /-- Its first half under Redis. -/
  | append (e : StreamEvent)
  /-- Its second half, for the event that stands at this place. -/
  | publish (place : Nat) (succeeds : Bool)
  /-- The status of the session changes, or the session is lost. -/
  | setStatus (status : Option String)
  | subscribe (i : Nat)
  /-- The listener subscribes to the channel. -/
  | listen (i : Nat)
  /-- The listener loses its connection. -/
  | listenerFails (i : Nat)
  /-- The generator sends the next past event, or goes on to the queue. -/
  | replay (i : Nat)
  | take (i : Nat)
  /-- 15 seconds have passed without an event. -/
  | ping (i : Nat)
  | check (i : Nat)
  /-- The client disconnects. -/
  | leave (i : Nat)
deriving Repr, DecidableEq

/-- Replace a subscriber. -/
def State.put (s : State) (i : Nat) (sub : Subscriber) : State :=
  { s with subscribers := Function.update s.subscribers i (some sub) }

/-- The next item of the replay. -/
def replayStep (s : State) (i : Nat) (sub : Subscriber) : Option State :=
  match sub.phase with
  | .replaying sent =>
      match (sub.past s.events)[sent]? with
      | some e =>
          some (s.put i { sub with phase := .replaying (sent + 1), received := sub.received ++ [e] })
      | none => some (s.put i { sub with phase := .streaming })
  | _ => none

/-- The next item of the queue. -/
def takeStep (s : State) (i : Nat) (sub : Subscriber) : Option State :=
  match sub.phase, sub.queue with
  | .streaming, e :: queue =>
      let sub := { sub with queue, received := sub.received ++ [e] }
      some (s.put i (if closes e then sub.finish s.events.length else sub))
  | _, _ => none

def step (s : State) : Label → Option State
  | .push e =>
      if s.backend = .memory then some { s with events := append s e, subscribers := publish s e }
      else none
  | .append e =>
      -- the event is published whether or not the session was found
      if s.backend = .redis then
        some { s with events := append s e, unpublished := s.unpublished ++ [e] }
      else none
  | .publish place succeeds =>
      -- a failure is logged, and the event is gone
      (s.unpublished[place]?).map fun e =>
        { s with
          unpublished := s.unpublished.eraseIdx place
          subscribers := if succeeds then publish s e else s.subscribers }
  | .setStatus status => some { s with status }
  | .subscribe i =>
      match s.subscribers i, s.status with
      | some _, _ => none
      -- 404
      | none, none => some s
      | none, some _ => some (s.put i (newSubscriber s.backend s.events))
  | .listen i =>
      (s.subscribers i).bind fun sub =>
        if sub.listener = .starting then some (s.put i { sub with listener := .active }) else none
  | .listenerFails i =>
      (s.subscribers i).bind fun sub =>
        if s.backend = .redis then some (s.put i { sub with listener := .ended }) else none
  | .replay i => (s.subscribers i).bind (replayStep s i)
  | .take i => (s.subscribers i).bind (takeStep s i)
  | .ping i =>
      (s.subscribers i).bind fun sub =>
        -- in memory what was published has arrived
        if sub.phase = .streaming ∧ (s.backend = .redis ∨ sub.queue = []) then
          some (s.put i { sub with phase := .pinging })
        else none
  | .check i =>
      (s.subscribers i).bind fun sub =>
        if sub.phase = .pinging then
          some (s.put i (if finished s.status then sub.finish s.events.length
            else { sub with phase := .streaming }))
        else none
  | .leave i => some { s with subscribers := Function.update s.subscribers i none }

/-- A new session. -/
def start (backend : Backend) : State :=
  ⟨backend, some "awaiting_institution", [], [], fun _ => none⟩

/-! ## What a subscriber is owed -/

/-- The events that were appended until its stream ended. -/
def Subscriber.owed (sub : Subscriber) (events : List StreamEvent) : List StreamEvent :=
  match sub.phase with
  | .returned appended => events.take appended
  | _ => events

/-- Nothing is on its way to the subscriber, and nothing will be that has been
appended already. -/
def Subscriber.Settled (sub : Subscriber) (unpublished : List StreamEvent) : Prop :=
  (∃ appended, sub.phase = .returned appended) ∨
    (sub.phase = .streaming ∧ sub.listener ≠ .starting ∧ sub.queue = [] ∧ unpublished = [])

/-- Up to the closing event, the subscriber has received the events of the
session once each and in order; all of them once it is settled. -/
structure Delivered (s : State) (sub : Subscriber) : Prop where
  ordered : Closing.upTo closes sub.received <+: Closing.upTo closes s.events
  complete : sub.Settled s.unpublished →
    Closing.Alike closes sub.received (sub.owed s.events)

/-- Every subscriber is served so. -/
def ExactlyOnce (s : State) : Prop :=
  ∀ i sub, s.subscribers i = some sub → Delivered s sub

/-! ## Where they are served so -/

/-- No subscriber has registered and is still replaying. -/
def NoneReplaying (s : State) : Prop :=
  ∀ i sub sent, s.subscribers i = some sub → sub.phase ≠ .replaying sent

/-- Some subscriber is subscribed to the channel. -/
def Watched (s : State) : Prop :=
  ∃ i sub, s.subscribers i = some sub ∧ sub.listener = .active

/-- Nothing is on its way to a subscriber whose stream is to end, unless it has
received a closing event. -/
def Drained (s : State) (sub : Subscriber) : Prop :=
  Closing.Closed closes sub.received ∨
    (sub.listener ≠ .starting ∧ sub.queue = [] ∧ s.unpublished = [])

def Timely (s : State) : Label → Prop
  | .push _ => s.status ≠ none ∧ NoneReplaying s
  | .append _ => s.status ≠ none
  | .publish place succeeds => Watched s → succeeds = true ∧ place = 0
  | .listen i => ∀ sub ∈ s.subscribers i,
      Closing.Alike closes (sub.past s.events ++ s.unpublished) s.events
  | .listenerFails _ => False
  | .check i => ∀ sub ∈ s.subscribers i, finished s.status = true → Drained s sub
  | _ => True

end Plaidify.EventStream
