import Plaidify.EventStream.Stream
import Plaidify.HostedLink.Sessions
import Plaidify.Lib.JsonPaths

/-!
# What the events of a session carry

`post_link_session_event` and `_push_link_session_event` put events into the
stream of a session: into its stored list, to its subscribers, and into what is
replayed to later ones. What a page posts is sanitised when it arrives, and
everything is sanitised when the event is built.
-/

namespace Plaidify.EventStream

open AccessJobs (Dict)
open HostedLink (Event hostedEventForbiddenKeys sanitizeHostedEventData sanitizeItems
  sanitizeMembers eventName)
open Links (Backend)
open Json (PathStep)

/-! ## Sanitising removes members -/

mutual

theorem sanitizeHostedEventData_eq : ∀ (v : Json),
    sanitizeHostedEventData v = v.prune hostedEventForbiddenKeys.contains
  | .obj kvs => by rw [sanitizeHostedEventData, Json.prune, sanitizeMembers_eq kvs]
  | .arr xs => by rw [sanitizeHostedEventData, Json.prune, sanitizeItems_eq xs]
  | .null | .bool _ | .int _ | .float _ | .str _ => rfl

theorem sanitizeItems_eq : ∀ (xs : List Json),
    sanitizeItems xs = Json.pruneItems hostedEventForbiddenKeys.contains xs
  | [] => rfl
  | x :: xs => by
      rw [sanitizeItems, Json.pruneItems, sanitizeHostedEventData_eq x, sanitizeItems_eq xs]

theorem sanitizeMembers_eq : ∀ (kvs : Dict),
    sanitizeMembers kvs = Json.pruneMembers hostedEventForbiddenKeys.contains kvs
  | [] => rfl
  | (k, v) :: kvs => by
      rw [sanitizeMembers, Json.pruneMembers, sanitizeHostedEventData_eq v, sanitizeMembers_eq kvs]

end

/-- No forbidden key occurs in the data, at any depth. -/
def Clean (data : Dict) : Prop :=
  ∀ k ∈ (Json.obj data).keys, k ∉ hostedEventForbiddenKeys

/-- At every path of allowed keys the data has the sanitised value of what the
original has there, and nothing where that has nothing. -/
def Complete (original data : Dict) : Prop :=
  ∀ path, (∀ k, PathStep.key k ∈ path → k ∉ hostedEventForbiddenKeys) →
    (Json.obj data).at? path = ((Json.obj original).at? path).map sanitizeHostedEventData

theorem contains_eq_false {k : String} :
    hostedEventForbiddenKeys.contains k = false ↔ k ∉ hostedEventForbiddenKeys := by
  rw [← Bool.not_eq_true, List.contains_iff_mem]

theorem clean_sanitizeMembers (data : Dict) : Clean (sanitizeMembers data) := by
  intro k hk
  rw [sanitizeMembers_eq] at hk
  exact contains_eq_false.mp (Json.keys_prune (.obj data) k hk)

theorem complete_sanitizeMembers (data : Dict) : Complete data (sanitizeMembers data) := by
  intro path hpath
  have hallowed : ∀ k, PathStep.key k ∈ path → hostedEventForbiddenKeys.contains k = false :=
    fun k hk => contains_eq_false.mpr (hpath k hk)
  rw [sanitizeMembers_eq, funext sanitizeHostedEventData_eq]
  exact Json.at?_prune hallowed (.obj data)

theorem sanitizeMembers_twice (data : Dict) :
    sanitizeMembers (sanitizeMembers data) = sanitizeMembers data := by
  simp only [sanitizeMembers_eq]
  exact Json.pruneMembers_pruneMembers data

/-! ## The events of a session -/

section

variable (iso : Nat → String)

/-- The name of an event as the stream sends it. -/
def nameText : Json → String
  | .str name => name
  | name => Json.dumps name

/-- What the stream sends for an event; `iso` is `isoformat`. -/
def streamEvent (e : Event) : StreamEvent where
  event := nameText e.name
  data := Json.dumps (.obj
    [("event", e.name), ("timestamp", .str (iso e.timestamp)), ("data", .obj e.data)])

/-- An event with what it was made of. -/
structure Made where
  original : Dict
  event : Event

structure SessionEvents where
  stream : State
  /-- History variable: the events that were pushed. -/
  made : List Made

inductive EventLabel where
  /-- `POST /link/sessions/{link_token}/event`. -/
  | post (body : Json) (now : Nat)
  /-- `_push_link_session_event` by the server. -/
  | serverPush (name : Json) (data : Option Dict) (now : Nat)
  /-- What subscribers, listeners and publications do, and changes of the status. -/
  | stream (l : Label)

/-- `_push_link_session_event`: the event is built, and appended to the session;
in memory it is published at once. -/
def pushEvent (s : SessionEvents) (original : Dict) (name : Json) (data : Option Dict)
    (now : Nat) : Option SessionEvents :=
  let event : Event := { name, timestamp := now, data := sanitizeMembers (data.getD []) }
  let l : Label := match s.stream.backend with
    | .memory => .push (streamEvent iso event)
    | .redis => .append (streamEvent iso event)
  (step s.stream l).map fun stream => { stream, made := s.made ++ [{ original, event }] }

/-- `post_link_session_event`. -/
def postLinkSessionEvent (s : SessionEvents) (body : Json) (now : Nat) : Option SessionEvents :=
  match s.stream.status, body with
  -- 404
  | none, _ => some s
  | some status, .obj members =>
      -- 410
      if status = "expired" then some s
      else
        let original := members.filter fun m => m.1 != "event"
        match eventName members with
        -- `CONNECTED` is for the server to say
        | .str "CONNECTED" => some s
        | name => pushEvent iso s original name (some (sanitizeMembers original)) now
  -- a body without `get` is an internal error
  | some _, _ => some s

/-- The pushes have labels of their own. -/
def Label.pushes : Label → Bool
  | .push _ | .append _ => true
  | _ => false

def eventStep (s : SessionEvents) : EventLabel → Option SessionEvents
  | .post body now => postLinkSessionEvent iso s body now
  | .serverPush name data now => pushEvent iso s (data.getD []) name data now
  | .stream l => if l.pushes then none else (step s.stream l).map ({ s with stream := · })

end

def SessionEvents.start (backend : Backend) : SessionEvents :=
  ⟨EventStream.start backend, []⟩

/-! ## Where events are -/

/-- The event is stored, is to be published, was published to a subscriber, is in
the copy that a subscriber replays, or was sent to one. -/
def Occurs (s : State) (e : StreamEvent) : Prop :=
  e ∈ s.events ∨ e ∈ s.unpublished ∨ ∃ i sub, s.subscribers i = some sub ∧
    (e ∈ sub.queue ∨ e ∈ sub.received ∨ ∃ past ∈ sub.snapshot, e ∈ past)

/-- The event that a label brings. -/
def Label.brings : Label → Option StreamEvent
  | .push e | .append e => some e
  | _ => none

/-- Every event was made by a push, of which it has the allowed part and nothing
else. -/
def Sanitised (iso : Nat → String) (s : SessionEvents) : Prop :=
  ∀ e, Occurs s.stream e → ∃ m ∈ s.made, e = streamEvent iso m.event ∧
    Clean m.event.data ∧ Complete m.original m.event.data

/-- The event was published to the subscriber, is in the copy that it replays, or was
sent to it. -/
def Subscriber.Holds (sub : Subscriber) (e : StreamEvent) : Prop :=
  e ∈ sub.queue ∨ e ∈ sub.received ∨ ∃ past ∈ sub.snapshot, e ∈ past

theorem occurs_of_holds {s : State} {i : Nat} {sub : Subscriber} {x : StreamEvent}
    (hget : s.subscribers i = some sub) (h : sub.Holds x) : Occurs s x :=
  .inr (.inr ⟨i, sub, hget, h⟩)

theorem mem_append_events {s : State} {e x : StreamEvent} (h : x ∈ append s e) :
    x ∈ s.events ∨ x = e := by
  unfold append at h
  split at h
  · exact (List.mem_append.mp h).imp_right List.mem_singleton.mp
  · exact .inl h

theorem holds_publish {s : State} {e x : StreamEvent} {i : Nat} {sub : Subscriber}
    (h : publish s e i = some sub) (hx : sub.Holds x) : Occurs s x ∨ x = e := by
  rcases Option.map_eq_some_iff.mp h with ⟨old, hold, rfl⟩
  unfold Subscriber.deliver at hx
  split at hx
  · rcases hx with hx | hx
    · rcases List.mem_append.mp hx with hx | hx
      · exact .inl (occurs_of_holds hold (.inl hx))
      · exact .inr (List.mem_singleton.mp hx)
    · exact .inl (occurs_of_holds hold (.inr hx))
  · exact .inl (occurs_of_holds hold hx)

theorem holds_past {s : State} {i : Nat} {sub : Subscriber} {x : StreamEvent}
    (hget : s.subscribers i = some sub) (h : x ∈ sub.past s.events) : Occurs s x := by
  unfold Subscriber.past at h
  cases hsnapshot : sub.snapshot with
  | none =>
      rw [hsnapshot] at h
      exact .inl h
  | some past =>
      rw [hsnapshot] at h
      exact occurs_of_holds hget (.inr (.inr ⟨past, hsnapshot, h⟩))

/-- What occurs after one subscriber was replaced by one that holds nothing new. -/
theorem occurs_put {s : State} {i : Nat} {sub : Subscriber} {x : StreamEvent}
    (hsub : sub.Holds x → Occurs s x) (h : Occurs (s.put i sub) x) : Occurs s x := by
  rcases h with h | h | ⟨j, other, hget, hx⟩
  · exact .inl h
  · exact .inr (.inl h)
  · change Function.update s.subscribers i (some sub) j = some other at hget
    by_cases hj : j = i
    · subst hj
      rw [Function.update_self, Option.some.injEq] at hget
      subst hget
      exact hsub hx
    · rw [Function.update_of_ne hj] at hget
      exact occurs_of_holds hget hx

/-! ## What a step brings -/

theorem occurs_push {s t : State} {e x : StreamEvent} (h : step s (.push e) = some t)
    (hx : Occurs t x) : Occurs s x ∨ x = e := by
  simp only [step] at h
  split at h
  · obtain rfl := Option.some.inj h
    rcases hx with hx | hx | ⟨i, sub, hget, hx⟩
    · exact (mem_append_events hx).imp_left .inl
    · exact .inl (.inr (.inl hx))
    · exact holds_publish hget hx
  · cases h

theorem occurs_append {s t : State} {e x : StreamEvent} (h : step s (.append e) = some t)
    (hx : Occurs t x) : Occurs s x ∨ x = e := by
  simp only [step] at h
  split at h
  · obtain rfl := Option.some.inj h
    rcases hx with hx | hx | hx
    · exact (mem_append_events hx).imp_left .inl
    · rcases List.mem_append.mp hx with hx | hx
      · exact .inl (.inr (.inl hx))
      · exact .inr (List.mem_singleton.mp hx)
    · exact .inl (.inr (.inr hx))
  · cases h

/-- What is published was to be published. -/
theorem occurs_publish {s t : State} {place : Nat} {succeeds : Bool} {x : StreamEvent}
    (h : step s (.publish place succeeds) = some t) (hx : Occurs t x) : Occurs s x := by
  rcases Option.map_eq_some_iff.mp h with ⟨e, hplace, rfl⟩
  rcases hx with hx | hx | ⟨i, sub, hget, hx⟩
  · exact .inl hx
  · exact .inr (.inl (List.mem_of_mem_eraseIdx hx))
  · cases succeeds with
    | false => exact occurs_of_holds hget hx
    | true =>
        rcases holds_publish hget hx with hx | rfl
        · exact hx
        · exact .inr (.inl (List.mem_of_getElem? hplace))

/-- A new subscriber has at most a copy of the stored events. -/
theorem occurs_subscribe {s t : State} {i : Nat} {x : StreamEvent}
    (h : step s (.subscribe i) = some t) (hx : Occurs t x) : Occurs s x := by
  simp only [step] at h
  split at h
  · cases h
  · obtain rfl := Option.some.inj h
    exact hx
  · obtain rfl := Option.some.inj h
    refine occurs_put (fun hnew => ?_) hx
    cases hbackend : s.backend with
    | memory =>
        rw [hbackend] at hnew
        simp [Subscriber.Holds, newSubscriber] at hnew
    | redis =>
        rw [hbackend] at hnew
        exact .inl (by simpa [Subscriber.Holds, newSubscriber] using hnew)

theorem occurs_leave {s t : State} {i : Nat} {x : StreamEvent} (h : step s (.leave i) = some t)
    (hx : Occurs t x) : Occurs s x := by
  obtain rfl := Option.some.inj h
  rcases hx with hx | hx | ⟨j, sub, hget, hx⟩
  · exact .inl hx
  · exact .inr (.inl hx)
  · change Function.update s.subscribers i none j = some sub at hget
    by_cases hj : j = i
    · subst hj
      rw [Function.update_self] at hget
      cases hget
    · rw [Function.update_of_ne hj] at hget
      exact occurs_of_holds hget hx

/-- The replay sends an event of the list that it iterates. -/
theorem occurs_replayStep {s t : State} {i : Nat} {sub : Subscriber} {x : StreamEvent}
    (hget : s.subscribers i = some sub) (h : replayStep s i sub = some t) (hx : Occurs t x) :
    Occurs s x := by
  unfold replayStep at h
  split at h
  · split at h
    · rename_i e hpast
      obtain rfl := Option.some.inj h
      refine occurs_put (fun hnew => ?_) hx
      rcases hnew with hnew | hnew | hnew
      · exact occurs_of_holds hget (.inl hnew)
      · rcases List.mem_append.mp hnew with hnew | hnew
        · exact occurs_of_holds hget (.inr (.inl hnew))
        · rw [List.mem_singleton.mp hnew]
          exact holds_past hget (List.mem_of_getElem? hpast)
      · exact occurs_of_holds hget (.inr (.inr hnew))
    · obtain rfl := Option.some.inj h
      refine occurs_put (fun hnew => ?_) hx
      exact occurs_of_holds hget hnew
  · cases h

/-- What is taken from the queue is sent. -/
theorem occurs_takeStep {s t : State} {i : Nat} {sub : Subscriber} {x : StreamEvent}
    (hget : s.subscribers i = some sub) (h : takeStep s i sub = some t) (hx : Occurs t x) :
    Occurs s x := by
  unfold takeStep at h
  split at h
  · rename_i e queue _ hqueue
    obtain rfl := Option.some.inj h
    refine occurs_put (fun hnew => occurs_of_holds hget ?_) hx
    -- whether or not the generator returns with the event
    have hlists : x ∈ queue ∨ x ∈ sub.received ++ [e] ∨ ∃ past ∈ sub.snapshot, x ∈ past := by
      split at hnew
      · exact hnew
      · exact hnew
    unfold Subscriber.Holds
    rw [hqueue]
    rcases hlists with hlist | hlist | hlist
    · exact .inl (List.mem_cons_of_mem _ hlist)
    · rcases List.mem_append.mp hlist with hlist | hlist
      · exact .inr (.inl hlist)
      · rw [List.mem_singleton.mp hlist]
        exact .inl List.mem_cons_self
    · exact .inr (.inr hlist)
  · cases h

/-- A step of a subscriber's listener, or of its generator where it sends no event. -/
theorem occurs_ite_put {s t : State} {i : Nat} {sub new : Subscriber} {x : StreamEvent}
    {p : Prop} [Decidable p] (hget : s.subscribers i = some sub)
    (h : (if p then some (s.put i new) else none) = some t) (hx : Occurs t x)
    (hnew : new.Holds x → sub.Holds x) : Occurs s x := by
  split at h
  · obtain rfl := Option.some.inj h
    exact occurs_put (fun hholds => occurs_of_holds hget (hnew hholds)) hx
  · cases h

/-- The stream makes no events: what occurs after a step has occurred before, or
the label has brought it. -/
theorem occurs_step {s t : State} {l : Label} (h : step s l = some t) {x : StreamEvent}
    (hx : Occurs t x) : Occurs s x ∨ l.brings = some x := by
  cases l with
  | push e => exact (occurs_push h hx).imp_right fun heq => congrArg some heq.symm
  | append e => exact (occurs_append h hx).imp_right fun heq => congrArg some heq.symm
  | publish place succeeds => exact .inl (occurs_publish h hx)
  | setStatus status =>
      obtain rfl := Option.some.inj h
      exact .inl hx
  | subscribe i => exact .inl (occurs_subscribe h hx)
  | listen i =>
      rcases Option.bind_eq_some_iff.mp h with ⟨sub, hget, h⟩
      exact .inl (occurs_ite_put hget h hx fun hnew => hnew)
  | listenerFails i =>
      rcases Option.bind_eq_some_iff.mp h with ⟨sub, hget, h⟩
      exact .inl (occurs_ite_put hget h hx fun hnew => hnew)
  | replay i =>
      rcases Option.bind_eq_some_iff.mp h with ⟨sub, hget, h⟩
      exact .inl (occurs_replayStep hget h hx)
  | take i =>
      rcases Option.bind_eq_some_iff.mp h with ⟨sub, hget, h⟩
      exact .inl (occurs_takeStep hget h hx)
  | ping i =>
      rcases Option.bind_eq_some_iff.mp h with ⟨sub, hget, h⟩
      exact .inl (occurs_ite_put hget h hx fun hnew => hnew)
  | check i =>
      rcases Option.bind_eq_some_iff.mp h with ⟨sub, hget, h⟩
      refine .inl (occurs_ite_put hget h hx fun hnew => ?_)
      -- the generator returns or goes back to the queue
      split at hnew
      · exact hnew
      · exact hnew
  | leave i => exact .inl (occurs_leave h hx)

/-! ## Runs -/

variable {iso : Nat → String}

theorem sanitised_start (backend : Backend) : Sanitised iso (SessionEvents.start backend) := by
  rintro e (he | he | ⟨i, sub, hsub, -⟩)
  · cases he
  · cases he
  · cases hsub

/-- A push of data of which something was removed already. -/
theorem sanitised_pushEvent {s t : SessionEvents} {original : Dict} {name : Json}
    {data : Option Dict} {now : Nat} (hs : Sanitised iso s)
    (hdata : sanitizeMembers (data.getD []) = sanitizeMembers original)
    (h : pushEvent iso s original name data now = some t) : Sanitised iso t := by
  rcases Option.map_eq_some_iff.mp h with ⟨stream, hstep, rfl⟩
  intro x hx
  rcases occurs_step hstep hx with hold | hnew
  · rcases hs x hold with ⟨m, hm, heq⟩
    exact ⟨m, List.mem_append_left _ hm, heq⟩
  · refine ⟨⟨original, ⟨name, now, sanitizeMembers (data.getD [])⟩⟩, by simp, ?_, ?_, ?_⟩
    · cases hbackend : s.stream.backend with
      | memory =>
          rw [hbackend] at hnew
          exact (Option.some.inj hnew).symm
      | redis =>
          rw [hbackend] at hnew
          exact (Option.some.inj hnew).symm
    · exact clean_sanitizeMembers _
    · dsimp only
      rw [hdata]
      exact complete_sanitizeMembers original

theorem sanitised_step {s t : SessionEvents} {l : EventLabel} (hs : Sanitised iso s)
    (h : eventStep iso s l = some t) : Sanitised iso t := by
  cases l with
  | post body now =>
      simp only [eventStep, postLinkSessionEvent] at h
      split at h
      · rw [← Option.some.inj h]
        exact hs
      · split at h
        · rw [← Option.some.inj h]
          exact hs
        · split at h
          · rw [← Option.some.inj h]
            exact hs
          · refine sanitised_pushEvent hs ?_ h
            exact sanitizeMembers_twice _
      · rw [← Option.some.inj h]
        exact hs
  | serverPush name data now => exact sanitised_pushEvent hs rfl h
  | stream l =>
      simp only [eventStep] at h
      split at h
      · cases h
      · rename_i hpushes
        rcases Option.map_eq_some_iff.mp h with ⟨stream, hstep, rfl⟩
        intro x hx
        rcases occurs_step hstep hx with hold | hnew
        · exact hs x hold
        · cases l with
          | push | append => exact absurd rfl hpushes
          | _ => cases hnew

/-- Whatever is posted and pushed, the events that are stored, published and
replayed carry no forbidden key, and all of the rest. -/
theorem events_sanitised {backend : Backend} {tr : List EventLabel} {s : SessionEvents}
    (h : Runs.exec (eventStep iso) (SessionEvents.start backend) tr = some s) :
    Sanitised iso s :=
  Runs.invariant (fun _ _ _ => sanitised_step) (sanitised_start backend) h

/-- `isoformat` of the only time that is. -/
def newYear (_ : Nat) : String := "2026-01-01T00:00:00+00:00"

/-- A page posts an institution with a secret inside a list, and a subscriber that
comes later replays the event. -/
def postedAndReplayed : List EventLabel :=
  [.post (.obj [("event", .str "INSTITUTION_SELECTED"),
      ("site", .arr [.obj [("secret", .null), ("name", .str "greengrid")]])]) 1,
    .stream (.publish 0 true), .stream (.subscribe 0), .stream (.replay 0)]

theorem postedAndReplayed_sanitised :
    ∃ s, Runs.exec (eventStep newYear) (SessionEvents.start .redis) postedAndReplayed = some s ∧
      (s.stream.subscribers 0).map (fun sub => sub.received.map (·.data)) =
        some [Json.dumps (.obj [("event", .str "INSTITUTION_SELECTED"),
          ("timestamp", .str "2026-01-01T00:00:00+00:00"),
          ("data", .obj [("site", .arr [.obj [("name", .str "greengrid")]])])])] ∧
      Sanitised newYear s := by
  have hrun : (Runs.exec (eventStep newYear) (SessionEvents.start .redis) postedAndReplayed).map
      (fun s => (s.stream.subscribers 0).map fun sub => sub.received.map (·.data)) =
        some (some [Json.dumps (.obj [("event", .str "INSTITUTION_SELECTED"),
          ("timestamp", .str "2026-01-01T00:00:00+00:00"),
          ("data", .obj [("site", .arr [.obj [("name", .str "greengrid")]])])])]) := by
    decide +kernel
  rcases Option.map_eq_some_iff.mp hrun with ⟨s, hs, hreceived⟩
  exact ⟨s, hs, hreceived, events_sanitised hs⟩

end Plaidify.EventStream
