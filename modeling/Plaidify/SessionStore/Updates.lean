import Plaidify.Lib.Interleaving
import Plaidify.SessionStore.Backends

/-!
# Concurrent updates of a link session

`append_link_session_event` and `update_link_session` over Redis get the
document of a session, change it and set it, and other workers run between the
GET and the SET. A call that sets its document puts back whatever the document
said at its GET. The calls lose nothing exactly when every SET finds the
document as its GET did, apart from what the call itself writes: `lossless_iff`.
-/

namespace Plaidify.SessionStore

/-! ## The calls -/

/-- The key of one link session. -/
structure Stored where
  now : Nat
  keys : Keyspace String Session
  /-- History variable: the document that was set last. -/
  written : Session

/-- A call, with the answer to the TTL between its GET and its SET. -/
inductive Call where
  | append (event : Json) (ttl : Int)
  | update (updates : SessionData) (ttl : Int)
  | delete
  | wait (time : Nat)

section

variable (linkToken : String)

/-- The session that a call has got, where it needs one. -/
def readSession (call : Call) (s : Stored) : Option (Option Session) :=
  match call with
  | .append .. | .update .. => (s.keys.get s.now linkToken).map some
  | .delete | .wait _ => some none

/-- The SET of a document. -/
def Stored.put (s : Stored) (session : Session) (ttl : Int) : Stored :=
  { s with keys := Redis.setLinkSession s.keys s.now linkToken session ttl, written := session }

/-- What a call does to the key with the session that it has got. -/
def writeSession (call : Call) (read : Option Session) (s : Stored) : Option Stored :=
  match call, read with
  | .append event ttl, some session =>
      (session.appendEvent event).map fun session => s.put linkToken session ttl
  | .update updates ttl, some session => some (s.put linkToken (Redis.updated session updates) ttl)
  | .delete, none => some { s with keys := s.keys.delete linkToken }
  | .wait time, none => some { s with now := s.now + time }
  | _, _ => none

def sessionCalls : Interleaving.Operations Call Stored (Option Session) :=
  ⟨readSession linkToken, writeSession linkToken⟩

abbrev UpdateState := Interleaving.State Nat Call Stored (Option Session)

abbrev UpdateLabel := Interleaving.Label Nat Call

/-- A session under its key, before any of the calls. -/
def startUpdates (now : Nat) (session : Session) (expiresAt : Nat) : UpdateState :=
  Interleaving.start ⟨now, Keyspace.empty.set linkToken session expiresAt, session⟩

end

/-! ## What is to hold -/

/-- The list under the key `events`. -/
def Fields.events (fields : Fields) : List Json :=
  match fields "events" with
  | some (.arr events) => events
  | _ => []

/-- The event that a call appends. -/
def Call.appended : Call → List Json
  | .append event _ => [event]
  | _ => []

/-- The value that a call writes under a key. -/
def Call.value (field : String) : Call → Option Json
  | .update updates _ => updates.fields.serializable field
  | _ => none

/-- The time of creation that a call writes. -/
def Call.createdAt : Call → Option Nat
  | .update updates _ => updates.createdAt
  | _ => none

/-- The document has every event that was appended, each once, and in every
field what the last call to write the field has written. -/
structure Complete (initial : Session) (done : List Call) (session : Session) : Prop where
  events : session.fields.events.Perm (initial.fields.events ++ done.flatMap Call.appended)
  fields : ∀ field, field ≠ "events" →
    session.fields field = ((done.filterMap (Call.value field)).getLast?).or (initial.fields field)
  createdAt : session.createdAt = ((done.filterMap Call.createdAt).getLast?).getD initial.createdAt

/-- What the key holds is what was set last, and nothing is lost in it. -/
structure Lossless (linkToken : String) (initial : Session) (s : UpdateState) : Prop where
  found : ∀ session, s.store.keys.get s.store.now linkToken = some session →
    session = s.store.written
  complete : Complete initial s.done s.store.written

/-- The fields from which a call goes on: an update of `events` itself brings
its own list. -/
def Call.base (call : Call) (read : Session) : Fields :=
  match call with
  | .update updates _ => read.fields.update updates.fields.serializable
  | _ => read.fields

/-- The stored document is as the call has read it, apart from what the call
writes. -/
structure Agrees (call : Call) (read written : Session) : Prop where
  events : (call.base read).events.Perm written.fields.events
  fields : ∀ field, field ≠ "events" → call.value field = none →
    read.fields field = written.fields field
  createdAt : call.createdAt = none → read.createdAt = written.createdAt

/-- A SET finds the document as its GET did. -/
def Undisturbed (linkToken : String) (s : UpdateState) : UpdateLabel → Prop
  | .write party => ∀ a rest read store, s.next party = some (a, rest) → a.plan = some read →
      writeSession linkToken a.operation a.plan s.store = some store →
        Agrees a.operation read s.store.written
  | .atomic call => ∀ read store, readSession linkToken call s.store = some (some read) →
      writeSession linkToken call (some read) s.store = some store →
        Agrees call read s.store.written
  | .read _ _ => True

/-! ## One document -/

theorem Fields.events_congr {fields fields' : Fields} (h : fields "events" = fields' "events") :
    fields.events = fields'.events := by
  unfold Fields.events
  rw [h]

/-- What an append makes of a document. -/
theorem appendEvent_spec {session next : Session} {event : Json}
    (h : session.appendEvent event = some next) :
    next.fields.events = session.fields.events ++ [event] ∧
      (∀ field, field ≠ "events" → next.fields field = session.fields field) ∧
      next.createdAt = session.createdAt := by
  have hassign : ∀ value : Json, ∀ field, field ≠ "events" →
      session.fields.assign "events" value field = session.fields field :=
    fun value field hfield => Fields.assign_of_ne session.fields hfield value
  unfold Session.appendEvent at h
  split at h
  · rename_i hnone
    obtain rfl := Option.some.inj h
    refine ⟨?_, hassign _, rfl⟩
    simp [Fields.events, hnone]
  · rename_i events hsome
    obtain rfl := Option.some.inj h
    refine ⟨?_, hassign _, rfl⟩
    simp [Fields.events, hsome]
  · cases h

/-- An append keeps the document complete exactly when the one it has read
agrees with the one that is stored. -/
theorem append_complete {initial written read next : Session} {done : List Call} {event : Json}
    {ttl : Int} (hwritten : Complete initial done written)
    (h : read.appendEvent event = some next) :
    Complete initial (done ++ [.append event ttl]) next ↔
      Agrees (.append event ttl) read written := by
  rcases appendEvent_spec h with ⟨hevents, hfields, hcreated⟩
  have happended : (done ++ [Call.append event ttl]).flatMap Call.appended =
      done.flatMap Call.appended ++ [event] := by
    rw [List.flatMap_append, List.flatMap_singleton]
    rfl
  have hvalue : ∀ field, (done ++ [Call.append event ttl]).filterMap (Call.value field) =
      done.filterMap (Call.value field) := by
    intro field
    rw [List.filterMap_append]
    exact List.append_nil _
  have htime : (done ++ [Call.append event ttl]).filterMap Call.createdAt =
      done.filterMap Call.createdAt := by
    rw [List.filterMap_append]
    exact List.append_nil _
  constructor
  · intro hnext
    refine ⟨?_, ?_, ?_⟩
    · have hperm := hnext.events
      rw [hevents, happended, ← List.append_assoc] at hperm
      exact ((List.perm_append_right_iff [event]).mp hperm).trans hwritten.events.symm
    · intro field hfield _
      rw [hwritten.fields field hfield, ← hvalue, ← hnext.fields field hfield,
        hfields field hfield]
    · intro _
      rw [hwritten.createdAt, ← htime, ← hnext.createdAt, hcreated]
  · intro hagrees
    refine ⟨?_, ?_, ?_⟩
    · rw [hevents, happended, ← List.append_assoc]
      exact (hagrees.events.trans hwritten.events).append_right [event]
    · intro field hfield
      rw [hfields field hfield, hvalue, hagrees.fields field hfield rfl,
        hwritten.fields field hfield]
    · rw [hcreated, htime, hagrees.createdAt rfl, hwritten.createdAt]

/-- The same of an update. -/
theorem update_complete {initial written read : Session} {done : List Call}
    {updates : SessionData} {ttl : Int} (hwritten : Complete initial done written) :
    Complete initial (done ++ [.update updates ttl]) (Redis.updated read updates) ↔
      Agrees (.update updates ttl) read written := by
  -- an update appends no event
  have happended : (done ++ [Call.update updates ttl]).flatMap Call.appended =
      done.flatMap Call.appended := by
    rw [List.flatMap_append, List.flatMap_singleton]
    exact List.append_nil _
  -- a field that the update writes has its value, any other the value before
  have hvalue : ∀ field, ((done ++ [Call.update updates ttl]).filterMap (Call.value field)).getLast? =
      (updates.fields.serializable field).or
        (done.filterMap (Call.value field)).getLast? := by
    intro field
    rw [List.filterMap_append, List.getLast?_append]
    cases hfield : updates.fields.serializable field with
    | none => simp [Call.value, hfield]
    | some value => simp [Call.value, hfield]
  have htime : ((done ++ [Call.update updates ttl]).filterMap Call.createdAt).getLast? =
      updates.createdAt.or (done.filterMap Call.createdAt).getLast? := by
    rw [List.filterMap_append, List.getLast?_append]
    cases hcreated : updates.createdAt with
    | none => simp [Call.createdAt, hcreated]
    | some value => simp [Call.createdAt, hcreated]
  -- the document gets the fields of the update and keeps the others
  have hfields : ∀ field, (Redis.updated read updates).fields field =
      (updates.fields.serializable field).or (read.fields field) := by
    intro field
    unfold Redis.updated Session.update Fields.update
    dsimp only
    cases updates.fields.serializable field with
    | none => rfl
    | some value => rfl
  constructor
  · intro hnext
    refine ⟨?_, ?_, ?_⟩
    · -- events
      have hperm := hnext.events
      rw [happended] at hperm
      exact hperm.trans hwritten.events.symm
    · -- fields
      intro field hfield hnone
      have heq := hnext.fields field hfield
      rw [hfields, hvalue, show updates.fields.serializable field = none from hnone,
        Option.none_or, Option.none_or, ← hwritten.fields field hfield] at heq
      exact heq
    · -- createdAt
      intro hnone
      have heq := hnext.createdAt
      rw [htime, show updates.createdAt = none from hnone, Option.none_or,
        ← hwritten.createdAt] at heq
      rw [← heq]
      show read.createdAt = updates.createdAt.getD read.createdAt
      rw [show updates.createdAt = none from hnone]
      rfl
  · intro hagrees
    refine ⟨?_, ?_, ?_⟩
    · -- events
      rw [happended]
      exact hagrees.events.trans hwritten.events
    · -- fields
      intro field hfield
      rw [hfields, hvalue, Option.or_assoc, ← hwritten.fields field hfield]
      cases hvalue' : updates.fields.serializable field with
      | none => exact hagrees.fields field hfield hvalue'
      | some value => rfl
    · -- createdAt
      rw [htime]
      show updates.createdAt.getD read.createdAt = _
      cases hcreated : updates.createdAt with
      | none =>
          rw [Option.none_or, ← hwritten.createdAt]
          exact hagrees.createdAt hcreated
      | some value => rfl

/-- A call that neither appends nor updates. -/
theorem complete_of_silent {initial session : Session} {done : List Call} {call : Call}
    (happended : call.appended = []) (hvalue : ∀ field, call.value field = none)
    (hcreated : call.createdAt = none) :
    Complete initial (done ++ [call]) session ↔ Complete initial done session := by
  have hevents : (done ++ [call]).flatMap Call.appended = done.flatMap Call.appended := by
    rw [List.flatMap_append, List.flatMap_singleton, happended]
    exact List.append_nil _
  have hfields : ∀ field, (done ++ [call]).filterMap (Call.value field) =
      done.filterMap (Call.value field) := by
    intro field
    simp [List.filterMap_append, hvalue field]
  have htime : (done ++ [call]).filterMap Call.createdAt = done.filterMap Call.createdAt := by
    simp [List.filterMap_append, hcreated]
  constructor
  · rintro ⟨hev, hfi, htm⟩
    rw [hevents] at hev
    rw [htime] at htm
    refine ⟨hev, fun field hfield => ?_, htm⟩
    rw [← hfields field]
    exact hfi field hfield
  · rintro ⟨hev, hfi, htm⟩
    refine ⟨?_, fun field hfield => ?_, ?_⟩
    · rw [hevents]
      exact hev
    · rw [hfields field]
      exact hfi field hfield
    · rw [htime]
      exact htm

/-! ## Runs -/

variable {linkToken : String} {initial : Session}

/-- What a call that goes through does to the document that was set last. -/
theorem write_lossless {s store : Stored} {done : List Call}
    (hfound : ∀ session, s.keys.get s.now linkToken = some session → session = s.written)
    (hcomplete : Complete initial done s.written) {call : Call} {read : Option Session}
    (h : writeSession linkToken call read s = some store) :
    (∀ session, store.keys.get store.now linkToken = some session → session = store.written) ∧
      (Complete initial (done ++ [call]) store.written ↔
        ∀ session, read = some session → Agrees call session s.written) := by
  -- whoever reads after a SET finds what was set
  have hput : ∀ next ttl session, (s.put linkToken next ttl).keys.get
      (s.put linkToken next ttl).now linkToken = some session → session = next := by
    intro next ttl session hget
    rcases Keyspace.get_of_get_set hget with ⟨-, -, heq⟩ | ⟨hne, -⟩
    · exact heq.symm
    · exact absurd rfl hne
  cases call with
  -- an append writes the document it read, with one more event
  | append event ttl =>
      cases read with
      | none => cases h
      | some read =>
          rcases Option.map_eq_some_iff.mp h with ⟨next, hnext, rfl⟩
          refine ⟨hput next ttl, ?_⟩
          simp only [Option.some.injEq, forall_eq']
          exact append_complete hcomplete hnext
  -- an update writes the document it read, with its fields
  | update updates ttl =>
      cases read with
      | none => cases h
      | some read =>
          obtain rfl := Option.some.inj h
          refine ⟨hput (Redis.updated read updates) ttl, ?_⟩
          simp only [Option.some.injEq, forall_eq']
          exact update_complete hcomplete
  | delete =>
      cases read with
      | some read => cases h
      | none =>
          obtain rfl := Option.some.inj h
          -- a delete leaves no document to find
          refine ⟨fun session hget => ?_, ?_⟩
          · dsimp only at hget
            rw [Keyspace.get_delete_self] at hget
            cases hget
          · refine iff_of_true ?_ fun session hread => by cases hread
            exact (complete_of_silent rfl (fun _ => rfl) rfl).mpr hcomplete
  | wait time =>
      cases read with
      | some read => cases h
      | none =>
          obtain rfl := Option.some.inj h
          -- a document that has run out is not found, and one that is found is the one written
          refine ⟨fun session hget => ?_, ?_⟩
          · exact hfound session (Keyspace.get_earlier (Nat.le_add_right _ _) hget)
          · refine iff_of_true ?_ fun session hread => by cases hread
            exact (complete_of_silent rfl (fun _ => rfl) rfl).mpr hcomplete

/-- A step loses nothing exactly when its SET, if it is one, is undisturbed. -/
theorem lossless_step {s t : UpdateState} {l : UpdateLabel} (hs : Lossless linkToken initial s)
    (h : (sessionCalls linkToken).step s l = some t) :
    Lossless linkToken initial t ↔ Undisturbed linkToken s l := by
  cases l with
  | read party call =>
      refine iff_of_true ?_ trivial
      rcases Interleaving.Operations.step_read h with ⟨-, rfl⟩ | ⟨plan, -, rfl⟩
      · exact hs
      · exact ⟨hs.found, hs.complete⟩
  | write party =>
      rcases Interleaving.Operations.step_write h with
        ⟨a, rest, hnext, ⟨hrefused, rfl⟩ | ⟨store, hwrite, rfl⟩⟩
      · refine iff_of_true ⟨hs.found, hs.complete⟩ ?_
        intro a' rest' read store' hnext' _ hwrite'
        rw [hnext] at hnext'
        obtain ⟨rfl, rfl⟩ := Prod.mk.inj (Option.some.inj hnext')
        rw [show writeSession linkToken a.operation a.plan s.store = none from hrefused] at hwrite'
        cases hwrite'
      · rcases write_lossless hs.found hs.complete hwrite with ⟨hfound, hcomplete⟩
        constructor
        · intro ht a' rest' read store' hnext' hread' _
          rw [hnext] at hnext'
          obtain ⟨rfl, rfl⟩ := Prod.mk.inj (Option.some.inj hnext')
          exact hcomplete.mp ht.complete read hread'
        · intro hl
          refine ⟨hfound, hcomplete.mpr fun read hread => ?_⟩
          exact hl a rest read store hnext hread hwrite
  | atomic call =>
      rcases Interleaving.Operations.step_atomic h with ⟨hnone, rfl⟩ | ⟨store, honce, rfl⟩
      · refine iff_of_true hs ?_
        intro read store hread hwrite
        have hsome : (sessionCalls linkToken).once call t.store = some store :=
          Option.bind_eq_some_iff.mpr ⟨some read, hread, hwrite⟩
        rw [hnone] at hsome
        cases hsome
      · rcases Option.bind_eq_some_iff.mp honce with ⟨plan, hplan, hwrite⟩
        rcases write_lossless hs.found hs.complete hwrite with ⟨hfound, hcomplete⟩
        constructor
        · intro ht read store' hread' _
          have heq : plan = some read := Option.some.inj (hplan.symm.trans hread')
          exact hcomplete.mp ht.complete read heq
        · intro hl
          refine ⟨hfound, hcomplete.mpr fun read hread => ?_⟩
          subst hread
          exact hl read store hplan hwrite

theorem init_lossless (linkToken : String) (now : Nat) (session : Session) (expiresAt : Nat) :
    Lossless linkToken session (startUpdates linkToken now session expiresAt) where
  found := by
    intro found hget
    rcases Keyspace.get_of_get_set hget with ⟨-, -, heq⟩ | ⟨hne, -⟩
    · exact heq.symm
    · exact absurd rfl hne
  complete := by
    refine ⟨?_, fun _ _ => rfl, rfl⟩
    show session.fields.events.Perm (session.fields.events ++ [])
    rw [List.append_nil]

theorem lossless_iff (linkToken : String) (now : Nat) (session : Session) (expiresAt : Nat)
    {run : List UpdateLabel} {s : UpdateState}
    (h : Runs.exec (sessionCalls linkToken).step (startUpdates linkToken now session expiresAt) run =
      some s) :
    (∀ before after t, run = before ++ after →
        Runs.exec (sessionCalls linkToken).step (startUpdates linkToken now session expiresAt)
          before = some t → Lossless linkToken session t) ↔
      Runs.Along (sessionCalls linkToken).step (Undisturbed linkToken)
        (startUpdates linkToken now session expiresAt) run :=
  Runs.always_iff_along (I := fun _ => True) (fun _ _ _ _ _ => trivial)
    (fun _ _ _ _ hs hl => lossless_step hs hl) trivial
    (init_lossless linkToken now session expiresAt) h

/-- A call whose GET, made again, would return the same loses nothing, unless it
updates `events`. -/
theorem undisturbed_of_stands {s : UpdateState} {l : UpdateLabel}
    (hs : Lossless linkToken initial s) (hstands : (sessionCalls linkToken).Stands s l)
    (hevents : ∀ party a rest, l = .write party → s.next party = some (a, rest) →
      a.operation.value "events" = none)
    (hatomic : ∀ call, l = .atomic call → call.value "events" = none) :
    Undisturbed linkToken s l := by
  have hagrees : ∀ call read, call.value "events" = none →
      readSession linkToken call s.store = some (some read) →
        Agrees call read s.store.written := by
    intro call read hnone hread
    have hsame : read = s.store.written := by
      cases call with
      | append event ttl =>
          rcases Option.map_eq_some_iff.mp hread with ⟨session, hget, heq⟩
          rw [← Option.some.inj heq]
          exact hs.found session hget
      | update updates ttl =>
          rcases Option.map_eq_some_iff.mp hread with ⟨session, hget, heq⟩
          rw [← Option.some.inj heq]
          exact hs.found session hget
      | delete => cases hread
      | wait time => cases hread
    subst hsame
    refine ⟨?_, fun _ _ _ => rfl, fun _ => rfl⟩
    cases call with
    | update updates ttl =>
        have hbase : (Call.update updates ttl).base s.store.written "events" =
            s.store.written.fields "events" := by
          show (updates.fields.serializable "events").orElse _ = _
          rw [show updates.fields.serializable "events" = none from hnone]
          rfl
        rw [Fields.events_congr hbase]
    | _ => exact List.Perm.refl _
  cases l with
  | read party call => trivial
  | write party =>
      intro a rest read store hnext hread _
      have hnow := hstands a (by rw [hnext]; rfl)
      rw [hread] at hnow
      exact hagrees a.operation read (hevents party a rest rfl hnext) hnow
  | atomic call =>
      intro read store hread _
      exact hagrees call read (hatomic call rfl) hread

/-- The fields of a new session. -/
def connecting : Session :=
  ⟨0, fun key =>
    if key = "events" then some (.arr [])
    else if key = "status" then some (.str "connecting")
    else none⟩

def statusUpdate (status : String) : SessionData :=
  ⟨none, fun key => if key = "status" then some (.str status) else none⟩

/-- Two updates of the status at once, and then an event. -/
def updatedAtOnce : List UpdateLabel :=
  [.read 1 (.update (statusUpdate "verifying_mfa") 600),
    .read 2 (.update (statusUpdate "completed") 600), .write 1, .write 2,
    .read 1 (.append (.str "CONNECTED") 600), .write 1]

theorem updatedAtOnce_undisturbed :
    Runs.Along (sessionCalls "link-1").step (Undisturbed "link-1")
      (startUpdates "link-1" 0 connecting 600000) updatedAtOnce := by
  refine ⟨trivial, trivial, ?_, ?_, trivial, ?_, trivial⟩
  · intro a rest read store hnext hread _
    obtain ⟨rfl, rfl⟩ := Prod.mk.inj (Option.some.inj hnext)
    obtain rfl := Option.some.inj hread
    exact ⟨List.Perm.refl _, fun _ _ _ => rfl, fun _ => rfl⟩
  · -- the second update has not read what the first has set
    intro a rest read store hnext hread _
    obtain ⟨rfl, rfl⟩ := Prod.mk.inj (Option.some.inj hnext)
    obtain rfl := Option.some.inj hread
    refine ⟨List.Perm.refl _, fun field _ hvalue => ?_, fun _ => rfl⟩
    by_cases hstatus : field = "status"
    · subst hstatus
      cases hvalue
    · have hnone : (statusUpdate "verifying_mfa").fields.serializable field = none := by
        simp [Fields.serializable, statusUpdate, hstatus]
      show connecting.fields field =
        ((statusUpdate "verifying_mfa").fields.serializable field).orElse _
      rw [hnone]
      rfl
  · intro a rest read store hnext hread _
    obtain ⟨rfl, rfl⟩ := Prod.mk.inj (Option.some.inj hnext)
    obtain rfl := Option.some.inj hread
    exact ⟨List.Perm.refl _, fun _ _ _ => rfl, fun _ => rfl⟩

theorem updatedAtOnce_complete :
    ∃ s, Runs.exec (sessionCalls "link-1").step (startUpdates "link-1" 0 connecting 600000)
        updatedAtOnce = some s ∧ s.store.written.fields.events.length = 1 ∧
      ∀ before after t, updatedAtOnce = before ++ after →
        Runs.exec (sessionCalls "link-1").step (startUpdates "link-1" 0 connecting 600000)
          before = some t → Lossless "link-1" connecting t := by
  have hrun : (Runs.exec (sessionCalls "link-1").step (startUpdates "link-1" 0 connecting 600000)
      updatedAtOnce).map (·.store.written.fields.events.length) = some 1 := by decide +kernel
  rcases Option.map_eq_some_iff.mp hrun with ⟨s, hs, hlength⟩
  exact ⟨s, hs, hlength,
    (lossless_iff "link-1" 0 connecting 600000 hs).mpr updatedAtOnce_undisturbed⟩

/-- Two events, of which the first is appended between the GET and the SET of
the second. -/
def appendedAtOnce : List UpdateLabel :=
  [.read 1 (.append (.str "OPEN") 600), .read 2 (.append (.str "CONNECTED") 600), .write 1,
    .write 2]

theorem appendedAtOnce_loses :
    ∃ s, Runs.exec (sessionCalls "link-1").step (startUpdates "link-1" 0 connecting 600000)
        appendedAtOnce = some s ∧
      (s.store.keys.get s.store.now "link-1").map (·.fields.events.length) = some 1 ∧
      ¬ Lossless "link-1" connecting s := by
  have hrun : (Runs.exec (sessionCalls "link-1").step (startUpdates "link-1" 0 connecting 600000)
      appendedAtOnce).map (fun s =>
        ((s.store.keys.get s.store.now "link-1").map (·.fields.events.length),
          s.store.written.fields.events.length, (s.done.flatMap Call.appended).length)) =
      some (some 1, 1, 2) := by decide +kernel
  rcases Option.map_eq_some_iff.mp hrun with ⟨s, hs, heq⟩
  rcases Prod.mk.inj heq with ⟨hfound, hlengths⟩
  rcases Prod.mk.inj hlengths with ⟨hwritten, happended⟩
  refine ⟨s, hs, hfound, fun hlossless => ?_⟩
  have hlength := hlossless.complete.events.length_eq
  rw [List.length_append, hwritten, happended] at hlength
  omega

end Plaidify.SessionStore
