import Plaidify.SessionStore.Calls

/-!
# The backends return the same values

The dictionaries simulate Redis: store by store, what has not run out under
Redis is in the dictionary as well, and the other way round, as long as the
calls of a sequence are `Comparable`. Every call keeps this, and is answered by
both backends with the same value.
-/

namespace Plaidify.SessionStore

open Keyspace (Mirrors)
open Links (ScopeStore ScopeEntry maxMemLinkScopes linkScopeTtl)

/-! ## Link sessions -/

/-- Sessions that `get_link_session` returns alike: the dictionary may have the
status of an old session overwritten. -/
structure SameSession (now : Nat) (a b : Session) : Prop where
  createdAt : a.createdAt = b.createdAt
  fields : ∀ field, field ≠ "subscribers" →
    a.fields field = b.fields field ∨ (field = "status" ∧ a.expired now = true)

/-- The dictionary of sessions mirrors the keys of Redis, up to overwritten statuses. -/
abbrev SessionsMatch (now : Nat) (keys : Keyspace String Session)
    (entries : Table SessionEntry SessionEntry.linkToken) : Prop :=
  Mirrors (SameSession now) keys now (Memory.session entries)

/-- Once expired, a session stays expired as time passes. -/
theorem expired_later {session : Session} {now later : Nat} (hle : now ≤ later)
    (h : session.expired now = true) : session.expired later = true := by
  simp only [Session.expired, decide_eq_true_eq] at h ⊢
  omega

/-- Sessions that are alike stay alike: a status that was overwritten is that of an
expired session also later. -/
theorem SameSession.later {now later : Nat} {a b : Session} (hle : now ≤ later)
    (h : SameSession now a b) : SameSession later a b where
  createdAt := h.createdAt
  fields := by
    intro field hfield
    rcases h.fields field hfield with heq | ⟨hstatus, hexpired⟩
    · exact .inl heq
    · exact .inr ⟨hstatus, expired_later hle hexpired⟩

/-- Whether a session has expired depends on its age only, which both have. -/
theorem SameSession.expired_eq {now : Nat} {a b : Session} (h : SameSession now a b) :
    a.expired now = b.expired now := by
  unfold Session.expired
  rw [h.createdAt]

/-- What `get_link_session` returns, and what the dictionary keeps of it. -/
theorem SameSession.overlay {now : Nat} {a b : Session} (h : SameSession now a b) :
    SameFields (a.overlay now) (b.overlay now) ∧ SameSession now a (b.overlay now) := by
  unfold Session.overlay
  rw [← h.expired_eq]
  by_cases hexpired : a.expired now = true
  · -- both are read as expired, and the dictionary keeps that
    rw [if_pos hexpired, if_pos hexpired]
    refine ⟨⟨h.createdAt, fun field hfield => ?_⟩, ⟨h.createdAt, fun field hfield => ?_⟩⟩
    · dsimp only
      by_cases hfs : field = "status"
      · subst hfs
        rw [Fields.assign_self, Fields.assign_self]
      · rw [Fields.assign_of_ne _ hfs, Fields.assign_of_ne _ hfs]
        rcases h.fields field hfield with heq | ⟨hs, -⟩
        · exact heq
        · exact absurd hs hfs
    · dsimp only
      by_cases hfs : field = "status"
      · exact .inr ⟨hfs, hexpired⟩
      · rw [Fields.assign_of_ne _ hfs]
        exact h.fields field hfield
  · -- a status can only have been overwritten in an expired session
    rw [if_neg hexpired, if_neg hexpired]
    refine ⟨⟨h.createdAt, fun field hfield => ?_⟩, h⟩
    rcases h.fields field hfield with heq | ⟨-, hyes⟩
    · exact heq
    · exact absurd hyes hexpired

/-- An update of both. Where the status of one was overwritten, it must not make the
session young again. -/
theorem SameSession.update {now : Nat} {a b : Session} (h : SameSession now a b)
    {updates : SessionData} (hcreated : updates.createdAt = none ∨ a.expired now = false) :
    SameSession now (Redis.updated a updates) (b.update updates) := by
  refine ⟨?_, fun field hfield => ?_⟩
  · show updates.createdAt.getD a.createdAt = updates.createdAt.getD b.createdAt
    rw [h.createdAt]
  · show (updates.fields.serializable field).orElse (fun _ => a.fields field) =
        (updates.fields field).orElse (fun _ => b.fields field) ∨ _
    rw [Fields.serializable_of_ne _ hfield]
    rcases h.fields field hfield with heq | ⟨hstatus, hexpired⟩
    · rw [heq]
      exact .inl rfl
    · -- the overwritten status is that of a session which stays expired
      rcases hcreated with hnone | hnot
      · refine .inr ⟨hstatus, ?_⟩
        have hsame : (Redis.updated a updates).createdAt = a.createdAt := by
          show updates.createdAt.getD a.createdAt = a.createdAt
          rw [hnone]
          rfl
        unfold Session.expired at hexpired ⊢
        rw [hsame]
        exact hexpired
      · rw [hnot] at hexpired
        cases hexpired

/-- An event is appended to both lists, which are the same, or to neither. -/
theorem SameSession.appendEvent {now : Nat} {a b : Session} (h : SameSession now a b)
    (event : Json) :
    (a.appendEvent event = none ∧ b.appendEvent event = none) ∨
      ∃ a' b', a.appendEvent event = some a' ∧ b.appendEvent event = some b' ∧
        SameSession now a' b' := by
  have hevents : a.fields "events" = b.fields "events" := by
    rcases h.fields "events" (by decide) with heq | ⟨hstatus, -⟩
    · exact heq
    · exact absurd hstatus (by decide)
  have hassign : ∀ value : Json, SameSession now
      { a with fields := a.fields.assign "events" value }
      { b with fields := b.fields.assign "events" value } := by
    intro value
    refine ⟨h.createdAt, fun field hfield => ?_⟩
    by_cases hfe : field = "events"
    · subst hfe
      left
      dsimp only
      rw [Fields.assign_self, Fields.assign_self]
    · dsimp only
      rw [Fields.assign_of_ne _ hfe, Fields.assign_of_ne _ hfe]
      exact h.fields field hfield
  unfold Session.appendEvent
  rw [← hevents]
  -- a list, no list yet, or something else
  split
  · exact .inr ⟨_, _, rfl, rfl, hassign _⟩
  · exact .inr ⟨_, _, rfl, rfl, hassign _⟩
  · exact .inl ⟨rfl, rfl⟩

/-- The dictionary after an assignment. -/
theorem session_assign (entries : Table SessionEntry SessionEntry.linkToken) (linkToken : String)
    (session : Session) (k : String) :
    Memory.session (entries.assign ⟨linkToken, session⟩) k =
      if k = linkToken then some session else Memory.session entries k :=
  Table.map_get?_assign SessionEntry.session entries ⟨linkToken, session⟩ k

/-- An entry is found under its own link token. -/
theorem session_eq_some {entries : Table SessionEntry SessionEntry.linkToken} {linkToken : String}
    {session : Session} (h : Memory.session entries linkToken = some session) :
    entries.get? linkToken = some ⟨linkToken, session⟩ := by
  rcases Option.map_eq_some_iff.mp h with ⟨entry, hentry, rfl⟩
  have hkey := (Table.get?_mem hentry).2
  rw [hentry, ← hkey]

theorem session_eq_none {entries : Table SessionEntry SessionEntry.linkToken} {linkToken : String}
    (h : Memory.session entries linkToken = none) : entries.get? linkToken = none :=
  Option.map_eq_none_iff.mp h

section

variable {keys : Keyspace String Session} {entries : Table SessionEntry SessionEntry.linkToken}
  {now : Nat} {linkToken : String}

/-- A new session is in both. The dictionary is swept before, which must not drop what
Redis still has. -/
theorem createLinkSession_match (h : SessionsMatch now keys entries) (data : SessionData)
    (hlimit : (Memory.unexpiredSessions entries now).rows.length ≤ maxMemLinkSessions)
    (hdropped : ∀ entry ∈ entries.rows, entry.session.expired now = true →
      keys.get now entry.linkToken = none) :
    SessionsMatch now (Redis.createLinkSession keys now linkToken data)
      (Memory.createLinkSession entries now linkToken data) := by
  unfold Memory.createLinkSession Redis.createLinkSession Memory.evictExpiredSessions
  rw [evictOldest_of_le _ hlimit]
  -- what the sweep drops has run out under Redis
  have hevict : SessionsMatch now keys (Memory.unexpiredSessions entries now) := by
    refine h.evict (fun k session hk => ?_) fun k session hk hget => ?_
    · have hfound := session_eq_some hk
      have hold := (Table.get?_delete_eq_some.mp hfound).1
      exact Option.map_eq_some_iff.mpr ⟨_, hold, rfl⟩
    · have hfound := session_eq_some hk
      refine Option.map_eq_some_iff.mpr ⟨⟨k, session⟩, ?_, rfl⟩
      refine Table.get?_delete_eq_some.mpr ⟨hfound, ?_⟩
      by_contra hexpired
      have hexpired : session.expired now = true := by simpa using hexpired
      exact hget (hdropped ⟨k, session⟩ (Table.get?_mem hfound).1 hexpired)
  -- the key that only the dictionary has is not compared
  have hsame : SameSession now ⟨data.createdAt.getD now, data.fields.serializable⟩
      ⟨data.createdAt.getD now, Memory.withSubscribers data.fields⟩ := by
    refine ⟨rfl, fun field hfield => .inl ?_⟩
    dsimp only
    rw [Fields.serializable_of_ne _ hfield]
    unfold Memory.withSubscribers
    rw [if_neg hfield]
    cases data.fields field <;> rfl
  exact hevict.set hsame _ (session_assign _ linkToken _)

/-- A read returns the same session. In the dictionary it also overwrites the status of
an expired one. -/
theorem getLinkSession_match (h : SessionsMatch now keys entries)
    (hgone : ¬ keys.Lingers now (Memory.session entries) linkToken) :
    Value.Same (.session (Redis.getLinkSession keys now linkToken))
        (.session (Memory.getLinkSession entries now linkToken).1) ∧
      SessionsMatch now keys (Memory.getLinkSession entries now linkToken).2 := by
  unfold Redis.getLinkSession Memory.getLinkSession
  rcases h.found hgone with ⟨hredis, hmemory⟩ | ⟨a, b, hredis, hmemory, hsame⟩
  · rw [hredis, session_eq_none hmemory]
    exact ⟨rfl, h⟩
  · rw [hredis, session_eq_some hmemory]
    refine ⟨hsame.overlay.1, ?_⟩
    have hfound : Memory.session (entries.assign ⟨linkToken, b.overlay now⟩) linkToken =
        some (b.overlay now) := by
      rw [session_assign, if_pos rfl]
    refine h.replace ?_ ?_ hfound ?_
    · intro value hvalue
      obtain rfl := Option.some.inj (hredis.symm.trans hvalue)
      exact hsame.overlay.2
    · rw [hmemory]
      exact Option.some_ne_none b
    · intro k hk
      rw [session_assign, if_neg hk]

/-- An update finds the session in both or in neither. -/
theorem updateLinkSession_match (h : SessionsMatch now keys entries)
    (hgone : ¬ keys.Lingers now (Memory.session entries) linkToken) {updates : SessionData}
    (hcreated : updates.createdAt = none ∨
      ∀ session ∈ keys.get now linkToken, session.expired now = false) :
    (Redis.updateLinkSession keys now linkToken updates).1 =
        (Memory.updateLinkSession entries linkToken updates).1 ∧
      SessionsMatch now (Redis.updateLinkSession keys now linkToken updates).2
        (Memory.updateLinkSession entries linkToken updates).2 := by
  unfold Redis.updateLinkSession Memory.updateLinkSession
  rcases h.found hgone with ⟨hredis, hmemory⟩ | ⟨a, b, hredis, hmemory, hsame⟩
  · rw [hredis, session_eq_none hmemory]
    exact ⟨rfl, h⟩
  · rw [hredis, session_eq_some hmemory]
    have hnot : updates.createdAt = none ∨ a.expired now = false := by
      rcases hcreated with hnone | hall
      · exact .inl hnone
      · exact .inr (hall a hredis)
    exact ⟨rfl, h.set (hsame.update hnot) _ (session_assign entries linkToken _)⟩

/-- An event goes to the session in both or in neither, whether or not it can be
appended. -/
theorem appendLinkSessionEvent_match (h : SessionsMatch now keys entries)
    (hgone : ¬ keys.Lingers now (Memory.session entries) linkToken) (event : Json) :
    (Redis.appendLinkSessionEvent keys now linkToken event).1 =
        (Memory.appendLinkSessionEvent entries linkToken event).1 ∧
      SessionsMatch now (Redis.appendLinkSessionEvent keys now linkToken event).2
        (Memory.appendLinkSessionEvent entries linkToken event).2 := by
  unfold Redis.appendLinkSessionEvent Memory.appendLinkSessionEvent
  rcases h.found hgone with ⟨hredis, hmemory⟩ | ⟨a, b, hredis, hmemory, hsame⟩
  · rw [hredis, session_eq_none hmemory]
    exact ⟨rfl, h⟩
  · rw [hredis, session_eq_some hmemory]
    dsimp only
    rcases hsame.appendEvent event with ⟨ha, hb⟩ | ⟨a', b', ha, hb, hsame'⟩
    · rw [ha, hb]
      exact ⟨rfl, h⟩
    · rw [ha, hb]
      exact ⟨rfl, h.set hsame' _ (session_assign entries linkToken b')⟩

/-- A deletion drops the key and the entry. -/
theorem deleteLinkSession_match (h : SessionsMatch now keys entries) (linkToken : String) :
    SessionsMatch now (keys.delete linkToken) (entries.delete (·.linkToken == linkToken)) :=
  h.delete fun k => Table.map_get?_delete_key SessionEntry.session entries linkToken k

end

/-! ## Scopes and refresh schedules -/

/-- The in-memory texts mirror those of Redis, none of which is empty. -/
structure TextsMatch (now : Nat) (redis memory : ScopeStore) : Prop where
  redisBackend : redis.backend = .redis
  memoryBackend : memory.backend = .memory
  mirrors : Mirrors Eq (deadlines redis) now (texts memory)
  filled : ∀ linkToken text, (deadlines redis).get now linkToken = some text → text ≠ ""

section

variable {redis memory : ScopeStore} {now : Nat} {linkToken : String}

/-- A read under Redis goes by the deadline, and one in memory does not. -/
theorem peek_redis (hbackend : redis.backend = .redis) :
    redis.peek now linkToken = (deadlines redis).get now linkToken := by
  unfold ScopeStore.peek Keyspace.get deadlines
  dsimp only
  cases redis.entries.get? linkToken with
  | none => rfl
  | some entry => simp only [hbackend, Option.map_some]

/-- A read in memory finds whatever is in the dictionary. -/
theorem peek_memory (hbackend : memory.backend = .memory) :
    memory.peek now linkToken = texts memory linkToken := by
  unfold ScopeStore.peek texts
  cases memory.entries.get? linkToken with
  | none => rfl
  | some entry => simp only [hbackend, Option.map_some]

/-- Under Redis a text is set with its deadline. -/
theorem deadlines_set (hbackend : redis.backend = .redis) (text : String) :
    deadlines (redis.set now linkToken text) =
      (deadlines redis).set linkToken text (now + linkScopeTtl) := by
  unfold deadlines Keyspace.set ScopeStore.set
  rw [hbackend]
  dsimp only
  congr 1
  funext k
  have hassign := Table.map_get?_assign
    (fun entry : ScopeEntry => (⟨entry.scopesJson, entry.expiresAt⟩ : Keyspace.Entry String))
    redis.entries ⟨linkToken, text, now + linkScopeTtl⟩ k
  by_cases hk : k = linkToken
  · rw [hk, Function.update_self]
    rw [if_pos hk, hk] at hassign
    exact hassign
  · rw [Function.update_of_ne hk]
    rw [if_neg hk] at hassign
    exact hassign

/-- A deletion drops the key with its deadline. -/
theorem deadlines_delete (store : ScopeStore) (linkToken : String) :
    deadlines { store with entries := store.entries.delete (·.linkToken == linkToken) } =
      (deadlines store).delete linkToken := by
  unfold deadlines Keyspace.delete
  congr 1
  funext k
  dsimp only
  rw [Table.map_get?_delete_key]
  by_cases hk : k = linkToken
  · rw [if_pos hk, hk, Function.update_self]
  · rw [if_neg hk, Function.update_of_ne hk]

/-- In memory a text is set without one, as long as the dictionary is not over its
limit. -/
theorem texts_set (hbackend : memory.backend = .memory)
    (hlimit : memory.entries.rows.length ≤ maxMemLinkScopes) (text k : String) :
    texts (memory.set now linkToken text) k =
      if k = linkToken then some text else texts memory k := by
  have hevict : ScopeStore.evictIfFull memory.entries = memory.entries := by
    unfold ScopeStore.evictIfFull
    rw [if_neg (by omega)]
  unfold texts ScopeStore.set
  rw [hbackend]
  dsimp only
  rw [hevict]
  exact Table.map_get?_assign ScopeEntry.scopesJson memory.entries
    ⟨linkToken, text, now + linkScopeTtl⟩ k

theorem set_backend (store : ScopeStore) (text : String) :
    (store.set now linkToken text).backend = store.backend := by
  rcases store with ⟨backend, entries⟩
  cases backend with
  | redis => rfl
  | memory => rfl

/-- A text that is not empty is set in both. -/
theorem setText_match (h : TextsMatch now redis memory) {text : String} (hfilled : text ≠ "")
    (hlimit : memory.entries.rows.length ≤ maxMemLinkScopes) :
    TextsMatch now (redis.set now linkToken text) (memory.set now linkToken text) where
  redisBackend := by
    rw [set_backend]
    exact h.redisBackend
  memoryBackend := by
    rw [set_backend]
    exact h.memoryBackend
  mirrors := by
    rw [deadlines_set h.redisBackend]
    exact h.mirrors.set rfl _ (texts_set h.memoryBackend hlimit text)
  filled := by
    intro k found hget
    rw [deadlines_set h.redisBackend] at hget
    rcases Keyspace.get_of_get_set hget with ⟨-, -, rfl⟩ | ⟨-, hold⟩
    · exact hfilled
    · exact h.filled k found hold

/-- A text is popped once. Redis keeps an empty one that was popped, but there is none. -/
theorem popText_match (h : TextsMatch now redis memory)
    (hgone : ¬ (deadlines redis).Lingers now (texts memory) linkToken) :
    (redis.pop now linkToken).1 = (memory.pop now linkToken).1 ∧
      TextsMatch now (redis.pop now linkToken).2 (memory.pop now linkToken).2 := by
  unfold ScopeStore.pop
  rw [peek_redis h.redisBackend, peek_memory h.memoryBackend]
  rcases h.mirrors.found hgone with ⟨hredis, hmemory⟩ | ⟨text, other, hredis, hmemory, rfl⟩
  · rw [hredis, hmemory]
    exact ⟨rfl, h⟩
  · -- the text is not empty, so that Redis deletes it too
    have hfilled := h.filled linkToken text hredis
    have hkept : ¬ (redis.backend = .redis ∧ text = "") := fun hboth => hfilled hboth.2
    have hother : ¬ (memory.backend = .redis ∧ text = "") := fun hboth => hfilled hboth.2
    rw [hredis, hmemory]
    dsimp only
    rw [if_neg hkept, if_neg hother]
    refine ⟨rfl, h.redisBackend, h.memoryBackend, ?_, ?_⟩
    · rw [deadlines_delete]
      exact h.mirrors.delete fun k =>
        Table.map_get?_delete_key ScopeEntry.scopesJson memory.entries linkToken k
    · intro k found hget
      rw [deadlines_delete] at hget
      exact h.filled k found (Keyspace.get_of_get_delete hget).2

/-- As time passes, keys of Redis run out, and nothing else changes. -/
theorem TextsMatch.wait (h : TextsMatch now redis memory) {later : Nat} (hle : now ≤ later) :
    TextsMatch later redis memory where
  redisBackend := h.redisBackend
  memoryBackend := h.memoryBackend
  mirrors := h.mirrors.wait (fun _ _ heq => heq) hle
  filled := by
    intro k text hget
    exact h.filled k text (Keyspace.get_earlier hle hget)

end

/-! ## Launch bootstraps -/

/-- The deadline of a bootstrap in the dictionary. -/
def BootstrapEntry.expiresAt (entry : BootstrapEntry) : Nat :=
  entry.createdAt + entry.expiresIn * 1000

/-- What is issued is so in both stores, with one deadline. -/
structure BootstrapsMatch (now : Nat) (keys : Keyspace String Bootstrap)
    (entries : Table BootstrapEntry BootstrapEntry.launchId) : Prop where
  alive : ∀ launchId e, keys.entry launchId = some e → e.value = .issued → now ≤ e.expiresAt →
    ∃ entry, entries.get? launchId = some entry ∧ entry.status = .issued ∧
      entry.expiresAt = e.expiresAt
  known : ∀ launchId entry, entries.get? launchId = some entry → entry.status = .issued →
    ∃ e, keys.entry launchId = some e ∧ e.value = .issued ∧ entry.expiresAt = e.expiresAt

section

variable {keys : Keyspace String Bootstrap}
  {entries : Table BootstrapEntry BootstrapEntry.launchId} {now : Nat} {launchId : String}

/-- The sweep of the dictionary drops what has run out under Redis as well. -/
theorem BootstrapsMatch.evict (h : BootstrapsMatch now keys entries) :
    BootstrapsMatch now keys (Memory.unexpiredBootstraps entries now) where
  alive := by
    intro id e he hissued hnow
    rcases h.alive id e he hissued hnow with ⟨entry, hentry, hstatus, hdeadline⟩
    refine ⟨entry, Table.get?_delete_eq_some.mpr ⟨hentry, ?_⟩, hstatus, hdeadline⟩
    unfold BootstrapEntry.expiresAt at hdeadline
    simp only [Memory.bootstrapExpired, decide_eq_false_iff_not]
    omega
  known := by
    intro id entry hentry hstatus
    exact h.known id entry (Table.get?_delete_eq_some.mp hentry).1 hstatus

/-- A new bootstrap has one deadline in both stores. -/
theorem storeLinkLaunchBootstrap_match (h : BootstrapsMatch now keys entries) (expiresIn : Int)
    (hlimit : (Memory.unexpiredBootstraps entries now).rows.length ≤ maxMemLinkLaunchBootstraps) :
    BootstrapsMatch now (Redis.storeLinkLaunchBootstrap keys now launchId expiresIn)
      (Memory.storeLinkLaunchBootstrap entries now launchId expiresIn) := by
  unfold Memory.storeLinkLaunchBootstrap Memory.evictExpiredLinkLaunchBootstraps
  rw [evictOldest_of_le _ hlimit]
  have hevict := h.evict
  constructor
  · intro id e he hissued hnow
    rw [Table.get?_assign]
    by_cases hid : id = launchId
    · -- the new one
      subst hid
      rw [Redis.storeLinkLaunchBootstrap, Keyspace.entry_set_self] at he
      obtain rfl := Option.some.inj he
      exact ⟨_, if_pos rfl, rfl, rfl⟩
    · rw [Redis.storeLinkLaunchBootstrap, Keyspace.entry_set_of_ne _ hid] at he
      rw [if_neg hid]
      exact hevict.alive id e he hissued hnow
  · intro id entry hentry hstatus
    rw [Table.get?_assign] at hentry
    by_cases hid : id = launchId
    · rw [if_pos hid] at hentry
      obtain rfl := Option.some.inj hentry
      refine ⟨⟨.issued, after now (max expiresIn 1)⟩, ?_, rfl, rfl⟩
      rw [hid, Redis.storeLinkLaunchBootstrap, Keyspace.entry_set_self]
    · rw [if_neg hid] at hentry
      rw [Redis.storeLinkLaunchBootstrap, Keyspace.entry_set_of_ne _ hid]
      exact hevict.known id entry hentry hstatus

/-- A launch id that was consumed is out of what the stores have to agree on. -/
theorem BootstrapsMatch.consume (h : BootstrapsMatch now keys entries) (expiresAt : Nat)
    {entry : BootstrapEntry} (hkey : entry.launchId = launchId)
    (hconsumed : entry.status = .consumed) :
    BootstrapsMatch now (keys.set launchId .consumed expiresAt) (entries.assign entry) where
  alive := by
    intro id e he hissued hnow
    by_cases hid : id = launchId
    · subst hid
      rw [Keyspace.entry_set_self] at he
      obtain rfl := Option.some.inj he
      cases hissued
    · rw [Keyspace.entry_set_of_ne _ hid] at he
      rw [Table.get?_assign, hkey, if_neg hid]
      exact h.alive id e he hissued hnow
  known := by
    intro id other hother hstatus
    rw [Table.get?_assign, hkey] at hother
    by_cases hid : id = launchId
    · rw [if_pos hid] at hother
      obtain rfl := Option.some.inj hother
      rw [hconsumed] at hstatus
      cases hstatus
    · rw [if_neg hid] at hother
      rw [Keyspace.entry_set_of_ne _ hid]
      exact h.known id other hother hstatus

/-- A bootstrap is consumed in both stores or refused by both. -/
theorem consumeLinkLaunchBootstrap_match (h : BootstrapsMatch now keys entries) (launchId : String)
    (hlimit : (Memory.unexpiredBootstraps entries now).rows.length ≤ maxMemLinkLaunchBootstraps) :
    (Redis.consumeScript keys now launchId).1 =
        (Memory.consumeLinkLaunchBootstrap entries now launchId).1 ∧
      BootstrapsMatch now (Redis.consumeScript keys now launchId).2
        (Memory.consumeLinkLaunchBootstrap entries now launchId).2 := by
  unfold Memory.consumeLinkLaunchBootstrap Memory.evictExpiredLinkLaunchBootstraps
  rw [evictOldest_of_le _ hlimit]
  have hevict := h.evict
  dsimp only
  by_cases hissued : keys.get now launchId = some .issued
  · -- issued in both
    rcases Keyspace.get_eq_some.mp hissued with ⟨e, he, hnow, hvalue⟩
    rcases hevict.alive launchId e he hvalue hnow with ⟨entry, hentry, hstatus, -⟩
    unfold Redis.consumeScript
    rw [hissued, hentry]
    dsimp only
    rw [hstatus]
    exact ⟨rfl, hevict.consume _ (Table.get?_mem hentry).2 rfl⟩
  · -- consumed, or missing, in both
    rw [Redis.consumeScript_refused hissued]
    dsimp only
    split
    · exact ⟨rfl, hevict⟩
    · rename_i entry hentry
      split
      · exact ⟨rfl, hevict⟩
      · rename_i hstatus
        -- the dictionary would have it past the deadline of Redis
        exfalso
        rcases hevict.known launchId entry hentry hstatus with ⟨e, he, hvalue, heq⟩
        have hnot := (Table.get?_delete_eq_some.mp hentry).2
        simp only [Memory.bootstrapExpired, decide_eq_false_iff_not] at hnot
        unfold BootstrapEntry.expiresAt at heq
        exact hissued (Keyspace.get_eq_some.mpr ⟨e, he, by omega, hvalue⟩)

/-- As time passes, fewer bootstraps are alive under Redis. -/
theorem BootstrapsMatch.wait (h : BootstrapsMatch now keys entries) {later : Nat}
    (hle : now ≤ later) : BootstrapsMatch later keys entries where
  alive := by
    intro id e he hissued hlater
    exact h.alive id e he hissued (by omega)
  known := h.known

end

/-! ## Webhook deliveries -/

/-- The dictionary of delivery logs mirrors the keys of Redis. -/
abbrev DeliveriesMatch (now : Nat) (keys : Keyspace String (List Json))
    (entries : Table DeliveryLog DeliveryLog.webhookId) : Prop :=
  Mirrors Eq keys now (Memory.deliveries entries)

section

variable {keys : Keyspace String (List Json)} {entries : Table DeliveryLog DeliveryLog.webhookId}
  {now : Nat} {webhookId : String}

/-- A log is read alike, as the empty list where there is none. -/
theorem getWebhookDeliveries_match (h : DeliveriesMatch now keys entries)
    (hgone : ¬ keys.Lingers now (Memory.deliveries entries) webhookId) :
    Redis.getWebhookDeliveries keys now webhookId =
      Memory.getWebhookDeliveries entries webhookId := by
  show (keys.get now webhookId).getD [] = (Memory.deliveries entries webhookId).getD []
  rcases h.found hgone with ⟨hredis, hmemory⟩ | ⟨deliveries, other, hredis, hmemory, rfl⟩
  · rw [hredis, hmemory]
  · rw [hredis, hmemory]

/-- A delivery goes behind those that are read, in both. -/
theorem addWebhookDelivery_match (h : DeliveriesMatch now keys entries)
    (hgone : ¬ keys.Lingers now (Memory.deliveries entries) webhookId)
    (hlimit : entries.rows.length ≤ maxMemWebhookDeliveries) (delivery : Json) :
    DeliveriesMatch now (Redis.addWebhookDelivery keys now webhookId delivery)
      (Memory.addWebhookDelivery entries webhookId delivery) := by
  have hsame := getWebhookDeliveries_match h hgone
  -- the dictionary has room for one more log
  have hevict : evictFirst maxMemWebhookDeliveries entries = entries := by
    unfold evictFirst
    rw [if_neg (by omega)]
  unfold Redis.addWebhookDelivery Memory.addWebhookDelivery
  rw [hevict]
  refine h.set ?_ _ fun k => Table.map_get?_assign DeliveryLog.deliveries entries _ k
  unfold Redis.getWebhookDeliveries Memory.getWebhookDeliveries at hsame
  rw [hsame]

/-- A deletion drops the key and the log. -/
theorem deleteWebhookDeliveries_match (h : DeliveriesMatch now keys entries) (webhookId : String) :
    DeliveriesMatch now (keys.delete webhookId) (entries.delete (·.webhookId == webhookId)) :=
  h.delete fun k => Table.map_get?_delete_key DeliveryLog.deliveries entries webhookId k

end

/-! ## Sequences of calls -/

/-- The five stores of the two backends, each simulated by its dictionary. -/
structure Sim (s : Both) : Prop where
  linkSessions : SessionsMatch s.now s.redis.linkSessions s.memory.linkSessions
  linkScopes : TextsMatch s.now s.redis.linkScopes s.memory.linkScopes
  linkRefreshSchedules :
    TextsMatch s.now s.redis.linkRefreshSchedules s.memory.linkRefreshSchedules
  linkLaunchBootstraps :
    BootstrapsMatch s.now s.redis.linkLaunchBootstraps s.memory.linkLaunchBootstraps
  webhookDeliveries :
    DeliveriesMatch s.now s.redis.webhookDeliveries s.memory.webhookDeliveries

/-- Both start empty. -/
theorem init_sim (now : Nat) : Sim (startBoth now) where
  linkSessions := Mirrors.empty
  linkScopes := ⟨rfl, rfl, Mirrors.empty, fun _ _ h => by cases h⟩
  linkRefreshSchedules := ⟨rfl, rfl, Mirrors.empty, fun _ _ h => by cases h⟩
  linkLaunchBootstraps := ⟨fun _ _ h => (by cases h), fun _ _ h => (by cases h)⟩
  webhookDeliveries := Mirrors.empty

/-- Equal values are the same to a caller. -/
theorem same_of_eq {a b : Value} (h : a = b) : Value.Same a b := by
  subst h
  cases a with
  | session session =>
      cases session with
      | none => rfl
      | some session => exact ⟨rfl, fun _ _ => rfl⟩
  | _ => rfl

/-- A call is answered alike, and keeps the simulation. -/
theorem call_sim {s : Both} (hs : Sim s) {call : StoreCall} (h : Comparable s (.call call)) :
    SameAnswers s (.call call) ∧
      Sim { s with
        redis := (s.redis.call s.now call).2
        memory := (s.memory.call s.now call).2 } := by
  cases call with
  | createLinkSession linkToken data =>
      exact ⟨rfl, { hs with linkSessions := createLinkSession_match hs.linkSessions data h.1 h.2 }⟩
  | getLinkSession linkToken =>
      have hmatch := getLinkSession_match hs.linkSessions h
      exact ⟨hmatch.1, { hs with linkSessions := hmatch.2 }⟩
  | updateLinkSession linkToken updates =>
      have hmatch := updateLinkSession_match hs.linkSessions h.1 h.2
      exact ⟨same_of_eq (congrArg Value.bool hmatch.1), { hs with linkSessions := hmatch.2 }⟩
  | deleteLinkSession linkToken =>
      exact ⟨rfl, { hs with linkSessions := deleteLinkSession_match hs.linkSessions linkToken }⟩
  | appendLinkSessionEvent linkToken event =>
      have hmatch := appendLinkSessionEvent_match hs.linkSessions h event
      exact ⟨same_of_eq (congrArg Value.ofAppend hmatch.1), { hs with linkSessions := hmatch.2 }⟩
  | setLinkScopes linkToken scopesJson =>
      exact ⟨rfl, { hs with linkScopes := setText_match hs.linkScopes h.1 h.2 }⟩
  | popLinkScopes linkToken =>
      have hmatch := popText_match hs.linkScopes h
      exact ⟨same_of_eq (congrArg Value.text hmatch.1), { hs with linkScopes := hmatch.2 }⟩
  | setLinkRefreshSchedule linkToken scheduleJson =>
      exact ⟨rfl,
        { hs with linkRefreshSchedules := setText_match hs.linkRefreshSchedules h.1 h.2 }⟩
  | popLinkRefreshSchedule linkToken =>
      have hmatch := popText_match hs.linkRefreshSchedules h
      exact ⟨same_of_eq (congrArg Value.text hmatch.1),
        { hs with linkRefreshSchedules := hmatch.2 }⟩
  | storeLinkLaunchBootstrap launchId expiresIn =>
      exact ⟨rfl,
        { hs with
          linkLaunchBootstraps :=
            storeLinkLaunchBootstrap_match hs.linkLaunchBootstraps expiresIn h }⟩
  | consumeLinkLaunchBootstrap launchId =>
      have hmatch := consumeLinkLaunchBootstrap_match hs.linkLaunchBootstraps launchId h
      exact ⟨same_of_eq (congrArg Value.bool hmatch.1),
        { hs with linkLaunchBootstraps := hmatch.2 }⟩
  | addWebhookDelivery webhookId delivery =>
      exact ⟨rfl,
        { hs with
          webhookDeliveries := addWebhookDelivery_match hs.webhookDeliveries h.1 h.2 delivery }⟩
  | getWebhookDeliveries webhookId =>
      have hmatch := getWebhookDeliveries_match hs.webhookDeliveries h
      exact ⟨same_of_eq (congrArg Value.deliveries hmatch), hs⟩
  | deleteWebhookDeliveries webhookId =>
      exact ⟨rfl,
        { hs with
          webhookDeliveries := deleteWebhookDeliveries_match hs.webhookDeliveries webhookId }⟩

/-- Time passes for both. -/
theorem wait_sim {s : Both} (hs : Sim s) (time : Nat) : Sim { s with now := s.now + time } := by
  have hle : s.now ≤ s.now + time := Nat.le_add_right _ _
  exact
    { linkSessions := hs.linkSessions.wait (fun _ _ hsame => hsame.later hle) hle
      linkScopes := hs.linkScopes.wait hle
      linkRefreshSchedules := hs.linkRefreshSchedules.wait hle
      linkLaunchBootstraps := hs.linkLaunchBootstraps.wait hle
      webhookDeliveries := hs.webhookDeliveries.wait (fun _ _ heq => heq) hle }

/-- Every step of a comparable run keeps the simulation. -/
theorem step_sim (s : Both) (l : StoreLabel) (t : Both) (hs : Sim s) (hl : Comparable s l)
    (h : bothStep s l = some t) : Sim t := by
  cases l with
  | call call =>
      obtain rfl := Option.some.inj h
      exact (call_sim hs hl).2
  | wait time =>
      obtain rfl := Option.some.inj h
      exact wait_sim hs time

/-- A bootstrap is consumed at its deadline, a session is read that an append has
prolonged, and once more when both backends have dropped it. -/
def comparedCalls : List StoreLabel :=
  [.call (.createLinkSession "link-1" ⟨none, fun _ => none⟩), .call (.setLinkScopes "link-1" "[]"),
    .call (.storeLinkLaunchBootstrap "launch-1" 300), .wait 300000,
    .call (.consumeLinkLaunchBootstrap "launch-1"), .call (.consumeLinkLaunchBootstrap "launch-1"),
    .call (.popLinkScopes "link-1"), .wait 290000,
    .call (.appendLinkSessionEvent "link-1" (.str "OPEN")), .wait 20000,
    .call (.getLinkSession "link-1"), .call (.addWebhookDelivery "webhook-1" (.str "sent")),
    .call (.getWebhookDeliveries "webhook-1"), .wait 41000,
    .call (.createLinkSession "link-2" ⟨none, fun _ => none⟩), .call (.getLinkSession "link-1")]

/-- After these calls the backends answer one more call differently. -/
def Differ (run : List StoreLabel) (call : StoreCall) : Prop :=
  ∃ s, Runs.exec bothStep (startBoth 0) run = some s ∧
    (s.redis.call s.now call).1 ≠ (s.memory.call s.now call).1

/-- Answers differ where something that can be computed from them does. -/
theorem differ_of_ne (f : Value → Bool) {run : List StoreLabel} {call : StoreCall} {b : Bool}
    (h : (Runs.exec bothStep (startBoth 0) run).map (fun s =>
      (f (s.redis.call s.now call).1, f (s.memory.call s.now call).1)) = some (b, !b)) :
    Differ run call := by
  rcases Option.map_eq_some_iff.mp h with ⟨s, hs, hvalues⟩
  rcases Prod.mk.inj hvalues with ⟨hredis, hmemory⟩
  refine ⟨s, hs, fun heq => ?_⟩
  rw [heq, hmemory] at hredis
  cases b <;> cases hredis

/-- The value is a session with this key. -/
def Value.hasField (field : String) : Value → Bool
  | .session (some found) => (found.fields field).isSome
  | _ => false

/-- The value is a session, a text or `True`. -/
def Value.isFound : Value → Bool
  | .session found => found.isSome
  | .text found => found.isSome
  | .bool b => b
  | _ => false

/-- A session is created without data. -/
def newSession (linkToken : String) : StoreLabel :=
  .call (.createLinkSession linkToken ⟨none, fun _ => none⟩)

/-- An event is appended to a session, which prolongs it under Redis. -/
def opened (linkToken : String) : StoreLabel :=
  .call (.appendLinkSessionEvent linkToken (.str "OPEN"))

end Plaidify.SessionStore
