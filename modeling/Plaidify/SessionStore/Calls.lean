import Plaidify.Lib.Runs
import Plaidify.SessionStore.Backends

/-!
# One client, two backends

The functions of `src/src/session_store.py` as calls, with what either backend
returns and keeps, and both backends beside each other under one clock.
-/

namespace Plaidify.SessionStore

open Links (ScopeStore ScopeEntry maxMemLinkScopes)

/-! ## Calls -/

inductive StoreCall where
  | createLinkSession (linkToken : String) (data : SessionData)
  | getLinkSession (linkToken : String)
  | updateLinkSession (linkToken : String) (updates : SessionData)
  | deleteLinkSession (linkToken : String)
  | appendLinkSessionEvent (linkToken : String) (event : Json)
  | setLinkScopes (linkToken scopesJson : String)
  | popLinkScopes (linkToken : String)
  | setLinkRefreshSchedule (linkToken scheduleJson : String)
  | popLinkRefreshSchedule (linkToken : String)
  | storeLinkLaunchBootstrap (launchId : String) (expiresIn : Int)
  | consumeLinkLaunchBootstrap (launchId : String)
  | addWebhookDelivery (webhookId : String) (delivery : Json)
  | getWebhookDeliveries (webhookId : String)
  | deleteWebhookDeliveries (webhookId : String)

/-- What a call returns. -/
inductive Value where
  | nothing
  | session (session : Option Session)
  | bool (b : Bool)
  | text (text : Option String)
  | deliveries (deliveries : List Json)
  /-- The `AttributeError` of an append to what is not a list. -/
  | raised

/-- What `append_link_session_event` returns. -/
def Value.ofAppend : Option Bool → Value
  | none => .raised
  | some b => .bool b

/-- The branch for Redis. -/
def Redis.call (r : Redis) (now : Nat) : StoreCall → Value × Redis
  | .createLinkSession linkToken data =>
      (.nothing, { r with linkSessions := createLinkSession r.linkSessions now linkToken data })
  | .getLinkSession linkToken => (.session (getLinkSession r.linkSessions now linkToken), r)
  | .updateLinkSession linkToken updates =>
      let answer := updateLinkSession r.linkSessions now linkToken updates
      (.bool answer.1, { r with linkSessions := answer.2 })
  | .deleteLinkSession linkToken =>
      (.nothing, { r with linkSessions := r.linkSessions.delete linkToken })
  | .appendLinkSessionEvent linkToken event =>
      let answer := appendLinkSessionEvent r.linkSessions now linkToken event
      (.ofAppend answer.1, { r with linkSessions := answer.2 })
  | .setLinkScopes linkToken scopesJson =>
      (.nothing, { r with linkScopes := r.linkScopes.set now linkToken scopesJson })
  | .popLinkScopes linkToken =>
      let answer := r.linkScopes.pop now linkToken
      (.text answer.1, { r with linkScopes := answer.2 })
  | .setLinkRefreshSchedule linkToken scheduleJson =>
      (.nothing,
        { r with linkRefreshSchedules := r.linkRefreshSchedules.set now linkToken scheduleJson })
  | .popLinkRefreshSchedule linkToken =>
      let answer := r.linkRefreshSchedules.pop now linkToken
      (.text answer.1, { r with linkRefreshSchedules := answer.2 })
  | .storeLinkLaunchBootstrap launchId expiresIn =>
      (.nothing,
        { r with
          linkLaunchBootstraps :=
            storeLinkLaunchBootstrap r.linkLaunchBootstraps now launchId expiresIn })
  | .consumeLinkLaunchBootstrap launchId =>
      let answer := consumeScript r.linkLaunchBootstraps now launchId
      (.bool answer.1, { r with linkLaunchBootstraps := answer.2 })
  | .addWebhookDelivery webhookId delivery =>
      (.nothing,
        { r with
          webhookDeliveries := addWebhookDelivery r.webhookDeliveries now webhookId delivery })
  | .getWebhookDeliveries webhookId =>
      (.deliveries (getWebhookDeliveries r.webhookDeliveries now webhookId), r)
  | .deleteWebhookDeliveries webhookId =>
      (.nothing, { r with webhookDeliveries := r.webhookDeliveries.delete webhookId })

/-- The branch for the in-memory dictionaries. -/
def Memory.call (m : Memory) (now : Nat) : StoreCall → Value × Memory
  | .createLinkSession linkToken data =>
      (.nothing, { m with linkSessions := createLinkSession m.linkSessions now linkToken data })
  | .getLinkSession linkToken =>
      let answer := getLinkSession m.linkSessions now linkToken
      (.session answer.1, { m with linkSessions := answer.2 })
  | .updateLinkSession linkToken updates =>
      let answer := updateLinkSession m.linkSessions linkToken updates
      (.bool answer.1, { m with linkSessions := answer.2 })
  | .deleteLinkSession linkToken =>
      (.nothing, { m with linkSessions := m.linkSessions.delete (·.linkToken == linkToken) })
  | .appendLinkSessionEvent linkToken event =>
      let answer := appendLinkSessionEvent m.linkSessions linkToken event
      (.ofAppend answer.1, { m with linkSessions := answer.2 })
  | .setLinkScopes linkToken scopesJson =>
      (.nothing, { m with linkScopes := m.linkScopes.set now linkToken scopesJson })
  | .popLinkScopes linkToken =>
      let answer := m.linkScopes.pop now linkToken
      (.text answer.1, { m with linkScopes := answer.2 })
  | .setLinkRefreshSchedule linkToken scheduleJson =>
      (.nothing,
        { m with linkRefreshSchedules := m.linkRefreshSchedules.set now linkToken scheduleJson })
  | .popLinkRefreshSchedule linkToken =>
      let answer := m.linkRefreshSchedules.pop now linkToken
      (.text answer.1, { m with linkRefreshSchedules := answer.2 })
  | .storeLinkLaunchBootstrap launchId expiresIn =>
      (.nothing,
        { m with
          linkLaunchBootstraps :=
            storeLinkLaunchBootstrap m.linkLaunchBootstraps now launchId expiresIn })
  | .consumeLinkLaunchBootstrap launchId =>
      let answer := consumeLinkLaunchBootstrap m.linkLaunchBootstraps now launchId
      (.bool answer.1, { m with linkLaunchBootstraps := answer.2 })
  | .addWebhookDelivery webhookId delivery =>
      (.nothing,
        { m with webhookDeliveries := addWebhookDelivery m.webhookDeliveries webhookId delivery })
  | .getWebhookDeliveries webhookId =>
      (.deliveries (getWebhookDeliveries m.webhookDeliveries webhookId), m)
  | .deleteWebhookDeliveries webhookId =>
      (.nothing,
        { m with webhookDeliveries := m.webhookDeliveries.delete (·.webhookId == webhookId) })

/-! ## Both backends -/

structure Both where
  now : Nat
  redis : Redis
  memory : Memory

inductive StoreLabel where
  | call (call : StoreCall)
  | wait (time : Nat)

def bothStep (s : Both) : StoreLabel → Option Both
  | .call call =>
      some { s with redis := (s.redis.call s.now call).2, memory := (s.memory.call s.now call).2 }
  | .wait time => some { s with now := s.now + time }

/-- Nothing is stored. -/
def startBoth (now : Nat) : Both where
  now := now
  redis := ⟨Keyspace.empty, ⟨.redis, Table.empty⟩, ⟨.redis, Table.empty⟩, Keyspace.empty,
    Keyspace.empty⟩
  memory := ⟨Table.empty, ⟨.memory, Table.empty⟩, ⟨.memory, Table.empty⟩, Table.empty,
    Table.empty⟩

/-! ## What is compared, and where -/

/-- Sessions that differ only in the key that the in-memory backend adds. -/
structure SameFields (a b : Session) : Prop where
  createdAt : a.createdAt = b.createdAt
  fields : ∀ field, field ≠ "subscribers" → a.fields field = b.fields field

/-- Values that are equal, sessions apart from `subscribers`. -/
def Value.Same : Value → Value → Prop
  | .session (some a), .session (some b) => SameFields a b
  | a, b => a = b

/-- The two backends answer a call with the same value. -/
def SameAnswers (s : Both) : StoreLabel → Prop
  | .call call => Value.Same (s.redis.call s.now call).1 (s.memory.call s.now call).1
  | .wait _ => True

/-- The keys of a scope store, with the deadlines by which Redis goes. -/
def deadlines (store : ScopeStore) : Keyspace String String :=
  ⟨fun k => (store.entries.get? k).map fun entry => ⟨entry.scopesJson, entry.expiresAt⟩⟩

/-- The session in the dictionary. -/
def Memory.session (entries : Table SessionEntry SessionEntry.linkToken) (linkToken : String) :
    Option Session :=
  (entries.get? linkToken).map SessionEntry.session

/-- The texts of a scope store, whatever their deadlines. -/
def texts (store : ScopeStore) (linkToken : String) : Option String :=
  (store.entries.get? linkToken).map ScopeEntry.scopesJson

/-- The log in the dictionary. -/
def Memory.deliveries (entries : Table DeliveryLog DeliveryLog.webhookId) (webhookId : String) :
    Option (List Json) :=
  (entries.get? webhookId).map DeliveryLog.deliveries

namespace Both

abbrev SessionLingers (s : Both) (linkToken : String) : Prop :=
  s.redis.linkSessions.Lingers s.now (Memory.session s.memory.linkSessions) linkToken

abbrev ScopesLinger (s : Both) (linkToken : String) : Prop :=
  (deadlines s.redis.linkScopes).Lingers s.now (texts s.memory.linkScopes) linkToken

abbrev ScheduleLingers (s : Both) (linkToken : String) : Prop :=
  (deadlines s.redis.linkRefreshSchedules).Lingers s.now (texts s.memory.linkRefreshSchedules)
    linkToken

abbrev DeliveriesLinger (s : Both) (webhookId : String) : Prop :=
  s.redis.webhookDeliveries.Lingers s.now (Memory.deliveries s.memory.webhookDeliveries) webhookId

end Both

/-- The times at which the backends are compared: no call looks at a key that
has run out under Redis and is in the dictionary still, and the dictionaries hold
no more than their maximum. -/
def Comparable (s : Both) : StoreLabel → Prop
  | .wait _ => True
  | .call (.createLinkSession _ _) =>
      (Memory.unexpiredSessions s.memory.linkSessions s.now).rows.length ≤ maxMemLinkSessions ∧
        -- what the dictionary drops has run out under Redis
        ∀ entry ∈ s.memory.linkSessions.rows, entry.session.expired s.now = true →
          s.redis.linkSessions.get s.now entry.linkToken = none
  | .call (.getLinkSession linkToken) => ¬ s.SessionLingers linkToken
  | .call (.updateLinkSession linkToken updates) =>
      ¬ s.SessionLingers linkToken ∧
        -- an expired session stays so
        (updates.createdAt = none ∨ ∀ session ∈ s.redis.linkSessions.get s.now linkToken,
          session.expired s.now = false)
  | .call (.deleteLinkSession _) => True
  | .call (.appendLinkSessionEvent linkToken _) => ¬ s.SessionLingers linkToken
  | .call (.setLinkScopes _ scopesJson) =>
      scopesJson ≠ "" ∧ s.memory.linkScopes.entries.rows.length ≤ maxMemLinkScopes
  | .call (.popLinkScopes linkToken) => ¬ s.ScopesLinger linkToken
  | .call (.setLinkRefreshSchedule _ scheduleJson) =>
      scheduleJson ≠ "" ∧ s.memory.linkRefreshSchedules.entries.rows.length ≤ maxMemLinkScopes
  | .call (.popLinkRefreshSchedule linkToken) =>
      ¬ s.ScheduleLingers linkToken
  | .call (.storeLinkLaunchBootstrap _ _) =>
      (Memory.unexpiredBootstraps s.memory.linkLaunchBootstraps s.now).rows.length ≤
        maxMemLinkLaunchBootstraps
  | .call (.consumeLinkLaunchBootstrap _) =>
      (Memory.unexpiredBootstraps s.memory.linkLaunchBootstraps s.now).rows.length ≤
        maxMemLinkLaunchBootstraps
  | .call (.addWebhookDelivery webhookId _) =>
      ¬ s.DeliveriesLinger webhookId ∧
        s.memory.webhookDeliveries.rows.length ≤ maxMemWebhookDeliveries
  | .call (.getWebhookDeliveries webhookId) => ¬ s.DeliveriesLinger webhookId
  | .call (.deleteWebhookDeliveries _) => True

instance decidableComparable (s : Both) : (l : StoreLabel) → Decidable (Comparable s l)
  | .wait _ => isTrue trivial
  | .call (.createLinkSession _ _) =>
      inferInstanceAs (Decidable ((Memory.unexpiredSessions s.memory.linkSessions s.now).rows.length ≤
          maxMemLinkSessions ∧
        ∀ entry ∈ s.memory.linkSessions.rows, entry.session.expired s.now = true →
          s.redis.linkSessions.get s.now entry.linkToken = none))
  | .call (.getLinkSession linkToken) =>
      inferInstanceAs (Decidable (¬ s.SessionLingers linkToken))
  | .call (.updateLinkSession linkToken updates) =>
      inferInstanceAs (Decidable (¬ s.SessionLingers linkToken ∧
        (updates.createdAt = none ∨ ∀ session ∈ s.redis.linkSessions.get s.now linkToken,
          session.expired s.now = false)))
  | .call (.deleteLinkSession _) => isTrue trivial
  | .call (.appendLinkSessionEvent linkToken _) =>
      inferInstanceAs (Decidable (¬ s.SessionLingers linkToken))
  | .call (.setLinkScopes _ scopesJson) =>
      inferInstanceAs (Decidable (scopesJson ≠ "" ∧
        s.memory.linkScopes.entries.rows.length ≤ maxMemLinkScopes))
  | .call (.popLinkScopes linkToken) =>
      inferInstanceAs (Decidable (¬ s.ScopesLinger linkToken))
  | .call (.setLinkRefreshSchedule _ scheduleJson) =>
      inferInstanceAs (Decidable (scheduleJson ≠ "" ∧
        s.memory.linkRefreshSchedules.entries.rows.length ≤ maxMemLinkScopes))
  | .call (.popLinkRefreshSchedule linkToken) =>
      inferInstanceAs (Decidable (¬ s.ScheduleLingers linkToken))
  | .call (.storeLinkLaunchBootstrap _ _) =>
      inferInstanceAs (Decidable
        ((Memory.unexpiredBootstraps s.memory.linkLaunchBootstraps s.now).rows.length ≤
          maxMemLinkLaunchBootstraps))
  | .call (.consumeLinkLaunchBootstrap _) =>
      inferInstanceAs (Decidable
        ((Memory.unexpiredBootstraps s.memory.linkLaunchBootstraps s.now).rows.length ≤
          maxMemLinkLaunchBootstraps))
  | .call (.addWebhookDelivery webhookId _) =>
      inferInstanceAs (Decidable (¬ s.DeliveriesLinger webhookId ∧
        s.memory.webhookDeliveries.rows.length ≤ maxMemWebhookDeliveries))
  | .call (.getWebhookDeliveries webhookId) =>
      inferInstanceAs (Decidable (¬ s.DeliveriesLinger webhookId))
  | .call (.deleteWebhookDeliveries _) => isTrue trivial

end Plaidify.SessionStore
