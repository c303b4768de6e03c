import Plaidify.SessionStore.Documents

/-!
# The two backends of the session store

Every function of `src/src/session_store.py` has a branch for Redis, where a key
runs out by itself, and one for the dictionaries of the process, which are
cleared of old entries by some of the functions. The scopes and the refresh
schedules of link tokens are kept by the two branches of `Links.ScopeStore`.
-/

namespace Plaidify.SessionStore

open Links (ScopeStore ScopeEntry maxMemLinkScopes)

/-! ## Redis -/

structure Redis where
  linkSessions : Keyspace String Session
  linkScopes : ScopeStore
  linkRefreshSchedules : ScopeStore
  linkLaunchBootstraps : Keyspace String Bootstrap
  webhookDeliveries : Keyspace String (List Json)

/-- The time that `ex` seconds from now are. -/
def after (now : Nat) (ex : Int) : Nat := now + ex.toNat * 1000

namespace Redis

/-! ### Link sessions -/

/-- `create_link_session`. -/
def createLinkSession (keys : Keyspace String Session) (now : Nat) (linkToken : String)
    (data : SessionData) : Keyspace String Session :=
  keys.set linkToken ⟨data.createdAt.getD now, data.fields.serializable⟩ (now + linkSessionTtl)

/-- `get_link_session`. -/
def getLinkSession (keys : Keyspace String Session) (now : Nat) (linkToken : String) :
    Option Session :=
  (keys.get now linkToken).map (·.overlay now)

/-- The SET of a session that was read, with the time to live of its key. -/
def setLinkSession (keys : Keyspace String Session) (now : Nat) (linkToken : String)
    (session : Session) (ttl : Int) : Keyspace String Session :=
  keys.set linkToken session (after now (max ttl 60))

/-- What `update_link_session` makes of the session it has read. -/
def updated (session : Session) (updates : SessionData) : Session :=
  session.update { updates with fields := updates.fields.serializable }

/-- `update_link_session`. -/
def updateLinkSession (keys : Keyspace String Session) (now : Nat) (linkToken : String)
    (updates : SessionData) : Bool × Keyspace String Session :=
  match keys.get now linkToken with
  | none => (false, keys)
  | some session =>
      (true, setLinkSession keys now linkToken (updated session updates) (keys.ttl now linkToken))

/-- `append_link_session_event`; `none` where it raises. -/
def appendLinkSessionEvent (keys : Keyspace String Session) (now : Nat) (linkToken : String)
    (event : Json) : Option Bool × Keyspace String Session :=
  match keys.get now linkToken with
  | none => (some false, keys)
  | some session =>
      match session.appendEvent event with
      | none => (none, keys)
      | some session => (some true, setLinkSession keys now linkToken session (keys.ttl now linkToken))

/-! ### Launch bootstraps -/

/-- `store_link_launch_bootstrap`. -/
def storeLinkLaunchBootstrap (keys : Keyspace String Bootstrap) (now : Nat) (launchId : String)
    (expiresIn : Int) : Keyspace String Bootstrap :=
  keys.set launchId .issued (after now (max expiresIn 1))

/-- The script of `consume_link_launch_bootstrap`. -/
def consumeScript (keys : Keyspace String Bootstrap) (now : Nat) (launchId : String) :
    Bool × Keyspace String Bootstrap :=
  match keys.get now launchId with
  | none => (false, keys)
  | some .consumed => (false, keys)
  | some .issued =>
      -- rounded to seconds, the time left may be none
      let ttl := keys.ttl now launchId
      let ttl := if ttl < 1 then 60 else ttl
      (true, keys.set launchId .consumed (after now ttl))

/-- A launch id that is not issued is refused. -/
theorem consumeScript_refused {keys : Keyspace String Bootstrap} {now : Nat} {launchId : String}
    (h : keys.get now launchId ≠ some .issued) : consumeScript keys now launchId = (false, keys) := by
  unfold consumeScript
  cases hget : keys.get now launchId with
  | none => rfl
  | some value =>
      cases value with
      | consumed => rfl
      | issued => exact absurd hget h

/-! ### Webhook deliveries -/

/-- `add_webhook_delivery`. -/
def addWebhookDelivery (keys : Keyspace String (List Json)) (now : Nat) (webhookId : String)
    (delivery : Json) : Keyspace String (List Json) :=
  keys.set webhookId (addDelivery ((keys.get now webhookId).getD []) delivery)
    (now + webhookDeliveryTtl)

/-- `get_webhook_deliveries`. -/
def getWebhookDeliveries (keys : Keyspace String (List Json)) (now : Nat) (webhookId : String) :
    List Json :=
  (keys.get now webhookId).getD []

end Redis

/-! ## Memory -/

structure Memory where
  linkSessions : Table SessionEntry SessionEntry.linkToken
  linkScopes : ScopeStore
  linkRefreshSchedules : ScopeStore
  linkLaunchBootstraps : Table BootstrapEntry BootstrapEntry.launchId
  webhookDeliveries : Table DeliveryLog DeliveryLog.webhookId

namespace Memory

/-! ### Link sessions -/

/-- The entries that `_evict_expired_sessions` keeps, whatever their number. -/
def unexpiredSessions (entries : Table SessionEntry SessionEntry.linkToken) (now : Nat) :
    Table SessionEntry SessionEntry.linkToken :=
  entries.delete (·.session.expired now)

/-- `_evict_expired_sessions`. -/
def evictExpiredSessions (entries : Table SessionEntry SessionEntry.linkToken) (now : Nat) :
    Table SessionEntry SessionEntry.linkToken :=
  evictOldest (·.session.createdAt) maxMemLinkSessions (unexpiredSessions entries now)

/-- `data.setdefault("subscribers", [])`. -/
def withSubscribers (fields : Fields) : Fields :=
  fun key => (fields key).orElse fun _ => if key = "subscribers" then some (.arr []) else none

/-- `create_link_session`. -/
def createLinkSession (entries : Table SessionEntry SessionEntry.linkToken) (now : Nat)
    (linkToken : String) (data : SessionData) : Table SessionEntry SessionEntry.linkToken :=
  (evictExpiredSessions entries now).assign
    ⟨linkToken, ⟨data.createdAt.getD now, withSubscribers data.fields⟩⟩

/-- `get_link_session`, which writes the overlay into the session. -/
def getLinkSession (entries : Table SessionEntry SessionEntry.linkToken) (now : Nat)
    (linkToken : String) : Option Session × Table SessionEntry SessionEntry.linkToken :=
  match entries.get? linkToken with
  | none => (none, entries)
  | some entry =>
      let session := entry.session.overlay now
      (some session, entries.assign ⟨linkToken, session⟩)

/-- `update_link_session`. -/
def updateLinkSession (entries : Table SessionEntry SessionEntry.linkToken) (linkToken : String)
    (updates : SessionData) : Bool × Table SessionEntry SessionEntry.linkToken :=
  match entries.get? linkToken with
  | none => (false, entries)
  | some entry => (true, entries.assign ⟨linkToken, entry.session.update updates⟩)

/-- `append_link_session_event`; `none` where it raises. -/
def appendLinkSessionEvent (entries : Table SessionEntry SessionEntry.linkToken)
    (linkToken : String) (event : Json) :
    Option Bool × Table SessionEntry SessionEntry.linkToken :=
  match entries.get? linkToken with
  | none => (some false, entries)
  | some entry =>
      match entry.session.appendEvent event with
      | none => (none, entries)
      | some session => (some true, entries.assign ⟨linkToken, session⟩)

/-! ### Launch bootstraps -/

/-- The entry is older than its `expires_in`. -/
def bootstrapExpired (now : Nat) (entry : BootstrapEntry) : Bool :=
  decide (entry.createdAt + entry.expiresIn * 1000 < now)

/-- The entries that `_evict_expired_link_launch_bootstraps` keeps, whatever their
number. -/
def unexpiredBootstraps (entries : Table BootstrapEntry BootstrapEntry.launchId) (now : Nat) :
    Table BootstrapEntry BootstrapEntry.launchId :=
  entries.delete (bootstrapExpired now)

/-- `_evict_expired_link_launch_bootstraps`. -/
def evictExpiredLinkLaunchBootstraps (entries : Table BootstrapEntry BootstrapEntry.launchId)
    (now : Nat) : Table BootstrapEntry BootstrapEntry.launchId :=
  evictOldest (·.createdAt) maxMemLinkLaunchBootstraps (unexpiredBootstraps entries now)

/-- `store_link_launch_bootstrap`. -/
def storeLinkLaunchBootstrap (entries : Table BootstrapEntry BootstrapEntry.launchId) (now : Nat)
    (launchId : String) (expiresIn : Int) : Table BootstrapEntry BootstrapEntry.launchId :=
  (evictExpiredLinkLaunchBootstraps entries now).assign
    ⟨launchId, .issued, now, (max expiresIn 1).toNat⟩

/-- `consume_link_launch_bootstrap`. -/
def consumeLinkLaunchBootstrap (entries : Table BootstrapEntry BootstrapEntry.launchId) (now : Nat)
    (launchId : String) : Bool × Table BootstrapEntry BootstrapEntry.launchId :=
  let entries := evictExpiredLinkLaunchBootstraps entries now
  match entries.get? launchId with
  | none => (false, entries)
  | some entry =>
      match entry.status with
      | .consumed => (false, entries)
      | .issued => (true, entries.assign { entry with status := .consumed })

/-! ### Webhook deliveries -/

/-- `add_webhook_delivery`. -/
def addWebhookDelivery (entries : Table DeliveryLog DeliveryLog.webhookId) (webhookId : String)
    (delivery : Json) : Table DeliveryLog DeliveryLog.webhookId :=
  -- room is made before the log is looked for
  let entries := evictFirst maxMemWebhookDeliveries entries
  let deliveries := ((entries.get? webhookId).map (·.deliveries)).getD []
  entries.assign ⟨webhookId, addDelivery deliveries delivery⟩

/-- `get_webhook_deliveries`. -/
def getWebhookDeliveries (entries : Table DeliveryLog DeliveryLog.webhookId) (webhookId : String) :
    List Json :=
  ((entries.get? webhookId).map (·.deliveries)).getD []

end Memory

/-! ## What an eviction leaves -/

theorem evictOldest_get? {α : Type} {key : α → String} {createdAt : α → Nat} {max : Nat}
    {t : Table α key} {k : String} {a : α} (h : (evictOldest createdAt max t).get? k = some a) :
    t.get? k = some a := by
  unfold evictOldest at h
  split at h
  · exact (Table.get?_delete_eq_some.mp h).1
  · exact h

theorem evictOldest_of_le {α : Type} {key : α → String} (createdAt : α → Nat) {max : Nat}
    {t : Table α key} (h : t.rows.length ≤ max) : evictOldest createdAt max t = t := by
  unfold evictOldest
  rw [if_neg (by omega)]

end Plaidify.SessionStore
