import Plaidify.Lib.Json
import Plaidify.Lib.Keyspace
import Plaidify.Lib.Table
import Plaidify.Links.Endpoints

/-!
# The values of the session store

What `src/src/session_store.py` keeps under its keys, and what its functions do
to one value: the document of a link session, the state of a launch bootstrap,
the log of webhook deliveries. The two backends, which differ in where they
keep a value and for how long, are in the next module.

Times are in milliseconds.
-/

namespace Plaidify.SessionStore

/-! ## Constants -/

def linkSessionTtl : Nat := 600 * 1000

def webhookDeliveryTtl : Nat := 86400 * 1000

def webhookDeliveryMax : Nat := 200

def maxMemLinkSessions : Nat := 10000

def maxMemLinkLaunchBootstraps : Nat := 10000

def maxMemWebhookDeliveries : Nat := 5000

/-! ## Link sessions -/

/-- The keys of a dictionary other than `created_at`, with their values. -/
abbrev Fields := String → Option Json

/-- A dictionary that a caller passes, with its `created_at`, where it has one. -/
structure SessionData where
  createdAt : Option Nat
  fields : Fields

structure Session where
  createdAt : Nat
  fields : Fields

/-- `dict.update`. -/
def Fields.update (fields new : Fields) : Fields := fun key => (new key).orElse fun _ => fields key

/-- Assign one key. -/
def Fields.assign (fields : Fields) (key : String) (value : Json) : Fields :=
  Function.update fields key (some value)

@[simp] theorem Fields.assign_self (fields : Fields) (key : String) (value : Json) :
    fields.assign key value key = some value :=
  Function.update_self ..

theorem Fields.assign_of_ne (fields : Fields) {key field : String} (h : field ≠ key)
    (value : Json) : fields.assign key value field = fields field :=
  Function.update_of_ne h ..

/-- `{k: v for k, v in fields.items() if k != "subscribers"}`. -/
def Fields.serializable (fields : Fields) : Fields :=
  fun key => if key = "subscribers" then none else fields key

theorem Fields.serializable_of_ne (fields : Fields) {field : String} (h : field ≠ "subscribers") :
    fields.serializable field = fields field :=
  if_neg h

/-- `session.update(updates)`. -/
def Session.update (session : Session) (updates : SessionData) : Session where
  createdAt := updates.createdAt.getD session.createdAt
  fields := session.fields.update updates.fields

/-- `session.setdefault("events", []).append(event)`; `none` where what stands
there has no `append`. -/
def Session.appendEvent (session : Session) (event : Json) : Option Session :=
  match session.fields "events" with
  | none => some { session with fields := session.fields.assign "events" (.arr [event]) }
  | some (.arr events) =>
      some { session with fields := session.fields.assign "events" (.arr (events ++ [event])) }
  | some _ => none

/-- The session is older than `LINK_SESSION_TTL`. -/
def Session.expired (now : Nat) (session : Session) : Bool :=
  decide (session.createdAt + linkSessionTtl < now)

/-- What `get_link_session` does to an old session. -/
def Session.overlay (now : Nat) (session : Session) : Session :=
  if session.expired now then
    { session with fields := session.fields.assign "status" (.str "expired") }
  else session

/-! ## Launch bootstraps -/

/-- The value of a launch bootstrap. -/
inductive Bootstrap where
  | issued
  | consumed
deriving Repr, DecidableEq

/-! ## Entries of the in-memory dictionaries -/

structure SessionEntry where
  linkToken : String
  session : Session

structure BootstrapEntry where
  launchId : String
  status : Bootstrap
  createdAt : Nat
  /-- In seconds. -/
  expiresIn : Nat
deriving Repr, DecidableEq

structure DeliveryLog where
  webhookId : String
  deliveries : List Json

/-- The log keeps the last `WEBHOOK_DELIVERY_MAX` deliveries. -/
def addDelivery (deliveries : List Json) (delivery : Json) : List Json :=
  let added := deliveries ++ [delivery]
  added.drop (added.length - webhookDeliveryMax)

/-- Drop the entries that were inserted first, down to `max`. -/
def evictFirst {α : Type} {κ : Type} {key : α → κ} (max : Nat) (t : Table α key) : Table α key :=
  if t.rows.length > max then t.drop (t.rows.length - max) else t

/-- Drop the entries that were created first, down to `max`. -/
def evictOldest {α : Type} {key : α → String} (createdAt : α → Nat) (max : Nat)
    (t : Table α key) : Table α key :=
  if t.rows.length > max then
    let sortedKeys := (t.rows.mergeSort fun a b => decide (createdAt a ≤ createdAt b)).map key
    t.delete fun a => (sortedKeys.take (t.rows.length - max)).contains (key a)
  else t

end Plaidify.SessionStore
