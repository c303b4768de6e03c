import Plaidify.Links.Endpoints
import Plaidify.Mfa.Manager

/-!
# Hosted link sessions

One link session of `src/src/session_store.py` with its two backends, and what
the page may post to it (`post_link_session_event` of
`src/src/routers/link_sessions.py`).

Under Redis every read is a copy. The in-memory dictionary hands out the session
itself, so that a request which was suspended goes by what others wrote in the
meantime, and the overlay `"expired"` is written into the session.

Times are in milliseconds.
-/

namespace Plaidify.HostedLink

open AccessJobs (Dict Job)
open Links (Backend)
open Mfa (MfaSession)

/-! ## Events -/

/-- The values of a link session's `status`. -/
inductive LinkStatus where
  | awaitingInstitution
  | awaitingCredentials
  | connecting
  | verifyingMfa
  | mfaRequired
  | completed
  | error
  | exited
  | expired
deriving Repr, DecidableEq

/-- What `_build_link_session_event` makes. The name is whatever was posted. -/
structure Event where
  name : Json
  timestamp : Nat
  data : Dict

/-- A call of `fire_webhooks_for_session`, with the keys that depend on it. -/
structure Webhook where
  event : String
  data : Dict
  publicToken : Option String

/-- `_HOSTED_EVENT_FORBIDDEN_KEYS`. -/
def hostedEventForbiddenKeys : List String :=
  ["access_token", "accessToken", "password", "password_encrypted", "username_encrypted",
    "private_key", "secret", "result", "data"]

mutual

/-- `_sanitize_hosted_event_data`. -/
def sanitizeHostedEventData : Json → Json
  | .obj data => .obj (sanitizeMembers data)
  | .arr data => .arr (sanitizeItems data)
  | data => data

/-- The items of a list. -/
def sanitizeItems : List Json → List Json
  | [] => []
  | item :: data => sanitizeHostedEventData item :: sanitizeItems data

/-- The members of a dictionary whose keys are not forbidden. -/
def sanitizeMembers : Dict → Dict
  | [] => []
  | (key, value) :: data =>
      if hostedEventForbiddenKeys.contains key then sanitizeMembers data
      else (key, sanitizeHostedEventData value) :: sanitizeMembers data

end

/-- `webhook_event_map`. -/
def webhookEvent : Json → Option String
  | .str "OPEN" => some "LINK_OPEN"
  | .str "CONNECTED" => some "LINK_COMPLETE"
  | .str "ERROR" => some "LINK_ERROR"
  | .str "EXIT" => some "LINK_EXIT"
  | .str "MFA_REQUIRED" => some "MFA_REQUIRED"
  | _ => none

/-- A string or `None` as a JSON value. -/
def optStr : Option String → Json
  | none => .null
  | some s => .str s

/-! ## The rows and the requests around a session -/

/-- The value of a link session, as far as the modelled functions use it. -/
structure LinkSession where
  createdAt : Nat
  status : LinkStatus
  currentJobId : Option String
  errorMessage : Json
  site : Json
  userId : Option Nat
  events : List Event
  accessToken : Option String
  message : Json
  metadata : Option Dict
  mfaType : Json
  publicToken : Option String
  result : Option Dict
  sessionId : Option String

/-- A row of `access_tokens`, with the credentials its two encrypted columns
decrypt to. -/
structure AccessToken where
  token : String
  userId : Nat
  username : String
  password : String
  updatedAt : Nat

/-- A row of `public_tokens`. -/
structure PublicToken where
  token : String
  accessToken : String
  userId : Nat
  exchanged : Bool
  expiresAt : Nat
  createdAt : Nat

/-- The body of `POST /connect`, with the credentials resolved. -/
structure ConnectRequest where
  site : String
  username : String
  password : String
  extractFields : Option (List String) := none
deriving DecidableEq

/-- `reconcile_link_session` where it waits for the MFA manager: the session and
the row of the job that it has read. -/
structure Reconcile where
  session : LinkSession
  job : Job

/-- Where a `POST /connect` with a link token is. -/
inductive Connect where
  /-- The rows of the link are written. `hosted` is the access token of a hosted
  session, if the session was found. -/
  | ensured (request : ConnectRequest) (hosted : Option (Option String)) (userId : Option Nat)
  /-- It waits for the job, whose row its database session holds. -/
  | waiting (request : ConnectRequest) (hosted : Option (Option String)) (job : Job)
  | reconciling (reconcile : Reconcile)

/-- One link token with everything that is kept under it. -/
structure State where
  backend : Backend
  linkToken : String
  now : Nat
  session : LinkSession
  /-- Whether the session store has the session. -/
  stored : Bool
  webhooks : List Webhook
  /-- `Link.site`, if there is a row. -/
  link : Option String
  accessTokens : Table AccessToken AccessToken.token
  publicTokens : Table PublicToken PublicToken.token
  jobs : Table Job Job.id
  /-- `executor_kwargs` of the jobs. -/
  executorKwargs : String → Option ConnectRequest
  /-- The MFA sessions that are registered. -/
  mfa : String → Option MfaSession
  polls : Nat → Option Reconcile
  /-- Events that are being posted, with the session as it was read for them. -/
  posts : Nat → Option LinkSession
  connects : Nat → Option Connect
  /-- History variable: the request that wrote the rows of the link last. -/
  lastRequest : Option ConnectRequest

/-! ## The session store -/

/-- `LINK_SESSION_TTL`. -/
def linkSessionTtl : Nat := 600 * 1000

/-- The session that `get_link_session` returns where one is stored. -/
def LinkSession.seen (session : LinkSession) (now : Nat) : LinkSession :=
  if session.createdAt + linkSessionTtl < now then { session with status := .expired } else session

namespace State

/-- `get_link_session`. -/
def getLinkSession (s : State) : Option LinkSession :=
  if s.stored then some (s.session.seen s.now) else none

/-- What `get_link_session` leaves behind. -/
def touch (s : State) : State :=
  if s.backend = .memory ∧ s.stored then { s with session := s.session.seen s.now } else s

/-- The session that a request reads from after it was suspended. -/
def held (s : State) (read : LinkSession) : LinkSession :=
  match s.backend with
  | .redis => read
  | .memory => s.session

/-- `update_link_session`, and `append_link_session_event`. -/
def update (s : State) (updates : LinkSession → LinkSession) : State :=
  if s.stored then { s with session := updates s.session } else s

/-- `fire_webhooks_for_session`. -/
def fireWebhooks (s : State) (event : String) (data : Dict) : State :=
  let publicToken := if event = "LINK_COMPLETE" then s.getLinkSession.bind (·.publicToken) else none
  { s.touch with webhooks := s.webhooks ++ [{ event, data, publicToken }] }

/-- `_push_link_session_event`. -/
def push (s : State) (name : Json) (data : Dict) (updates : LinkSession → LinkSession) : State :=
  let event := { name, timestamp := s.now, data := sanitizeMembers data }
  let s := s.update fun session => updates { session with events := session.events ++ [event] }
  match webhookEvent name with
  | none => s
  | some webhook => s.fireWebhooks webhook data

def setPoll (s : State) (i : Nat) (poll : Option Reconcile) : State :=
  { s with polls := fun k => if k = i then poll else s.polls k }

def setPost (s : State) (i : Nat) (post : Option LinkSession) : State :=
  { s with posts := fun k => if k = i then post else s.posts k }

def setConnect (s : State) (i : Nat) (connect : Option Connect) : State :=
  { s with connects := fun k => if k = i then connect else s.connects k }

/-! ### What the store functions change -/

/-- A read leaves all but the session, and of that all but the status. -/
theorem touch_eq (s : State) : ∃ session, s.touch = { s with session := session } ∧
    (session = s.session ∨ session = { s.session with status := .expired }) := by
  unfold touch
  split
  · refine ⟨s.session.seen s.now, rfl, ?_⟩
    unfold LinkSession.seen
    split
    · exact .inr rfl
    · exact .inl rfl
  · exact ⟨s.session, rfl, .inl rfl⟩

/-- Nothing but the session and the record of the webhooks differs. -/
def SessionOnly (s t : State) : Prop :=
  ∃ session webhooks, t = { s with session := session, webhooks := webhooks }

theorem SessionOnly.refl (s : State) : SessionOnly s s :=
  ⟨s.session, s.webhooks, rfl⟩

theorem SessionOnly.trans {s t u : State} (h₁ : SessionOnly s t) (h₂ : SessionOnly t u) :
    SessionOnly s u := by
  obtain ⟨_, _, rfl⟩ := h₁
  obtain ⟨session, webhooks, rfl⟩ := h₂
  exact ⟨session, webhooks, rfl⟩

theorem touch_sessionOnly (s : State) : SessionOnly s s.touch := by
  obtain ⟨session, heq, -⟩ := s.touch_eq
  exact ⟨session, s.webhooks, heq⟩

theorem update_sessionOnly (s : State) (updates : LinkSession → LinkSession) :
    SessionOnly s (s.update updates) := by
  unfold update
  split
  · exact ⟨updates s.session, s.webhooks, rfl⟩
  · exact .refl s

theorem fireWebhooks_sessionOnly (s : State) (event : String) (data : Dict) :
    SessionOnly s (s.fireWebhooks event data) := by
  obtain ⟨session, heq, -⟩ := s.touch_eq
  unfold fireWebhooks
  rw [heq]
  exact ⟨session, _, rfl⟩

theorem update_of_stored {s : State} (h : s.stored = true) (updates : LinkSession → LinkSession) :
    s.update updates = { s with session := updates s.session } :=
  if_pos h

theorem update_of_not_stored {s : State} (h : s.stored = false)
    (updates : LinkSession → LinkSession) : s.update updates = s :=
  if_neg (by simp [h])

theorem touch_of_not_stored {s : State} (h : s.stored = false) : s.touch = s :=
  if_neg (by simp [h])

/-- The session after a push, up to the overlay of its expiry. -/
theorem push_session {s : State} (h : s.stored = true) (name : Json) (data : Dict)
    (updates : LinkSession → LinkSession) :
    let event := { name, timestamp := s.now, data := sanitizeMembers data }
    let session := updates { s.session with events := s.session.events ++ [event] }
    (s.push name data updates).session = session ∨
      (s.push name data updates).session = { session with status := .expired } := by
  unfold push
  simp only [update_of_stored h]
  cases webhookEvent name with
  | none => exact .inl rfl
  | some webhook =>
      show (touch _).session = _ ∨ (touch _).session = _
      obtain ⟨session, heq, rfl | rfl⟩ := touch_eq { s with session := updates { s.session with
        events := s.session.events ++ [⟨name, s.now, sanitizeMembers data⟩] } }
      · rw [heq]
        exact .inl rfl
      · rw [heq]
        exact .inr rfl

/-- The life time of the session has not run out. -/
def Young (s : State) : Prop :=
  s.now ≤ s.session.createdAt + linkSessionTtl

instance (s : State) : Decidable s.Young :=
  inferInstanceAs (Decidable (_ ≤ _))

theorem seen_of_young {s : State} (h : s.Young) : s.session.seen s.now = s.session :=
  if_neg (Nat.not_lt.mpr h)

theorem touch_of_young {s : State} (h : s.Young) : s.touch = s := by
  unfold touch
  rw [seen_of_young h]
  split
  · rfl
  · rfl

/-- The session after a push, while it is young. -/
theorem push_session_of_young {s : State} (h : s.stored = true) (hyoung : s.Young) {name : Json}
    {data : Dict} {updates : LinkSession → LinkSession}
    (hcreated : ∀ x, (updates x).createdAt = x.createdAt) :
    (s.push name data updates).session = updates { s.session with
      events := s.session.events ++ [⟨name, s.now, sanitizeMembers data⟩] } := by
  unfold push
  simp only [update_of_stored h]
  cases webhookEvent name with
  | none => rfl
  | some webhook =>
      show (touch _).session = _
      rw [touch_of_young]
      show s.now ≤ (updates _).createdAt + linkSessionTtl
      rw [hcreated]
      exact hyoung

theorem push_of_not_stored {s : State} (h : s.stored = false) (name : Json) (data : Dict)
    (updates : LinkSession → LinkSession) : (s.push name data updates).session = s.session := by
  unfold push
  simp only [update_of_not_stored h]
  cases webhookEvent name with
  | none => rfl
  | some webhook =>
      show s.touch.session = s.session
      rw [touch_of_not_stored h]

theorem touch_events (s : State) : s.touch.session.events = s.session.events := by
  obtain ⟨session, heq, rfl | rfl⟩ := s.touch_eq
  · rw [heq]
  · rw [heq]

theorem update_events {s : State} {updates : LinkSession → LinkSession}
    (hevents : ∀ x, (updates x).events = x.events) :
    (s.update updates).session.events = s.session.events := by
  unfold update
  split
  · exact hevents s.session
  · rfl

/-- A push appends its event where the session is stored. -/
theorem push_events {s : State} {name : Json} {data : Dict} {updates : LinkSession → LinkSession}
    (hevents : ∀ x, (updates x).events = x.events) :
    (s.push name data updates).session.events =
      if s.stored then
        s.session.events ++ [{ name, timestamp := s.now, data := sanitizeMembers data }]
      else s.session.events := by
  cases hstored : s.stored with
  | false =>
      rw [push_of_not_stored hstored]
      rfl
  | true =>
      rcases push_session hstored name data updates with h | h
      · rw [h]
        exact hevents _
      · rw [h]
        exact hevents _

theorem push_sessionOnly (s : State) (name : Json) (data : Dict)
    (updates : LinkSession → LinkSession) : SessionOnly s (s.push name data updates) := by
  unfold push
  cases webhookEvent name with
  | none => exact update_sessionOnly s _
  | some webhook => exact (update_sessionOnly s _).trans (fireWebhooks_sessionOnly _ webhook data)

end State

/-! ## Events of the page -/

/-- The status that a posted event asks for. -/
def eventStatus (session : LinkSession) : String → Option LinkStatus
  | "INSTITUTION_SELECTED" => some .awaitingCredentials
  | "CREDENTIALS_SUBMITTED" => some .connecting
  | "MFA_REQUIRED" => some .mfaRequired
  | "MFA_SUBMITTED" => some .verifyingMfa
  -- a page that unloads after the end leaves the end as it is
  | "EXIT" => if session.status ∈ [.completed, .error, .expired] then none else some .exited
  | "ERROR" => some .error
  | _ => none

/-- `event_name`. -/
def eventName (body : Dict) : Json :=
  (body.lookup "event").getD (.str "UNKNOWN")

/-- The status that the body of an event asks for. -/
def askedStatus (session : LinkSession) (body : Dict) : Option LinkStatus :=
  match eventName body with
  | .str name => eventStatus session name
  | _ => none

/-- The updates of a posted event. -/
def eventUpdates (session : LinkSession) (body : Dict) (name : String) (stored : LinkSession) :
    LinkSession :=
  { stored with
    status := (eventStatus session name).getD stored.status
    site :=
      if name = "INSTITUTION_SELECTED" then (body.lookup "site").getD session.site else stored.site
    errorMessage :=
      if name = "ERROR" then (body.lookup "error").getD .null else stored.errorMessage }

/-- `post_link_session_event` up to `await request.json()`. Without a session the
answer is 404 or 410. -/
def postEvent (s : State) (i : Nat) : State :=
  match s.getLinkSession with
  | none => s
  | some session =>
      if session.status = .expired then s.touch else s.touch.setPost i (some session)

/-- The rest of `post_link_session_event`. `CONNECTED` is for the server to say. -/
def postedEvent (s : State) (read : LinkSession) (body : Dict) : State :=
  let data := body.filter fun m => m.1 != "event"
  match eventName body with
  | .str "CONNECTED" => s
  | .str name => s.push (.str name) (sanitizeMembers data) (eventUpdates (s.held read) body name)
  | name => s.push name (sanitizeMembers data) id

end Plaidify.HostedLink
