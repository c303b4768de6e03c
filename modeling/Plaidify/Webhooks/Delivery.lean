import Plaidify.Envelope.Rotation
import Plaidify.Lib.Json
import Plaidify.Links.Minting

/-!
# Webhooks

Registration and delivery of webhooks: `src/src/routers/webhooks.py`, the call
of `fire_webhooks_for_session` in `_push_link_session_event`
(`src/src/routers/link_sessions.py`), and `_on_refresh_webhook` of
`src/src/routers/refresh.py`. The link sessions and access tokens come and go
by the endpoints of `Plaidify.Links`.

HMAC-SHA256 is a parameter; so is AES-GCM, in `Envelope.Cryptography`.
-/

namespace Plaidify.Webhooks

open Principals (HttpError PyText internalError)

structure Webhook where
  id : String
  linkToken : String
  url : String
  /-- As it is stored. -/
  secret : String
  userId : Nat
deriving Repr, DecidableEq

/-- What brought a delivery about. -/
inductive Cause where
  | test
  | session (linkToken : String)
  /-- A scheduled refresh of an access token of this user. -/
  | refresh (accessToken : String) (userId : Nat)
deriving Repr, DecidableEq

/-- A request to the URL of a webhook. -/
structure Attempt where
  webhookId : String
  /-- The user who registered the webhook. -/
  userId : Nat
  cause : Cause
  url : String
  headers : List (String × String)
  content : Bytes
deriving DecidableEq

/-- An entry of the delivery log. -/
structure Delivery where
  webhookId : String
  attempt : Nat
  statusCode : Option Nat
  success : Bool
deriving Repr, DecidableEq

abbrev Payload := List (String × Json)

/-! ## Delivery -/

/-- `resp.is_success`. -/
def isSuccess (statusCode : Nat) : Bool :=
  decide (200 ≤ statusCode ∧ statusCode < 300)

/-- The loop over the attempts, from the one given on with so many left; the
answer to each is a status code, or none where the client raises. -/
def attemptsFrom (webhookId : String) (answers : Nat → Option Nat) (attempt : Nat) :
    Nat → List Delivery
  | 0 => []
  | left + 1 =>
      let statusCode := answers attempt
      let success := statusCode.elim false isSuccess
      let delivery := { webhookId, attempt := attempt + 1, statusCode, success }
      if success then [delivery] else delivery :: attemptsFrom webhookId answers (attempt + 1) left

section

variable (hmacSha256 : (key message : Bytes) → String)

def signatureHeader (secret : String) (content : Bytes) : String :=
  "sha256=" ++ hmacSha256 (Bytes.utf8 secret) content

/-- The text of the event in a payload. -/
def payloadEvent (payload : Payload) : String :=
  match payload.lookup "event" with
  | some (.str event) => event
  | _ => "UNKNOWN"

/-- The request of `_deliver_webhook`. -/
def webhookRequest (wh : Webhook) (cause : Cause) (secret : String) (payload : Payload) : Attempt :=
  let content := Bytes.utf8 (Json.dumpsCompact (.obj payload))
  { webhookId := wh.id
    userId := wh.userId
    cause
    url := wh.url
    headers :=
      [("Content-Type", "application/json"),
        ("X-Plaidify-Signature", signatureHeader hmacSha256 secret content),
        ("X-Plaidify-Event", payloadEvent payload),
        ("User-Agent", "Plaidify-Webhook/1.0")]
    content }

def retries : Nat := 3

/-- `_deliver_webhook`: the requests it makes and what it logs. -/
def deliverWebhook (wh : Webhook) (cause : Cause) (secret : String) (payload : Payload)
    (answers : Nat → Option Nat) : List Attempt × List Delivery :=
  let log := attemptsFrom wh.id answers 0 retries
  (log.map fun _ => webhookRequest hmacSha256 wh cause secret payload, log)

end

/-! ## State -/

structure State where
  links : Links.State
  webhooks : Table Webhook Webhook.id
  attempts : List Attempt
  deliveries : List Delivery
  /-- History variable: every webhook that was registered, with the secret that
  its owner passed. -/
  secrets : List (String × String)

/-- Deliver a payload to some webhooks, with the secret that each is signed
with. -/
def deliver (hmacSha256 : (key message : Bytes) → String) (s : State) (cause : Cause)
    (webhooks : List Webhook) (secret : Webhook → String) (payload : Payload)
    (answers : String → Nat → Option Nat) : State :=
  let sent := webhooks.map fun wh =>
    deliverWebhook hmacSha256 wh cause (secret wh) payload (answers wh.id)
  { s with
    attempts := s.attempts ++ sent.flatMap (·.1)
    deliveries := s.deliveries ++ sent.flatMap (·.2) }

/-- The webhooks of a link token. -/
def ofLink (s : State) (linkToken : String) : List Webhook :=
  s.webhooks.rows.filter (·.linkToken == linkToken)

/-! ## Endpoints and callbacks -/

/-- The link session, as long as the session store has it. -/
def findSession (s : State) (linkToken : String) (sessionFound : Bool) :
    Option Links.LinkSession :=
  if sessionFound then s.links.sessions.find? fun session => session.linkToken == linkToken
  else none

/-- The data of a scheduled refresh: the extracted fields, or the failure. -/
inductive RefreshData where
  | fields (keys : List String)
  | failed (error : String) (consecutiveFailures : Nat)

section

variable (lib : Envelope.Cryptography) (settings : Envelope.Settings)
  (hmacSha256 : (key message : Bytes) → String)

/-- `register_webhook`; the id is a fresh `uuid4`. -/
def registerWebhook (s : State) (userId : Nat) (linkToken url webhookSecret webhookId : String)
    (nonce : Envelope.Urandom Envelope.gcmNonceBytes) (sessionFound : Bool) :
    Except HttpError State :=
  if linkToken = "" ∨ url = "" ∨ webhookSecret = "" then
    .error ⟨422, "link_token, url, and secret are required."⟩
  else if ¬url.startsWith "https://" ∧ ¬url.startsWith "http://localhost" then
    .error ⟨422, "Webhook URL must use HTTPS (http://localhost allowed for development)."⟩
  else
    match findSession s linkToken sessionFound with
    | none => .error ⟨404, "Link session not found."⟩
    -- whose session it is does not matter
    | some _ =>
        match Envelope.encryptWebhookSecret lib settings nonce webhookSecret with
        | none => .error internalError
        | some secret =>
            match s.webhooks.insert? { id := webhookId, linkToken, url, secret, userId } with
            | none => .error internalError
            | some webhooks =>
                .ok { s with webhooks, secrets := s.secrets ++ [(webhookId, webhookSecret)] }

/-- `delete_webhook`. -/
def deleteWebhook (s : State) (userId : Nat) (webhookId : String) : Except HttpError State :=
  match s.webhooks.rows.find? fun wh => wh.id == webhookId && wh.userId == userId with
  | none => .error ⟨404, "Webhook not found."⟩
  | some _ =>
      .ok { s with
        webhooks := s.webhooks.delete (·.id == webhookId)
        deliveries := s.deliveries.filter (·.webhookId != webhookId) }

/-- `test_webhook`. -/
def testWebhook (s : State) (userId : Nat) (webhookId timestamp : String)
    (answers : String → Nat → Option Nat) : Except HttpError State :=
  if webhookId = "" then .error ⟨404, "Webhook not found."⟩
  else
    match s.webhooks.rows.find? fun wh => wh.id == webhookId && wh.userId == userId with
    | none => .error ⟨404, "Webhook not found."⟩
    | some wh =>
        .ok (deliver hmacSha256 s .test [wh]
          (fun wh => Envelope.decryptWebhookSecret lib settings wh.secret)
          [("event", .str "TEST"), ("link_token", .str wh.linkToken), ("timestamp", .str timestamp),
            ("data", .obj [("message", .str "This is a test webhook event.")])] answers)

/-- `webhook_event_map`. -/
def webhookEvent : String → Option String
  | "OPEN" => some "LINK_OPEN"
  | "CONNECTED" => some "LINK_COMPLETE"
  | "ERROR" => some "LINK_ERROR"
  | "EXIT" => some "LINK_EXIT"
  | "MFA_REQUIRED" => some "MFA_REQUIRED"
  | _ => none

/-- The payload of a session event; the public token is that of the session in
the store, if there is one. -/
def sessionPayload (linkToken event timestamp : String) (data : Payload)
    (publicToken : Option String) : Payload :=
  [("event", .str event), ("link_token", .str linkToken), ("timestamp", .str timestamp),
    ("data", .obj data)] ++
      match publicToken.filter (· ≠ "") with
      | some publicToken =>
          if event = "LINK_COMPLETE" then [("public_token", .str publicToken)] else []
      | none => []

/-- `fire_webhooks_for_session`. -/
def fireWebhooksForSession (s : State) (linkToken event timestamp : String) (data : Payload)
    (publicToken : Option String) (answers : String → Nat → Option Nat) : State :=
  deliver hmacSha256 s (.session linkToken) (ofLink s linkToken)
    (fun wh => Envelope.decryptWebhookSecret lib settings wh.secret)
    (sessionPayload linkToken event timestamp data publicToken) answers

/-- The payload of `_on_refresh_webhook`. -/
def refreshPayload (accessToken timestamp : String) (data : RefreshData) : Payload :=
  [("event_version", .int 2),
    ("access_token_prefix", .str (String.ofList (accessToken.toList.take 12) ++ "...")),
    ("timestamp", .str timestamp)] ++
      match data with
      | .failed error consecutiveFailures =>
          [("event", .str "REFRESH_FAILED"), ("success", .bool false), ("error", .str error),
            ("consecutive_failures", .int consecutiveFailures)]
      | .fields keys =>
          [("event", .str "DATA_REFRESHED"), ("success", .bool true),
            ("fields_updated", .arr (keys.map .str))]

/-- `_on_refresh_webhook`. The secret goes to `_deliver_webhook` as it is
stored. -/
def onRefreshWebhook (s : State) (accessToken : String) (userId : Nat) (timestamp : String)
    (data : RefreshData) (answers : String → Nat → Option Nat) : State :=
  match s.links.accessTokens.rows.find? fun t => t.token == accessToken && t.userId == userId with
  | none => s
  | some token =>
      deliver hmacSha256 s (.refresh accessToken userId) (ofLink s token.linkToken) (·.secret)
        (refreshPayload accessToken timestamp data) answers

end

/-! ## Steps -/

inductive Label where
  /-- An endpoint that creates, uses or deletes links, sessions and tokens. -/
  | link (l : Links.Label)
  | registerWebhook (userId : Nat) (linkToken url webhookSecret webhookId : String)
      (nonce : Envelope.Urandom Envelope.gcmNonceBytes) (sessionFound : Bool)
  | deleteWebhook (userId : Nat) (webhookId : String)
  | testWebhook (userId : Nat) (webhookId timestamp : String)
      (answers : String → Nat → Option Nat)
  /-- `_push_link_session_event`, where the event has a webhook. -/
  | pushLinkSessionEvent (linkToken eventName timestamp : String) (data : Payload)
      (publicToken : Option String) (answers : String → Nat → Option Nat)
  | onRefreshWebhook (accessToken : String) (userId : Nat) (timestamp : String)
      (data : RefreshData) (answers : String → Nat → Option Nat)

section

variable (py : PyText) (lib : Envelope.Cryptography) (settings : Envelope.Settings)
  (hmacSha256 : (key message : Bytes) → String)

def step (s : State) : Label → Option State
  | .link l => (Links.step py s.links l).map fun links => { s with links }
  | .registerWebhook userId linkToken url webhookSecret webhookId nonce sessionFound =>
      -- the id of a webhook is never used again
      if webhookId ∈ s.secrets.map Prod.fst then none
      else (registerWebhook lib settings s userId linkToken url webhookSecret webhookId nonce
        sessionFound).toOption
  | .deleteWebhook userId webhookId => (deleteWebhook s userId webhookId).toOption
  | .testWebhook userId webhookId timestamp answers =>
      (testWebhook lib settings hmacSha256 s userId webhookId timestamp answers).toOption
  | .pushLinkSessionEvent linkToken eventName timestamp data publicToken answers =>
      (webhookEvent eventName).map fun event =>
        fireWebhooksForSession lib settings hmacSha256 s linkToken event timestamp data publicToken
          answers
  | .onRefreshWebhook accessToken userId timestamp data answers =>
      some (onRefreshWebhook hmacSha256 s accessToken userId timestamp data answers)

def start (backend : Links.Backend) : State where
  links := Links.start backend
  webhooks := Table.empty
  attempts := []
  deliveries := []
  secrets := []

end

/-! ## The property and the condition -/

section

variable (lib : Envelope.Cryptography) (settings : Envelope.Settings)
  (hmacSha256 : (key message : Bytes) → String)

/-- Every request carries the HMAC of its content under the secret that the
owner of the webhook passed. -/
def Verifiable (s : State) : Prop :=
  ∀ a ∈ s.attempts, ∀ secret, (a.webhookId, secret) ∈ s.secrets →
    a.headers.lookup "X-Plaidify-Signature" = some (signatureHeader hmacSha256 secret a.content)

/-- The text that is stored for the secret signs the payload as the secret does. -/
def SignsAlike (wh : Webhook) (payload : Payload) : Prop :=
  let content := Bytes.utf8 (Json.dumpsCompact (.obj payload))
  hmacSha256 (Bytes.utf8 wh.secret) content =
    hmacSha256 (Bytes.utf8 (Envelope.decryptWebhookSecret lib settings wh.secret)) content

/-- The condition on a step: a callback of a refresh finds no webhook, but one
for which it makes no difference that the secret is not decrypted. -/
def SparesRefresh (s : State) : Label → Prop
  | .onRefreshWebhook accessToken userId timestamp data _ =>
      ∀ token ∈ s.links.accessTokens.rows.find? fun t => t.token == accessToken && t.userId == userId,
        ∀ wh ∈ ofLink s token.linkToken,
          SignsAlike lib settings hmacSha256 wh (refreshPayload accessToken timestamp data)
  | _ => True

/-- The encryption of the secret in a registration, undone. -/
def RoundTrips : Label → Prop
  | .registerWebhook _ _ _ webhookSecret _ nonce _ =>
      ∀ stored ∈ Envelope.encryptWebhookSecret lib settings nonce webhookSecret,
        Envelope.decryptWebhookSecret lib settings stored = webhookSecret
  | _ => True

end

/-! ## What a delivery sends -/

variable {py : PyText} {lib : Envelope.Cryptography} {settings : Envelope.Settings}
  {hmacSha256 : (key message : Bytes) → String}

theorem attemptsFrom_ne_nil (webhookId : String) (answers : Nat → Option Nat) (attempt left : Nat) :
    attemptsFrom webhookId answers attempt (left + 1) ≠ [] := by
  unfold attemptsFrom
  dsimp only
  split
  · exact List.cons_ne_nil _ _
  · exact List.cons_ne_nil _ _

/-- All requests of a delivery are the same, and there is at least one. -/
theorem mem_deliverWebhook {wh : Webhook} {cause : Cause} {secret : String} {payload : Payload}
    {answers : Nat → Option Nat} {a : Attempt} :
    a ∈ (deliverWebhook hmacSha256 wh cause secret payload answers).1 ↔
      a = webhookRequest hmacSha256 wh cause secret payload := by
  have hne := attemptsFrom_ne_nil wh.id answers 0 2
  unfold deliverWebhook
  rw [List.mem_map]
  constructor
  · rintro ⟨d, -, rfl⟩
    rfl
  · rintro rfl
    rcases List.exists_mem_of_ne_nil _ hne with ⟨d, hd⟩
    exact ⟨d, hd, rfl⟩

theorem mem_deliver {s : State} {cause : Cause} {webhooks : List Webhook}
    {secret : Webhook → String} {payload : Payload} {answers : String → Nat → Option Nat}
    {a : Attempt} :
    a ∈ (deliver hmacSha256 s cause webhooks secret payload answers).attempts ↔
      a ∈ s.attempts ∨ ∃ wh ∈ webhooks, a = webhookRequest hmacSha256 wh cause (secret wh) payload := by
  unfold deliver
  simp only [List.mem_append, List.mem_flatMap, List.mem_map]
  constructor
  · rintro (hold | ⟨_, ⟨wh, hwh, rfl⟩, ha⟩)
    · exact .inl hold
    · exact .inr ⟨wh, hwh, mem_deliverWebhook.mp ha⟩
  · rintro (hold | ⟨wh, hwh, ha⟩)
    · exact .inl hold
    · exact .inr ⟨_, ⟨wh, hwh, rfl⟩, mem_deliverWebhook.mpr ha⟩

theorem webhookRequest_signature (wh : Webhook) (cause : Cause) (secret : String)
    (payload : Payload) :
    (webhookRequest hmacSha256 wh cause secret payload).headers.lookup "X-Plaidify-Signature" =
      some (signatureHeader hmacSha256 secret
        (webhookRequest hmacSha256 wh cause secret payload).content) := rfl

theorem webhookRequest_content (wh : Webhook) (cause : Cause) (secret : String)
    (payload : Payload) :
    (webhookRequest hmacSha256 wh cause secret payload).content =
      Bytes.utf8 (Json.dumpsCompact (.obj payload)) := rfl

/-! ## The invariant -/

/-- The stored secrets decrypt to those that were passed, and nothing was sent
to a webhook that was not registered. -/
structure Inv (lib : Envelope.Cryptography) (settings : Envelope.Settings) (s : State) : Prop where
  secrets : (s.secrets.map Prod.fst).Nodup
  stored : ∀ wh ∈ s.webhooks.rows,
    (wh.id, Envelope.decryptWebhookSecret lib settings wh.secret) ∈ s.secrets
  attempts : ∀ a ∈ s.attempts, a.webhookId ∈ s.secrets.map Prod.fst

theorem init_inv (backend : Links.Backend) : Inv lib settings (start backend) := by
  constructor
  · exact List.nodup_nil
  · intro wh hwh
    cases hwh
  · intro a ha
    cases ha

/-- The secret of a webhook is the one that it decrypts to. -/
theorem Inv.secret_eq {s : State} (hs : Inv lib settings s) {wh : Webhook}
    (hwh : wh ∈ s.webhooks.rows) {secret : String} (hmem : (wh.id, secret) ∈ s.secrets) :
    secret = Envelope.decryptWebhookSecret lib settings wh.secret := by
  have hsame : (wh.id, secret) = (wh.id, Envelope.decryptWebhookSecret lib settings wh.secret) :=
    List.inj_on_of_nodup_map hs.secrets hmem (hs.stored wh hwh) rfl
  exact congrArg Prod.snd hsame

theorem inv_deliver {s : State} (hs : Inv lib settings s) {cause : Cause}
    {webhooks : List Webhook} (hwebhooks : ∀ wh ∈ webhooks, wh ∈ s.webhooks.rows)
    (secret : Webhook → String) (payload : Payload) (answers : String → Nat → Option Nat) :
    Inv lib settings (deliver hmacSha256 s cause webhooks secret payload answers) := by
  refine ⟨hs.secrets, hs.stored, ?_⟩
  intro a ha
  rcases mem_deliver.mp ha with hold | ⟨wh, hwh, rfl⟩
  · exact hs.attempts a hold
  · exact List.mem_map.mpr ⟨_, hs.stored wh (hwebhooks wh hwh), rfl⟩

/-- What a delivery adds can be verified where the keys it was signed with are
as good as the secrets. -/
theorem verifiable_deliver_iff {s : State} (hs : Inv lib settings s)
    (hver : Verifiable hmacSha256 s) {cause : Cause} {webhooks : List Webhook}
    (hwebhooks : ∀ wh ∈ webhooks, wh ∈ s.webhooks.rows) (secret : Webhook → String)
    (payload : Payload) (answers : String → Nat → Option Nat) :
    Verifiable hmacSha256 (deliver hmacSha256 s cause webhooks secret payload answers) ↔
      ∀ wh ∈ webhooks,
        hmacSha256 (Bytes.utf8 (secret wh)) (Bytes.utf8 (Json.dumpsCompact (.obj payload))) =
          hmacSha256 (Bytes.utf8 (Envelope.decryptWebhookSecret lib settings wh.secret))
            (Bytes.utf8 (Json.dumpsCompact (.obj payload))) := by
  constructor
  · intro h wh hwh
    have hheader := h _ (mem_deliver.mpr (.inr ⟨wh, hwh, rfl⟩)) _ (hs.stored wh (hwebhooks wh hwh))
    rw [webhookRequest_signature] at hheader
    have htext := Option.some.inj hheader
    unfold signatureHeader at htext
    exact (String.append_right_inj "sha256=").mp htext
  · intro h a ha wanted hmem
    rcases mem_deliver.mp ha with hold | ⟨wh, hwh, rfl⟩
    · exact hver a hold wanted hmem
    · have hwanted := hs.secret_eq (hwebhooks wh hwh) hmem
      rw [webhookRequest_signature, webhookRequest_content, hwanted]
      unfold signatureHeader
      rw [h wh hwh]

theorem mem_ofLink {s : State} {linkToken : String} {wh : Webhook} :
    wh ∈ ofLink s linkToken ↔ wh ∈ s.webhooks.rows ∧ wh.linkToken = linkToken := by
  simp [ofLink]

/-! ## What one step does -/

/-- The endpoints and callbacks: what a step leaves of the webhooks, and what it
sends. -/
theorem step_cases {s t : State} {l : Label}
    (h : step py lib settings hmacSha256 s l = some t) :
    (∃ l' links, l = .link l' ∧ Links.step py s.links l' = some links ∧ t = { s with links }) ∨
      (∃ userId linkToken url webhookSecret webhookId nonce sessionFound,
        l = .registerWebhook userId linkToken url webhookSecret webhookId nonce sessionFound ∧
        webhookId ∉ s.secrets.map Prod.fst ∧
        registerWebhook lib settings s userId linkToken url webhookSecret webhookId nonce
          sessionFound = .ok t) ∨
      (∃ userId webhookId deliveries, l = .deleteWebhook userId webhookId ∧
        t = { s with webhooks := s.webhooks.delete (·.id == webhookId), deliveries := deliveries }) ∨
      (∃ userId webhookId timestamp answers wh payload,
        l = .testWebhook userId webhookId timestamp answers ∧ wh ∈ s.webhooks.rows ∧
        t = deliver hmacSha256 s .test [wh]
          (fun wh => Envelope.decryptWebhookSecret lib settings wh.secret) payload answers) ∨
      (∃ linkToken eventName timestamp data publicToken answers payload,
        l = .pushLinkSessionEvent linkToken eventName timestamp data publicToken answers ∧
        t = deliver hmacSha256 s (.session linkToken) (ofLink s linkToken)
          (fun wh => Envelope.decryptWebhookSecret lib settings wh.secret) payload answers) ∨
      ∃ accessToken userId timestamp data answers,
        l = .onRefreshWebhook accessToken userId timestamp data answers ∧
        t = onRefreshWebhook hmacSha256 s accessToken userId timestamp data answers := by
  cases l with
  | link l' =>
      rcases Option.map_eq_some_iff.mp h with ⟨links, hlinks, rfl⟩
      exact .inl ⟨l', links, rfl, hlinks, rfl⟩
  | registerWebhook userId linkToken url webhookSecret webhookId nonce sessionFound =>
      refine .inr (.inl ⟨userId, linkToken, url, webhookSecret, webhookId, nonce, sessionFound,
        rfl, ?_⟩)
      simp only [step] at h
      -- the id of a new webhook is a new one
      split at h
      · cases h
      · rename_i hnew
        refine ⟨hnew, ?_⟩
        cases hres : registerWebhook lib settings s userId linkToken url webhookSecret webhookId nonce
            sessionFound with
        -- a request that is refused leaves no step
        | error e =>
            rw [hres] at h
            cases h
        | ok t' =>
            rw [hres] at h
            rw [Option.some.inj h]
  | deleteWebhook userId webhookId =>
      simp only [step, deleteWebhook] at h
      split at h
      · -- a webhook of somebody else is not found
        cases h
      · exact .inr (.inr (.inl ⟨userId, webhookId, _, rfl, (Option.some.inj h).symm⟩))
  | testWebhook userId webhookId timestamp answers =>
      simp only [step, testWebhook] at h
      split at h
      · cases h
      · split at h
        · -- neither is one to be tested
          cases h
        · rename_i wh hwh
          exact .inr (.inr (.inr (.inl ⟨userId, webhookId, timestamp, answers, wh, _, rfl,
            List.mem_of_find?_eq_some hwh, (Option.some.inj h).symm⟩)))
  | pushLinkSessionEvent linkToken eventName timestamp data publicToken answers =>
      rcases Option.map_eq_some_iff.mp h with ⟨event, -, rfl⟩
      exact .inr (.inr (.inr (.inr (.inl
        ⟨linkToken, eventName, timestamp, data, publicToken, answers, _, rfl, rfl⟩))))
  | onRefreshWebhook accessToken userId timestamp data answers =>
      exact .inr (.inr (.inr (.inr (.inr
        ⟨accessToken, userId, timestamp, data, answers, rfl, (Option.some.inj h).symm⟩))))

/-- A registration adds one webhook, for a session that the store has. -/
theorem registerWebhook_ok {s t : State} {userId : Nat}
    {linkToken url webhookSecret webhookId : String}
    {nonce : Envelope.Urandom Envelope.gcmNonceBytes} {sessionFound : Bool}
    (h : registerWebhook lib settings s userId linkToken url webhookSecret webhookId nonce
      sessionFound = .ok t) :
    ∃ session secret webhooks, findSession s linkToken sessionFound = some session ∧
      Envelope.encryptWebhookSecret lib settings nonce webhookSecret = some secret ∧
      webhooks.rows = s.webhooks.rows ++ [{ id := webhookId, linkToken, url, secret, userId }] ∧
      t = { s with webhooks, secrets := s.secrets ++ [(webhookId, webhookSecret)] } := by
  unfold registerWebhook at h
  split at h
  · cases h
  · split at h
    · cases h
    · split at h
      · cases h
      · rename_i session hsession
        split at h
        · cases h
        · rename_i secret hsecret
          split at h
          · cases h
          · rename_i webhooks hinsert
            exact ⟨session, secret, webhooks, hsession, hsecret, (Table.insert?_eq_some hinsert).2,
              (Except.ok.inj h).symm⟩

theorem onRefreshWebhook_cases (hmacSha256 : (key message : Bytes) → String) (s : State)
    (accessToken : String) (userId : Nat) (timestamp : String) (data : RefreshData)
    (answers : String → Nat → Option Nat) :
    let found := s.links.accessTokens.rows.find? fun t => t.token == accessToken && t.userId == userId
    found = none ∧ onRefreshWebhook hmacSha256 s accessToken userId timestamp data answers = s ∨
      ∃ token, found = some token ∧
        onRefreshWebhook hmacSha256 s accessToken userId timestamp data answers =
          deliver hmacSha256 s (.refresh accessToken userId) (ofLink s token.linkToken) (·.secret)
            (refreshPayload accessToken timestamp data) answers := by
  unfold onRefreshWebhook
  dsimp only
  split
  · rename_i hnone
    exact .inl ⟨hnone, rfl⟩
  · rename_i token hsome
    exact .inr ⟨token, hsome, rfl⟩

theorem step_inv {s t : State} {l : Label} (hs : Inv lib settings s)
    (hround : RoundTrips lib settings l) (h : step py lib settings hmacSha256 s l = some t) :
    Inv lib settings t := by
  rcases step_cases h with ⟨l', links, rfl, -, rfl⟩ |
    ⟨userId, linkToken, url, webhookSecret, webhookId, nonce, sessionFound, rfl, hnew, hok⟩ |
    ⟨userId, webhookId, deliveries, rfl, rfl⟩ |
    ⟨userId, webhookId, timestamp, answers, wh, payload, rfl, hwh, rfl⟩ |
    ⟨linkToken, eventName, timestamp, data, publicToken, answers, payload, rfl, rfl⟩ |
    ⟨accessToken, userId, timestamp, data, answers, rfl, rfl⟩
  · exact ⟨hs.secrets, hs.stored, hs.attempts⟩
  · rcases registerWebhook_ok hok with ⟨session, secret, webhooks, -, hsecret, hrows, rfl⟩
    constructor
    · rw [List.map_append, List.nodup_append]
      refine ⟨hs.secrets, List.nodup_singleton _, ?_⟩
      intro a ha b hb heq
      rw [heq, List.mem_singleton.mp hb] at ha
      exact hnew ha
    · intro wh hwh
      rw [hrows] at hwh
      rcases List.mem_append.mp hwh with hold | hlast
      · exact List.mem_append_left _ (hs.stored wh hold)
      · rw [List.mem_singleton.mp hlast, hround secret hsecret]
        exact List.mem_append_right _ (List.mem_singleton.mpr rfl)
    · intro a ha
      rw [List.map_append]
      exact List.mem_append_left _ (hs.attempts a ha)
  · refine ⟨hs.secrets, ?_, hs.attempts⟩
    intro wh hwh
    exact hs.stored wh (List.mem_filter.mp hwh).1
  · exact inv_deliver hs (fun w hw => List.mem_singleton.mp hw ▸ hwh) _ _ _
  · exact inv_deliver hs (fun w hw => (mem_ofLink.mp hw).1) _ _ _
  · rcases onRefreshWebhook_cases hmacSha256 s accessToken userId timestamp data answers with
      ⟨-, heq⟩ | ⟨token, -, heq⟩
    · rw [heq]
      exact hs
    · rw [heq]
      exact inv_deliver hs (fun w hw => (mem_ofLink.mp hw).1) _ _ _

/-- One step keeps every request verifiable exactly when it meets the condition. -/
theorem step_verifiable_iff {s t : State} {l : Label} (hs : Inv lib settings s)
    (hver : Verifiable hmacSha256 s) (h : step py lib settings hmacSha256 s l = some t) :
    Verifiable hmacSha256 t ↔ SparesRefresh lib settings hmacSha256 s l := by
  rcases step_cases h with ⟨l', links, rfl, -, rfl⟩ |
    ⟨userId, linkToken, url, webhookSecret, webhookId, nonce, sessionFound, rfl, hnew, hok⟩ |
    ⟨userId, webhookId, deliveries, rfl, rfl⟩ |
    ⟨userId, webhookId, timestamp, answers, wh, payload, rfl, hwh, rfl⟩ |
    ⟨linkToken, eventName, timestamp, data, publicToken, answers, payload, rfl, rfl⟩ |
    ⟨accessToken, userId, timestamp, data, answers, rfl, rfl⟩
  · exact iff_of_true hver trivial
  · refine iff_of_true ?_ trivial
    rcases registerWebhook_ok hok with ⟨session, secret, webhooks, -, -, -, rfl⟩
    intro a ha wanted hmem
    rcases List.mem_append.mp hmem with hold | hlast
    · exact hver a ha wanted hold
    · -- nothing was sent to a webhook that is new
      have hid : a.webhookId = webhookId := congrArg Prod.fst (List.mem_singleton.mp hlast)
      exact absurd (hid ▸ hs.attempts a ha) hnew
  · exact iff_of_true hver trivial
  · refine iff_of_true ?_ trivial
    exact (verifiable_deliver_iff hs hver (fun w hw => List.mem_singleton.mp hw ▸ hwh) _ _ _).mpr
      fun _ _ => rfl
  · refine iff_of_true ?_ trivial
    exact (verifiable_deliver_iff hs hver (fun w hw => (mem_ofLink.mp hw).1) _ _ _).mpr fun _ _ => rfl
  · rcases onRefreshWebhook_cases hmacSha256 s accessToken userId timestamp data answers with
      ⟨hnone, heq⟩ | ⟨token, hsome, heq⟩
    · rw [heq]
      refine iff_of_true hver ?_
      intro token htoken
      rw [hnone] at htoken
      cases htoken
    · rw [heq, verifiable_deliver_iff hs hver (fun w hw => (mem_ofLink.mp hw).1)]
      constructor
      · intro hall token' htoken'
        have hsame : token = token' := Option.some.inj (hsome.symm.trans htoken')
        rw [← hsame]
        exact hall
      · intro hspares
        exact hspares token hsome

/-- In every state of a history every request can be verified by its receiver,
exactly when no callback of a refresh sends anything, but to webhooks for which
the stored text signs as the secret does. -/
theorem verifiable_iff {backend : Links.Backend} {tr : List Label} {u : State}
    (hround : Runs.Along (step py lib settings hmacSha256) (fun _ l => RoundTrips lib settings l)
      (start backend) tr)
    (h : Runs.exec (step py lib settings hmacSha256) (start backend) tr = some u) :
    (∀ before after t, tr = before ++ after →
        Runs.exec (step py lib settings hmacSha256) (start backend) before = some t →
          Verifiable hmacSha256 t) ↔
      Runs.Along (step py lib settings hmacSha256) (SparesRefresh lib settings hmacSha256)
        (start backend) tr := by
  have hinit : Verifiable hmacSha256 (start backend) := by
    intro a ha
    cases ha
  exact Runs.always_iff_along_of (fun s l t hs hl ht => step_inv hs hl ht)
    (fun s l t hs _ hver ht => step_verifiable_iff hs hver ht) (init_inv backend) hinit hround h

/-! ## A session event and a refresh -/

def newYear : String := "2026-01-01T00:00:00+00:00"

def eventContent : Bytes :=
  Bytes.utf8 (Json.dumpsCompact (.obj (sessionPayload "link-1" "LINK_OPEN" newYear [] none)))

def refreshContent : Bytes :=
  Bytes.utf8 (Json.dumpsCompact (.obj (refreshPayload "access-1" newYear (.fields ["balance"]))))

/-- The secret `whsec_test` as it is stored. -/
def storedSecret : String := "AwMDAwMDAwMDAwMDjwln_5zbQwzeiKHAN0jkwzz0vmSunyNkkRI="

/-- HMAC-SHA256 on what the two histories below sign. -/
def knownHmacs : List ((Bytes × Bytes) × String) :=
  [((Bytes.utf8 "whsec_test", eventContent),
      "5135fe74b5d82b922bdb19928debac1ef49a93bbfdf223248e9d216612e71409"),
    ((Bytes.utf8 "whsec_test", refreshContent),
      "b414c12e6dca5f7881edfb34a993d67b9dbce1a2bc7adb2fa58b67d6700a17b9"),
    ((Bytes.utf8 storedSecret, refreshContent),
      "ce894c9ff7b949d4730836737b5c7d13d67e11ed04f6336f7c4b2d90beb29d8b")]

def knownHmac (key message : Bytes) : String :=
  (knownHmacs.lookup (key, message)).getD ""

def masterSettings : Envelope.Settings :=
  { encryptionKey := Envelope.keyText Envelope.firstKey }

def knownStep : State → Label → Option State :=
  step Principals.asciiText Envelope.knownCryptography masterSettings knownHmac

/-- A user's webhook for their own session. -/
def registered : List Label :=
  [.link (.createLinkSession { userId := 1, authMethod := "jwt" } "link-1" (some "greengrid_energy")),
    .registerWebhook 1 "link-1" "https://hooks.example/1" "whsec_test" "wh-1" (Envelope.nonce 3) true]

def delivered (_ : String) (_ : Nat) : Option Nat := some 200

def sessionOpened : List Label :=
  registered ++ [.pushLinkSessionEvent "link-1" "OPEN" newYear [] none delivered]

theorem sessionOpened_verifiable :
    ∃ u, Runs.exec knownStep (start .redis) sessionOpened = some u ∧ u.attempts.length = 1 ∧
      Verifiable knownHmac u := by
  have hrun : (Runs.exec knownStep (start .redis) sessionOpened).map (·.attempts.length) =
      some 1 := by
    decide +kernel
  rcases Option.map_eq_some_iff.mp hrun with ⟨u, hu, hone⟩
  have hround : Runs.Along knownStep
      (fun _ l => RoundTrips Envelope.knownCryptography masterSettings l) (start .redis)
      sessionOpened := by
    refine Runs.along_of_forall ?_ _
    have hsecret : ∀ stored ∈ Envelope.encryptWebhookSecret Envelope.knownCryptography
        masterSettings (Envelope.nonce 3) "whsec_test", Envelope.decryptWebhookSecret
          Envelope.knownCryptography masterSettings stored = "whsec_test" := by
      decide +kernel
    intro l hl _
    simp only [sessionOpened, registered, List.cons_append, List.nil_append, List.mem_cons,
      List.not_mem_nil, or_false] at hl
    rcases hl with rfl | rfl | rfl
    · trivial
    · exact hsecret
    · trivial
  have hspares : Runs.Along knownStep
      (SparesRefresh Envelope.knownCryptography masterSettings knownHmac) (start .redis)
      sessionOpened := by
    refine Runs.along_of_forall ?_ _
    intro l hl _
    simp only [sessionOpened, registered, List.cons_append, List.nil_append, List.mem_cons,
      List.not_mem_nil, or_false] at hl
    rcases hl with rfl | rfl | rfl
    · trivial
    · trivial
    · trivial
  exact ⟨u, hu, hone, (verifiable_iff hround hu).mpr hspares sessionOpened [] u (by simp) hu⟩

/-- The refresh is signed with the stored text. -/
def refreshed : List Label :=
  registered ++ [.link (.submitCredentials 1 "link-1" "access-1" true),
    .onRefreshWebhook "access-1" 1 newYear (.fields ["balance"]) delivered]

theorem refreshed_not_verifiable :
    ∃ u, Runs.exec knownStep (start .redis) refreshed = some u ∧
      u.secrets = [("wh-1", "whsec_test")] ∧
      (∃ a ∈ u.attempts, a.webhookId = "wh-1" ∧ a.content = refreshContent ∧
        a.headers.lookup "X-Plaidify-Signature" =
          some "sha256=ce894c9ff7b949d4730836737b5c7d13d67e11ed04f6336f7c4b2d90beb29d8b" ∧
        signatureHeader knownHmac "whsec_test" a.content =
          "sha256=b414c12e6dca5f7881edfb34a993d67b9dbce1a2bc7adb2fa58b67d6700a17b9") ∧
      ¬Verifiable knownHmac u := by
  have hrun : (Runs.exec knownStep (start .redis) refreshed).map (fun u => (u.secrets,
      u.attempts.map fun a => (a.webhookId, a.content, a.headers.lookup "X-Plaidify-Signature"))) =
      some ([("wh-1", "whsec_test")], [("wh-1", refreshContent,
        some "sha256=ce894c9ff7b949d4730836737b5c7d13d67e11ed04f6336f7c4b2d90beb29d8b")]) := by
    decide +kernel
  have hwanted : signatureHeader knownHmac "whsec_test" refreshContent =
      "sha256=b414c12e6dca5f7881edfb34a993d67b9dbce1a2bc7adb2fa58b67d6700a17b9" := by
    decide +kernel
  rcases Option.map_eq_some_iff.mp hrun with ⟨u, hu, heq⟩
  rcases Prod.mk.inj heq with ⟨hsecrets, hattempts⟩
  rcases List.map_eq_singleton_iff.mp hattempts with ⟨a, ha, hfields⟩
  rcases Prod.mk.inj hfields with ⟨hid, hfields⟩
  rcases Prod.mk.inj hfields with ⟨hcontent, hheader⟩
  have hmem : a ∈ u.attempts := by
    rw [ha]
    exact List.mem_singleton.mpr rfl
  have hsigned : signatureHeader knownHmac "whsec_test" a.content =
      "sha256=b414c12e6dca5f7881edfb34a993d67b9dbce1a2bc7adb2fa58b67d6700a17b9" := by
    rw [hcontent]
    exact hwanted
  refine ⟨u, hu, hsecrets, ⟨a, hmem, hid, hcontent, hheader, hsigned⟩, ?_⟩
  intro hver
  have hsame := hver a hmem "whsec_test" (by rw [hid, hsecrets]; exact List.mem_singleton.mpr rfl)
  rw [hheader, hsigned] at hsame
  exact absurd hsame (by decide)

end Plaidify.Webhooks
