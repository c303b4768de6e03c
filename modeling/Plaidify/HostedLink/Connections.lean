import Plaidify.HostedLink.Reconciling

/-!
# Hosted connections

`POST /connect` of `src/src/routers/connection.py` on one link token, with the
requests and parties around it: status polls, events of the page, the access
jobs, the MFA manager, and `exchange_public_token` of `src/src/routers/links.py`.
Any number of requests is under way at a time.

`connect` is cut where it waits: for the job to be created, for the job to end,
and in the reconcile that follows. What a job does is seen in its row and in the
MFA manager.
-/

namespace Plaidify.HostedLink

open AccessJobs (Dict Exc Job JobState applyJobState serializeMetadata)
open Links (Backend)
open Mfa (MfaSession Challenge)
open Principals (HttpError)

/-! ## `connect` -/

/-- The access token that `_ensure_hosted_link_access_token` finds. -/
def State.existingAccessToken (s : State) (userId : Nat) : Option AccessToken :=
  (s.accessTokens.rows.filter fun row => row.userId == userId).argmax AccessToken.updatedAt

/-- The rows that `_ensure_hosted_link_access_token` writes, with the access
token. A new one is a fresh `uuid4`. -/
def writeLinkRows (s : State) (userId : Nat) (request : ConnectRequest) (fresh : String) :
    Option (String × State) :=
  let s := { s with link := some request.site, lastRequest := some request }
  match s.existingAccessToken userId with
  | some row =>
      let row := { row with
        username := request.username, password := request.password, updatedAt := s.now }
      some (row.token, { s with accessTokens := s.accessTokens.put row })
  | none =>
      (s.accessTokens.insert? {
        token := fresh
        userId
        username := request.username
        password := request.password
        updatedAt := s.now }).map fun accessTokens => (fresh, { s with accessTokens })

/-- Only the rows of the link change. -/
theorem writeLinkRows_eq {s : State} {userId : Nat} {request : ConnectRequest} {fresh : String}
    {r : String × State} (h : writeLinkRows s userId request fresh = some r) :
    ∃ accessTokens, r.2 = { s with
      link := some request.site
      lastRequest := some request
      accessTokens := accessTokens } := by
  unfold writeLinkRows at h
  simp only [] at h
  split at h
  · obtain rfl := Option.some.inj h
    exact ⟨_, rfl⟩
  · obtain ⟨accessTokens, -, rfl⟩ := Option.map_eq_some_iff.mp h
    exact ⟨accessTokens, rfl⟩

/-- `connect` with a link token, up to the rows of the link. `userFound` is
whether the user of the session still exists. -/
def connect (s : State) (i : Nat) (request : ConnectRequest) (fresh : String) (userFound : Bool) :
    Option State :=
  match s.getLinkSession with
  | none => some (s.setConnect i (some (.ensured request none none)))
  | some session =>
      match session.userId with
      | none => some (s.touch.setConnect i (some (.ensured request (some none) none)))
      | some userId =>
          if userFound then
            (writeLinkRows s.touch userId request fresh).map fun r =>
              r.2.setConnect i (some (.ensured request (some (some r.1)) (some userId)))
          else some (s.touch.setConnect i (some (.ensured request none none)))

/-- The row of a new job. -/
def connectJob (s : State) (request : ConnectRequest) (id sessionId lockScope : String) : Job where
  id := id
  site := request.site
  status := .pending
  lockScope := lockScope
  sessionId := some sessionId
  metadata := serializeMetadata
    [("extract_fields", .arr ((request.extractFields.getD []).map .str)),
      ("link_token", .str s.linkToken)]
  result := none
  errorMessage := none
  startedAt := none
  completedAt := none

/-- What `connect` writes into the session once the job is there. -/
def connectingUpdates (request : ConnectRequest) (accessToken : Option String) (job : Job)
    (stored : LinkSession) : LinkSession :=
  { stored with
    accessToken
    currentJobId := some job.id
    errorMessage := .null
    message := .null
    metadata := none
    mfaType := .null
    publicToken := none
    result := none
    sessionId := job.sessionId
    site := .str request.site
    status := .connecting }

/-- `start_access_job`. -/
def addJob (s : State) (request : ConnectRequest) (job : Job) : State :=
  { s with
    jobs := s.jobs.set job
    executorKwargs := fun k => if k = job.id then some request else s.executorKwargs k }

/-- A hosted session turns to the new job. -/
def attachJob (s : State) (request : ConnectRequest) (hosted : Option (Option String)) (job : Job) :
    State :=
  match hosted with
  | none => s
  | some accessToken => s.update (connectingUpdates request accessToken job)

/-- What `connect` does from there up to its wait. The ids are fresh `uuid4`s. -/
def startConnect (s : State) (i : Nat) (request : ConnectRequest)
    (hosted : Option (Option String)) (id sessionId lockScope : String) : Option State :=
  let job := connectJob s request id sessionId lockScope
  if (s.jobs.get? id).isSome || s.jobs.rows.any (fun row => row.sessionId == some sessionId) ||
      (s.mfa sessionId).isSome then none
  else
    some ((attachJob (addJob s request job) request hosted job).setConnect i
      (some (.waiting request hosted job)))

/-- `MFA_REQUIRED` as `connect` announces it. -/
def connectMfaRequired (s : State) (request : ConnectRequest) (accessToken : Option String)
    (jobId : Option String) (mfaType sessionId : String) (message : Json) (metadata : Dict) :
    State :=
  s.push (.str "MFA_REQUIRED")
    [("mfa_type", .str mfaType), ("session_id", .str sessionId), ("site", .str request.site)]
    fun stored => { stored with
      accessToken
      currentJobId := jobId
      message
      metadata := some metadata
      mfaType := .str mfaType
      sessionId := some sessionId
      site := .str request.site
      status := .mfaRequired }

/-- How the wait of `connect` ends. -/
inductive Outcome where
  /-- The job has completed. -/
  | completed
  /-- The wait timed out, and there is an MFA session. -/
  | mfaSession
  /-- The wait timed out, and the job runs on. -/
  | pending
  /-- The job raised `MFARequiredError`; `tracked` is whether it has `job_id`. -/
  | mfaRequired (site mfaType sessionId : String) (tracked : Bool)
  /-- The job raised anything else. -/
  | raised

/-- The rest of `connect`, up to its reconcile. -/
def finishConnect (s : State) (i : Nat) (request : ConnectRequest)
    (hosted : Option (Option String)) (job : Job) : Outcome → Option State
  | .completed =>
      match hosted with
      | none => some (s.setConnect i none)
      | some _ =>
          -- The database session of the request refreshed the row when it was
          -- created; a query returns the object that is held, as it is.
          let reconcile := reconcileRead s (some job.id) fun _ => some job
          some (s.touch.setConnect i (reconcile.map .reconciling))
  | .mfaSession => do
      let session ← s.mfaSession (job.sessionId.getD "")
      let message := (session.metadata.lookup "message").getD .null
      let s :=
        match hosted with
        | none => s
        | some accessToken =>
            connectMfaRequired s request accessToken (some job.id) session.mfaType
              (job.sessionId.getD "") message session.metadata
      return s.setConnect i none
  | .mfaRequired site mfaType sessionId tracked =>
      let jobId := if tracked then some job.id else none
      let message := Json.str (Exc.mfaRequired site mfaType sessionId).message
      let s :=
        match hosted with
        | none => s
        | some accessToken =>
            connectMfaRequired s request accessToken jobId mfaType sessionId message
              [("message", message)]
      some (s.setConnect i none)
  | .pending | .raised => some (s.setConnect i none)

/-! ## The MFA manager and the exchange -/

def State.setMfa (s : State) (sessionId : String) (session : Option MfaSession) : State :=
  { s with mfa := fun k => if k = sessionId then session else s.mfa k }

/-- `MFAManager.create_session`. -/
def createMfaSession (s : State) (sessionId : String) (challenge : Challenge) : State :=
  s.setMfa sessionId (some (Mfa.createdSession s.now challenge (s.mfaSession sessionId)))

/-- `MFAManager.submit_code` returns `True`. -/
def acceptsCode (s : State) (sessionId : String) : Bool :=
  (s.mfaSession sessionId).isSome

/-- `MFAManager.submit_code`. An expired session is removed. -/
def submitCode (s : State) (sessionId code : String) : State :=
  s.setMfa sessionId ((s.mfaSession sessionId).map fun session => { session with code := some code })

/-- `exchange_public_token`, with the access token that it answers. -/
def exchangePublicToken (s : State) (userId : Nat) (publicToken : String) :
    Except HttpError (String × State) :=
  match s.publicTokens.get? publicToken with
  | none => .error ⟨404, "Invalid public_token."⟩
  | some row =>
      if row.userId ≠ userId then .error ⟨403, "Not authorized to exchange this token."⟩
      else if row.exchanged then .error ⟨410, "public_token has already been exchanged."⟩
      else if row.expiresAt < s.now then .error ⟨410, "public_token has expired."⟩
      else .ok (row.accessToken,
        { s with publicTokens := s.publicTokens.put { row with exchanged := true } })

theorem exchangePublicToken_eq {s : State} {userId : Nat} {publicToken : String}
    {r : String × State} (h : exchangePublicToken s userId publicToken = .ok r) :
    ∃ publicTokens, r.2 = { s with publicTokens := publicTokens } := by
  unfold exchangePublicToken at h
  split at h
  · cases h
  · split at h
    · cases h
    · split at h
      · cases h
      · split at h
        · cases h
        · obtain rfl := Except.ok.inj h
          exact ⟨_, rfl⟩

/-! ## The steps -/

inductive Label where
  | wait (milliseconds : Nat)
  /-- The session store drops the session. -/
  | evict
  /-- Somebody writes a state into the row of a job. -/
  | writeJob (id : String) (state : JobState)
  | createMfa (sessionId : String) (challenge : Challenge)
  | submitMfa (sessionId code : String)
  | removeMfa (sessionId : String)
  /-- A status poll, up to its wait and after it. -/
  | poll (i : Nat)
  | polled (i : Nat) (fresh : String)
  /-- An event of the page, up to its wait and after it. -/
  | post (i : Nat)
  | posted (i : Nat) (body : Dict)
  /-- `POST /connect`, in four stretches. -/
  | connect (i : Nat) (request : ConnectRequest) (fresh : String) (userFound : Bool)
  | start (i : Nat) (id sessionId lockScope : String)
  | finish (i : Nat) (outcome : Outcome)
  | reconciled (i : Nat) (fresh : String)
  | exchange (userId : Nat) (publicToken : String)

def step (s : State) : Label → Option State
  | .wait milliseconds => some { s with now := s.now + milliseconds }
  | .evict => some { s with stored := false }
  | .writeJob id state =>
      (s.jobs.get? id).map fun job => { s with jobs := s.jobs.put (applyJobState job state) }
  | .createMfa sessionId challenge => some (createMfaSession s sessionId challenge)
  | .submitMfa sessionId code => some (submitCode s sessionId code)
  | .removeMfa sessionId => some (s.setMfa sessionId none)
  | .poll i =>
      match s.polls i with
      | some _ => none
      | none => some (s.touch.setPoll i (reconcileRead s none s.jobs.get?))
  | .polled i fresh =>
      match s.polls i with
      | none => none
      | some reconcile => reconcileWrite (s.setPoll i none) reconcile fresh
  | .post i =>
      match s.posts i with
      | some _ => none
      | none => some (postEvent s i)
  | .posted i body =>
      match s.posts i with
      | none => none
      | some read => some (postedEvent (s.setPost i none) read body)
  | .connect i request fresh userFound =>
      match s.connects i with
      | some _ => none
      | none => connect s i request fresh userFound
  | .start i id sessionId lockScope =>
      match s.connects i with
      | some (.ensured request hosted _) => startConnect s i request hosted id sessionId lockScope
      | _ => none
  | .finish i outcome =>
      match s.connects i with
      | some (.waiting request hosted job) => finishConnect s i request hosted job outcome
      | _ => none
  | .reconciled i fresh =>
      match s.connects i with
      | some (.reconciling reconcile) => reconcileWrite (s.setConnect i none) reconcile fresh
      | _ => none
  | .exchange userId publicToken =>
      match exchangePublicToken s userId publicToken with
      | .error _ => some s
      | .ok (_, s) => some s

/-- The reconcile that the step goes on with. -/
def reconcileOf (s : State) : Label → Option Reconcile
  | .polled i _ => s.polls i
  | .reconciled i _ =>
      match s.connects i with
      | some (.reconciling reconcile) => some reconcile
      | _ => none
  | _ => none

/-- `_create_ephemeral_link_session`, with nothing under way. -/
def init (backend : Backend) (linkToken : String) (now : Nat) (site : Option String)
    (userId : Option Nat) : State where
  backend := backend
  linkToken := linkToken
  now := now
  session := {
    createdAt := now
    status := .awaitingInstitution
    currentJobId := none
    errorMessage := .null
    site := optStr site
    userId
    events := []
    accessToken := none
    message := .null
    metadata := none
    mfaType := .null
    publicToken := none
    result := none
    sessionId := none }
  stored := true
  webhooks := []
  link := if userId.isSome then site.filter (· ≠ "") else none
  accessTokens := .empty
  publicTokens := .empty
  jobs := .empty
  executorKwargs := fun _ => none
  mfa := fun _ => none
  polls := fun _ => none
  posts := fun _ => none
  connects := fun _ => none
  lastRequest := none

end Plaidify.HostedLink
