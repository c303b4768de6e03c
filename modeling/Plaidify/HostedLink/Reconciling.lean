import Plaidify.HostedLink.Sessions
import Mathlib.Data.List.MinMax

/-!
# Reconciling a link session with its job

`serialize_access_job_runtime` of `src/src/access_jobs.py`, and
`_ensure_public_token` and `reconcile_link_session` of
`src/src/routers/link_sessions.py`.

`reconcile_link_session` is cut at `await serialize_access_job_runtime(job)`:
`reconcileRead` ends with the row of the job, `reconcileWrite` begins with the
look-up of the MFA session. Under Redis another worker may run in between even
where the wait is not a real one.
-/

namespace Plaidify.HostedLink

open AccessJobs (Dict Job Status mergeMetadata)
open Mfa (MfaSession)

/-! ## The status of a job -/

/-- The keys of a serialized job that a reconcile reads. -/
structure Payload where
  site : String
  status : Status
  sessionId : Option String
  mfaType : Json
  errorMessage : Option String
  metadata : Option Dict
  result : Option Dict

/-- `serialize_access_job`. -/
def serializeAccessJob (job : Job) : Payload where
  site := job.site
  status := job.status
  sessionId := job.sessionId
  mfaType := (job.metadata.bind (·.lookup "mfa_type")).getD .null
  errorMessage := job.errorMessage
  metadata := job.metadata
  result := job.result

/-- `get_mfa_manager().get_session`. -/
def State.mfaSession (s : State) (sessionId : String) : Option MfaSession :=
  (s.mfa sessionId).filter fun session => !session.expired s.now

/-- The MFA session that `serialize_access_job_runtime` looks up, if it does. -/
def State.liveMfa (s : State) (job : Job) : Option MfaSession :=
  if job.status ≠ .running then none
  else (job.sessionId.filter (· ≠ "")).bind s.mfaSession

/-- `serialize_access_job_runtime`. -/
def serializeAccessJobRuntime (s : State) (job : Job) : Payload :=
  match s.liveMfa job with
  | none => serializeAccessJob job
  | some session =>
      { serializeAccessJob job with
        status := .mfaRequired
        mfaType := .str session.mfaType
        metadata := mergeMetadata job.metadata (some session.metadata) }

/-- The overlay does not make a job a completed one. -/
theorem runtime_completed_iff (s : State) (job : Job) :
    (serializeAccessJobRuntime s job).status = .completed ↔ job.status = .completed := by
  unfold serializeAccessJobRuntime
  cases hmfa : s.liveMfa job with
  | none => rfl
  | some session =>
      have hrunning : job.status = .running := by
        by_contra h
        simp [State.liveMfa, h] at hmfa
      simp [hrunning]

/-! ## Public tokens -/

/-- `_PUBLIC_TOKEN_TTL_MINUTES`. -/
def publicTokenTtl : Nat := 10 * 60 * 1000

/-- The row that `_ensure_public_token` finds: the newest one. -/
def State.existingPublicToken (s : State) (accessToken : String) (userId : Nat) :
    Option PublicToken :=
  (s.publicTokens.rows.filter fun row =>
    row.accessToken == accessToken && row.userId == userId).argmax PublicToken.createdAt

/-- `_ensure_public_token`; a new token is a fresh `uuid4`. -/
def ensurePublicToken (s : State) (accessToken : String) (userId : Nat) (fresh : String) :
    Option (String × State) :=
  match s.existingPublicToken accessToken userId with
  | some existing => some (existing.token, s)
  | none =>
      (s.publicTokens.insert? {
        token := fresh
        accessToken
        userId
        exchanged := false
        expiresAt := s.now + publicTokenTtl
        createdAt := s.now }).map fun publicTokens => (fresh, { s with publicTokens })

/-- The public token of a completed session. -/
def completedPublicToken (s : State) (session : LinkSession) (fresh : String) :
    Option (Option String × State) :=
  match session.publicToken, session.accessToken, session.userId with
  | some publicToken, _, _ => some (some publicToken, s)
  | none, some accessToken, some userId =>
      (ensurePublicToken s accessToken userId fresh).map fun r => (some r.1, r.2)
  | none, _, _ => some (none, s)

theorem ensurePublicToken_eq {s : State} {accessToken fresh : String} {userId : Nat}
    {r : String × State} (h : ensurePublicToken s accessToken userId fresh = some r) :
    ∃ publicTokens, r.2 = { s with publicTokens := publicTokens } := by
  unfold ensurePublicToken at h
  split at h
  · obtain rfl := Option.some.inj h
    exact ⟨s.publicTokens, rfl⟩
  · obtain ⟨publicTokens, -, rfl⟩ := Option.map_eq_some_iff.mp h
    exact ⟨publicTokens, rfl⟩

/-- Only the public tokens change where one is minted. -/
theorem completedPublicToken_eq {s : State} {session : LinkSession} {fresh : String}
    {r : Option String × State} (h : completedPublicToken s session fresh = some r) :
    ∃ publicTokens, r.2 = { s with publicTokens := publicTokens } := by
  unfold completedPublicToken at h
  split at h
  · obtain rfl := Option.some.inj h
    exact ⟨s.publicTokens, rfl⟩
  · obtain ⟨r', hr', rfl⟩ := Option.map_eq_some_iff.mp h
    exact ensurePublicToken_eq hr'
  · obtain rfl := Option.some.inj h
    exact ⟨s.publicTokens, rfl⟩

/-! ## `reconcile_link_session` -/

/-- Up to the row of the job. `query` is what the database session returns. -/
def reconcileRead (s : State) (jobId : Option String) (query : String → Option Job) :
    Option Reconcile := do
  let session ← s.getLinkSession
  if session.status = .expired then none
  else
    let currentJobId ← jobId <|> session.currentJobId
    let job ← query currentJobId
    return { session, job }

/-- A reconcile goes on only with a session that is stored and alive. -/
theorem reconcileRead_eq_some {s : State} {jobId : Option String} {query : String → Option Job}
    {reconcile : Reconcile} (h : reconcileRead s jobId query = some reconcile) :
    s.stored = true ∧ reconcile.session = s.session ∧
      ∃ id, (jobId <|> s.session.currentJobId) = some id ∧ query id = some reconcile.job := by
  obtain ⟨session, hget, h⟩ := Option.bind_eq_some_iff.mp h
  unfold State.getLinkSession at hget
  split at hget
  · rename_i hstored
    obtain rfl := Option.some.inj hget
    split at h
    · cases h
    · rename_i halive
      -- the overlay would have made the session an expired one
      have hseen : s.session.seen s.now = s.session := by
        unfold LinkSession.seen at halive ⊢
        split
        · rename_i hold
          rw [if_pos hold] at halive
          exact absurd rfl halive
        · rfl
      rw [hseen] at h
      obtain ⟨id, hid, h⟩ := Option.bind_eq_some_iff.mp h
      obtain ⟨job, hjob, heq⟩ := Option.bind_eq_some_iff.mp h
      obtain rfl := Option.some.inj heq
      exact ⟨hstored, rfl, id, hid, hjob⟩
  · cases hget

/-- `updates["site"]`. -/
def reconciledSite (session : LinkSession) (payload : Payload) : Json :=
  if payload.site = "" then session.site else .str payload.site

/-- The updates that every branch makes. -/
def reconcileUpdates (session : LinkSession) (job : Job) (payload : Payload)
    (stored : LinkSession) : LinkSession :=
  { stored with
    currentJobId := some job.id
    sessionId := payload.sessionId
    site := reconciledSite session payload
    metadata := payload.metadata <|> stored.metadata
    mfaType := if payload.mfaType.truthy then payload.mfaType else stored.mfaType }

/-- The branch of a job that runs. -/
def reconcileConnecting (s : State) (session : LinkSession) (job : Job) (payload : Payload) :
    State :=
  s.update fun stored =>
    { reconcileUpdates session job payload stored with status := .connecting }

/-- The branch of a job that waits for a code. -/
def reconcileMfaRequired (s : State) (session : LinkSession) (job : Job) (payload : Payload) :
    State :=
  let message := (payload.metadata.bind (·.lookup "message")).getD .null
  let updates := fun stored =>
    { reconcileUpdates session job payload stored with message, status := .mfaRequired }
  if session.status ≠ .mfaRequired then
    s.push (.str "MFA_REQUIRED")
      [("mfa_type", payload.mfaType), ("session_id", optStr payload.sessionId),
        ("site", reconciledSite session payload)] updates
  else s.update updates

/-- The branch of a completed job, with the public token in hand. -/
def reconcileCompleted (s : State) (session : LinkSession) (job : Job) (payload : Payload)
    (publicToken : Option String) : State :=
  let updates := fun stored =>
    { reconcileUpdates session job payload stored with
      errorMessage := .null
      message := .null
      result := payload.result
      status := .completed
      publicToken := publicToken <|> stored.publicToken }
  if session.status ≠ .completed then
    s.push (.str "CONNECTED")
      [("job_id", .str job.id), ("public_token", optStr publicToken),
        ("site", reconciledSite session payload)] updates
  else s.update updates

/-- The branch of a job that failed. -/
def reconcileFailed (s : State) (session : LinkSession) (job : Job) (payload : Payload) : State :=
  let errorMessage := .str (match payload.errorMessage.filter (· ≠ "") with
    | some message => message
    | none => "The connection could not be completed.")
  let updates := fun stored =>
    { reconcileUpdates session job payload stored with errorMessage, status := .error }
  if session.status ≠ .error then
    s.push (.str "ERROR")
      [("error", errorMessage), ("job_id", .str job.id),
        ("site", reconciledSite session payload)] updates
  else s.update updates

/-- The rest of it. -/
def reconcileWrite (s : State) (reconcile : Reconcile) (fresh : String) : Option State :=
  let session := s.held reconcile.session
  let payload := serializeAccessJobRuntime s reconcile.job
  match payload.status with
  | .pending | .running => some (reconcileConnecting s session reconcile.job payload).touch
  | .mfaRequired => some (reconcileMfaRequired s session reconcile.job payload).touch
  | .completed => do
      let (publicToken, s) ← completedPublicToken s session fresh
      return (reconcileCompleted s session reconcile.job payload publicToken).touch
  | .blocked | .cancelled | .failed =>
      some (reconcileFailed s session reconcile.job payload).touch

/-! ### What it changes -/

theorem reconcileMfaRequired_sessionOnly (s : State) (session : LinkSession) (job : Job)
    (payload : Payload) : s.SessionOnly (reconcileMfaRequired s session job payload) := by
  unfold reconcileMfaRequired
  by_cases hnew : session.status ≠ .mfaRequired
  · rw [if_pos hnew]
    exact State.push_sessionOnly ..
  · rw [if_neg hnew]
    exact State.update_sessionOnly ..

theorem reconcileCompleted_sessionOnly (s : State) (session : LinkSession) (job : Job)
    (payload : Payload) (publicToken : Option String) :
    s.SessionOnly (reconcileCompleted s session job payload publicToken) := by
  unfold reconcileCompleted
  by_cases hnew : session.status ≠ .completed
  · rw [if_pos hnew]
    exact State.push_sessionOnly ..
  · rw [if_neg hnew]
    exact State.update_sessionOnly ..

theorem reconcileFailed_sessionOnly (s : State) (session : LinkSession) (job : Job)
    (payload : Payload) : s.SessionOnly (reconcileFailed s session job payload) := by
  unfold reconcileFailed
  by_cases hnew : session.status ≠ .error
  · rw [if_pos hnew]
    exact State.push_sessionOnly ..
  · rw [if_neg hnew]
    exact State.update_sessionOnly ..

/-- Besides the session and its webhooks, a reconcile only mints public tokens. -/
theorem reconcileWrite_eq {s t : State} {reconcile : Reconcile} {fresh : String}
    (h : reconcileWrite s reconcile fresh = some t) :
    ∃ session webhooks publicTokens, t = { s with
      session := session, webhooks := webhooks, publicTokens := publicTokens } := by
  have hplain : ∀ {u : State}, s.SessionOnly u → u.touch = t →
      ∃ session webhooks publicTokens, t = { s with
        session := session, webhooks := webhooks, publicTokens := publicTokens } := by
    rintro u hu rfl
    rcases hu.trans u.touch_sessionOnly with ⟨session, webhooks, heq⟩
    exact ⟨session, webhooks, s.publicTokens, heq⟩
  unfold reconcileWrite at h
  cases hstatus : (serializeAccessJobRuntime s reconcile.job).status
  case pending | running =>
    simp only [hstatus] at h
    exact hplain (State.update_sessionOnly ..) (Option.some.inj h)
  case mfaRequired =>
    simp only [hstatus] at h
    exact hplain (reconcileMfaRequired_sessionOnly ..) (Option.some.inj h)
  case completed =>
    simp only [hstatus] at h
    rcases Option.bind_eq_some_iff.mp h with ⟨⟨publicToken, s'⟩, hpublic, heq⟩
    obtain rfl := Option.some.inj heq
    rcases completedPublicToken_eq hpublic with ⟨publicTokens, hs'⟩
    simp only [] at hs'
    subst hs'
    rcases (reconcileCompleted_sessionOnly _ _ _ _ publicToken).trans
      (State.touch_sessionOnly _) with ⟨session, webhooks, heq⟩
    exact ⟨session, webhooks, publicTokens, heq⟩
  all_goals
    simp only [hstatus] at h
    exact hplain (reconcileFailed_sessionOnly ..) (Option.some.inj h)

end Plaidify.HostedLink
