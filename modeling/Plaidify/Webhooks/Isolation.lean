import Plaidify.Links.Ownership
import Plaidify.Webhooks.Delivery

/-!
# Whose events a webhook receives

A webhook is registered for a link token, and both paths that deliver look it
up by the link token alone. What keeps the events of one user from the URLs of
another is whose webhooks there are for a link token, and `register_webhook`
takes any link token with a session: `isolated_of_own`.
-/

namespace Plaidify.Webhooks

open Principals (PyText)

/-- No request that a link session or an access token of a user has brought
about went to a webhook of another user. -/
def Isolated (s : State) : Prop :=
  ∀ a ∈ s.attempts,
    match a.cause with
    | .test => True
    | .session linkToken =>
        ∀ session ∈ s.links.sessions, session.linkToken = linkToken →
          ∀ owner ∈ session.userId, a.userId = owner
    | .refresh _ owner => a.userId = owner

/-- The condition on a step: a webhook is registered for a session of the user
who registers it, or for one that is nobody's. -/
def RegistersOwn (s : State) : Label → Prop
  | .registerWebhook userId linkToken _ _ _ _ sessionFound =>
      ∀ session ∈ findSession s linkToken sessionFound, ∀ owner ∈ session.userId, userId = owner
  | _ => True

instance decidableRegistersOwn (s : State) : (l : Label) → Decidable (RegistersOwn s l)
  | .registerWebhook userId linkToken _ _ _ _ sessionFound =>
      inferInstanceAs (Decidable (∀ session ∈ findSession s linkToken sessionFound,
        ∀ owner ∈ session.userId, userId = owner))
  | .link _ | .deleteWebhook .. | .testWebhook .. => isTrue trivial
  | .pushLinkSessionEvent .. | .onRefreshWebhook .. => isTrue trivial

/-- There is a session under the link token, and it is this user's or nobody's. -/
def ForOwner (links : Links.State) (linkToken : String) (userId : Nat) : Prop :=
  ∃ session ∈ links.sessions, session.linkToken = linkToken ∧
    ∀ owner ∈ session.userId, userId = owner

/-- Webhooks and attempts go by the owners of their link tokens. -/
structure IsolationInv (s : State) : Prop where
  links : Links.Inv s.links
  owned : Links.Owned s.links
  webhooks : ∀ wh ∈ s.webhooks.rows, ForOwner s.links wh.linkToken wh.userId
  attempts : ∀ a ∈ s.attempts,
    match a.cause with
    | .test => True
    | .session linkToken => ForOwner s.links linkToken a.userId
    | .refresh _ owner => a.userId = owner

/-- Nothing is registered, and nothing was sent. -/
theorem start_isolationInv (backend : Links.Backend) : IsolationInv (start backend) := by
  constructor
  · exact Links.init_inv backend
  · exact Links.start_owned backend
  · intro wh hwh
    cases hwh
  · intro a ha
    cases ha

/-- A link token has one session, so its owner is the one. -/
theorem IsolationInv.isolated {s : State} (hs : IsolationInv s) : Isolated s := by
  intro a ha
  have hattempt := hs.attempts a ha
  cases hcause : a.cause with
  | test => trivial
  | session linkToken =>
      rw [hcause] at hattempt
      rcases hattempt with ⟨session, hsession, htoken, howner⟩
      intro other hother hother'
      have hsame : other = session :=
        hs.owned.sessions other hother session hsession (hother'.trans htoken.symm)
      rw [hsame]
      exact howner
  | refresh accessToken owner =>
      rw [hcause] at hattempt
      exact hattempt

/-- What goes by the sessions on record goes by more of them. -/
theorem ForOwner.mono {links links' : Links.State} {linkToken : String} {userId : Nat}
    (h : ForOwner links linkToken userId)
    (hsessions : ∀ session ∈ links.sessions, session ∈ links'.sessions) :
    ForOwner links' linkToken userId := by
  rcases h with ⟨session, hsession, hrest⟩
  exact ⟨session, hsessions session hsession, hrest⟩

variable {py : PyText} {lib : Envelope.Cryptography} {settings : Envelope.Settings}
  {hmacSha256 : (key message : Bytes) → String}

/-- A delivery keeps the invariant where each of its requests does. -/
theorem isolationInv_deliver {s : State} (hs : IsolationInv s) {cause : Cause}
    {webhooks : List Webhook} {secret : Webhook → String} {payload : Payload}
    {answers : String → Nat → Option Nat}
    (hcause : ∀ wh ∈ webhooks,
      match cause with
      | .test => True
      | .session linkToken => ForOwner s.links linkToken wh.userId
      | .refresh _ owner => wh.userId = owner) :
    IsolationInv (deliver hmacSha256 s cause webhooks secret payload answers) := by
  refine ⟨hs.links, hs.owned, hs.webhooks, ?_⟩
  intro a ha
  rcases mem_deliver.mp ha with hold | ⟨wh, hwh, rfl⟩
  · exact hs.attempts a hold
  · exact hcause wh hwh

/-- A step keeps users apart if a webhook is registered by the session's owner. -/
theorem step_isolationInv {s t : State} {l : Label} (hs : IsolationInv s) (hl : RegistersOwn s l)
    (h : step py lib settings hmacSha256 s l = some t) : IsolationInv t := by
  rcases step_cases h with ⟨l', links, rfl, hlinks, rfl⟩ |
    ⟨userId, linkToken, url, webhookSecret, webhookId, nonce, sessionFound, rfl, -, hok⟩ |
    ⟨userId, webhookId, deliveries, rfl, rfl⟩ |
    ⟨userId, webhookId, timestamp, answers, wh, payload, rfl, hwh, rfl⟩ |
    ⟨linkToken, eventName, timestamp, data, publicToken, answers, payload, rfl, rfl⟩ |
    ⟨accessToken, userId, timestamp, data, answers, rfl, rfl⟩
  · -- the sessions stay on record, and the tokens are still their users'
    have hsessions := Links.step_sessions hs.links hlinks
    constructor
    · exact Links.step_inv hs.links hlinks
    · exact Links.step_owned hs.links hs.owned hlinks
    · intro wh hwh
      exact (hs.webhooks wh hwh).mono hsessions
    · intro a ha
      have hattempt := hs.attempts a ha
      cases hcause : a.cause with
      | test => trivial
      | session linkToken =>
          rw [hcause] at hattempt
          exact ForOwner.mono hattempt hsessions
      | refresh accessToken owner =>
          rw [hcause] at hattempt
          exact hattempt
  · -- a webhook is registered by the owner of its session
    rcases registerWebhook_ok hok with ⟨session, secret, webhooks, hsession, -, hrows, rfl⟩
    refine ⟨hs.links, hs.owned, ?_, hs.attempts⟩
    intro wh hwh
    have hwh : wh ∈ webhooks.rows := hwh
    rw [hrows] at hwh
    rcases List.mem_append.mp hwh with hold | hlast
    · exact hs.webhooks wh hold
    · rw [List.mem_singleton.mp hlast]
      have hfound := hsession
      unfold findSession at hfound
      split at hfound
      · have hkey := List.find?_some hfound
        rw [beq_iff_eq] at hkey
        exact ⟨session, List.mem_of_find?_eq_some hfound, hkey, hl session hsession⟩
      · cases hfound
  · -- a deletion leaves some of the webhooks
    refine ⟨hs.links, hs.owned, ?_, hs.attempts⟩
    intro wh hwh
    exact hs.webhooks wh (List.mem_filter.mp hwh).1
  · -- a test is sent to the webhook it names
    exact isolationInv_deliver hs fun _ _ => trivial
  · -- an event of a session goes to the webhooks of its link
    apply isolationInv_deliver hs
    intro wh hwh
    rcases mem_ofLink.mp hwh with ⟨hmem, htoken⟩
    have howner := hs.webhooks wh hmem
    rw [htoken] at howner
    exact howner
  · -- a refresh goes to the webhooks of its token's link
    rcases onRefreshWebhook_cases hmacSha256 s accessToken userId timestamp data answers with
      ⟨-, heq⟩ | ⟨token, hsome, heq⟩
    · rw [heq]
      exact hs
    · rw [heq]
      apply isolationInv_deliver hs
      intro wh hwh
      rcases mem_ofLink.mp hwh with ⟨hmem, htoken⟩
      rcases hs.webhooks wh hmem with ⟨session, hsession, hlink, howner⟩
      -- the session of the token's link is the user's
      have huser := hs.owned.accessTokens token (List.mem_of_find?_eq_some hsome) session hsession
        (hlink.trans htoken)
      have hkey := List.find?_some hsome
      simp only [Bool.and_eq_true, beq_iff_eq] at hkey
      rw [hkey.2] at huser
      exact howner userId huser

/-- Where every webhook is registered for a session of its own user, or for one
that is nobody's, no event of a user goes to a webhook of another. -/
theorem isolated_of_own {backend : Links.Backend} {tr : List Label} {u : State}
    (hown : Runs.Along (step py lib settings hmacSha256) RegistersOwn (start backend) tr)
    (h : Runs.exec (step py lib settings hmacSha256) (start backend) tr = some u) :
    Isolated u :=
  (Runs.invariant_along (fun _ _ _ hs hl ht => step_isolationInv hs hl ht)
    (start_isolationInv backend) hown h).isolated

/-! ## Two users -/

theorem sessionOpened_isolated :
    ∃ u, Runs.exec knownStep (start .redis) sessionOpened = some u ∧
      u.attempts.map (fun a => (a.userId, a.url)) = [(1, "https://hooks.example/1")] ∧
      Isolated u := by
  have hrun : (Runs.exec knownStep (start .redis) sessionOpened).map
      (fun u => u.attempts.map fun a => (a.userId, a.url)) =
        some [(1, "https://hooks.example/1")] := by
    decide +kernel
  rcases Option.map_eq_some_iff.mp hrun with ⟨u, hu, hattempts⟩
  have hown : Runs.Along knownStep RegistersOwn (start .redis) sessionOpened := by
    decide +kernel
  exact ⟨u, hu, hattempts, isolated_of_own hown hu⟩

/-- User 2 registers a webhook for the link session of user 1. -/
def otherRegistered : List Label :=
  [.link (.createLinkSession { userId := 1, authMethod := "jwt" } "link-1" (some "greengrid_energy")),
    .registerWebhook 2 "link-1" "https://hooks.example/2" "whsec_test" "wh-1" (Envelope.nonce 3) true,
    .pushLinkSessionEvent "link-1" "CONNECTED" newYear [] (some "public-1") delivered]

theorem otherRegistered_not_isolated :
    ∃ u, Runs.exec knownStep (start .redis) otherRegistered = some u ∧
      u.links.sessions = [⟨"link-1", some 1⟩] ∧
      u.attempts.map (fun a => (a.cause, a.userId, a.url)) =
        [(.session "link-1", 2, "https://hooks.example/2")] ∧ ¬Isolated u := by
  have hrun : (Runs.exec knownStep (start .redis) otherRegistered).map (fun u =>
      (u.links.sessions, u.attempts.map fun a => (a.cause, a.userId, a.url))) =
        some ([⟨"link-1", some 1⟩], [(.session "link-1", 2, "https://hooks.example/2")]) := by
    decide +kernel
  rcases Option.map_eq_some_iff.mp hrun with ⟨u, hu, heq⟩
  rcases Prod.mk.inj heq with ⟨hsessions, hattempts⟩
  refine ⟨u, hu, hsessions, hattempts, ?_⟩
  intro hisolated
  rcases List.map_eq_singleton_iff.mp hattempts with ⟨a, ha, hfields⟩
  rcases Prod.mk.inj hfields with ⟨hcause, hfields⟩
  rcases Prod.mk.inj hfields with ⟨huser, -⟩
  have hattempt := hisolated a (by rw [ha]; exact List.mem_singleton.mpr rfl)
  rw [hcause, hsessions, huser] at hattempt
  have hsame := hattempt ⟨"link-1", some 1⟩ (List.mem_singleton.mpr rfl) rfl 1 rfl
  exact absurd hsame (by decide)

end Plaidify.Webhooks
