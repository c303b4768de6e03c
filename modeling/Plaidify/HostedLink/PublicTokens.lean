import Plaidify.HostedLink.Completion
import Plaidify.HostedLink.LinkRows

/-!
# What an announcement names

An announcement of a completed job names a public token, in its event, in its
webhook and in the session. Since a link token has one public token for good, an
announcement after the exchange of that token names a spent one; and since it has
one access token, which every connection overwrites, the public token resolves to
what was connected last.
-/

namespace Plaidify.HostedLink

open AccessJobs (Dict Job)

/-! ## Announcements -/

/-- The reconcile with which the step announces a job. -/
def announcedBy (s : State) (l : Label) : Option Reconcile :=
  (reconcileOf s l).filter s.announcing

/-- The public token that the data of an event names. -/
def publicTokenOf (data : Dict) : Option String :=
  match data.lookup "public_token" with
  | some (.str token) => some token
  | _ => none

/-- The token stands in the webhook that was fired last, or, if the session is
stored, in its last event or in the session itself. -/
def Named (t : State) (token : String) : Prop :=
  (∃ webhook, t.webhooks.getLast? = some webhook ∧ publicTokenOf webhook.data = some token) ∨
    t.stored = true ∧
      ((∃ event, t.session.events.getLast? = some event ∧ publicTokenOf event.data = some token) ∨
        t.session.publicToken = some token)

section

variable {userId : Option Nat} {s t : State}

/-- The public token of a completed session is the one of the link token, which
is minted if there is none. -/
theorem LinkRows.completedPublicToken_cases (hs : LinkRows userId s) {session : LinkSession}
    (hsession : Backed userId s session) (hattached : session.Attached userId) {fresh : String}
    {r : Option String × State} (h : HostedLink.completedPublicToken s session fresh = some r) :
    (userId = none ∧ r = (none, s)) ∨
      ∃ row, userId.isSome = true ∧ r.1 = some row.token ∧ r.2.publicTokens.rows = [row] ∧
        s.HasAccess row.accessToken ∧
        (s.publicTokens.rows = [row] ∨ s.publicTokens.rows = [] ∧ row.exchanged = false ∧
          row.expiresAt = s.now + publicTokenTtl) := by
  have hrowsEq : ∀ row ∈ s.publicTokens.rows, s.publicTokens.rows = [row] := by
    intro row hrow
    obtain ⟨row', hrow'⟩ := List.length_eq_one_iff.mp
      (Nat.le_antisymm hs.onePublic (List.length_pos_of_mem hrow))
    rw [hrow'] at hrow ⊢
    rw [List.mem_singleton.mp hrow]
  unfold HostedLink.completedPublicToken at h
  split at h
  · -- the session has the token already
    rename_i publicToken hpublic
    obtain rfl := Option.some.inj h
    obtain ⟨row, hrow, rfl⟩ := hsession.minted _ hpublic
    obtain ⟨huser, haccess⟩ := hs.minted row hrow
    exact .inr ⟨row, by rw [huser]; rfl, rfl, hrowsEq row hrow, haccess, .inl (hrowsEq row hrow)⟩
  · rename_i accessToken user hpublic haccess hsessionUser
    obtain ⟨r', hr', rfl⟩ := Option.map_eq_some_iff.mp h
    have huser : userId = some user := hsession.user.symm.trans hsessionUser
    have hasAccess := hsession.access _ haccess
    unfold HostedLink.ensurePublicToken at hr'
    split at hr'
    · rename_i row hrow
      obtain rfl := Option.some.inj hr'
      have hmem := (List.mem_filter.mp (List.argmax_mem hrow)).1
      exact .inr ⟨row, by rw [huser]; rfl, rfl, hrowsEq row hmem, (hs.minted row hmem).2,
        .inl (hrowsEq row hmem)⟩
    · rename_i hnone
      obtain ⟨publicTokens, hinsert, rfl⟩ := Option.map_eq_some_iff.mp hr'
      have hempty := hs.existingPublicToken_eq_none huser hasAccess hnone
      have hrows := (Table.insert?_eq_some hinsert).2
      rw [hempty, List.nil_append] at hrows
      exact .inr ⟨_, by rw [huser]; rfl, rfl, hrows, hasAccess, .inr ⟨hempty, rfl, rfl⟩⟩
  · -- nobody's session
    rename_i hpublic hnot
    obtain rfl := Option.some.inj h
    refine .inl ⟨?_, rfl⟩
    cases huser : userId with
    | none => rfl
    | some user =>
        obtain ⟨accessToken, haccess⟩ := Option.isSome_iff_exists.mp (hattached (by simp [huser]))
        exact (hnot accessToken user haccess (hsession.user.trans huser)).elim

/-- What an announcement names: nothing in nobody's session, else the public token
of the link token, which is as it was or is a new one. -/
structure Announced (userId : Option Nat) (s t : State) : Prop where
  now : t.now = s.now
  link : t.link = s.link
  accessTokens : t.accessTokens = s.accessTokens
  named : (userId = none ∧ ∀ token, ¬ Named t token) ∨
    ∃ row, userId.isSome = true ∧ (∀ token, Named t token ↔ row.token = token) ∧
      t.publicTokens.rows = [row] ∧ s.HasAccess row.accessToken ∧
      (s.publicTokens.rows = [row] ∨ s.publicTokens.rows = [] ∧ row.exchanged = false ∧
        row.expiresAt = s.now + publicTokenTtl)

/-- The webhook, the event and the session of an announcement name one token. -/
theorem named_push {name : Json} {data : Dict} {updates : LinkSession → LinkSession}
    {publicToken : Option String} (hname : isConnected name = true)
    (hevents : ∀ x, (updates x).events = x.events)
    (hpublic : ∀ x, (updates x).publicToken = (publicToken <|> x.publicToken))
    (hnone : publicToken = none → s.session.publicToken = none)
    (hdata : publicTokenOf data = publicToken)
    (hsanitized : publicTokenOf (sanitizeMembers data) = publicToken) (token : String) :
    Named (s.push name data updates).touch token ↔ publicToken = some token := by
  obtain ⟨session, heq, hsession⟩ := (s.push name data updates).touch_eq
  -- the push calls a webhook with the data
  have hwebhook : ∃ webhook, (s.push name data updates).webhooks.getLast? = some webhook ∧
      webhook.data = data := by
    have hsome := webhookEvent_eq_linkComplete.mpr hname
    unfold State.push
    simp only [hsome]
    exact ⟨_, List.getLast?_concat, rfl⟩
  obtain ⟨webhook, hlast, hwebhookData⟩ := hwebhook
  -- and it may not touch what decides where the session is stored
  have hstored : (s.push name data updates).stored = s.stored := by
    obtain ⟨session, webhooks, heq⟩ := s.push_sessionOnly name data updates
    rw [heq]
  -- the session's token is the new one, unless it had one and none is new
  have hsessionPublic : s.stored = true →
      (s.push name data updates).session.publicToken = some token → publicToken = some token := by
    intro hs h
    have hor : (publicToken <|> s.session.publicToken) = some token := by
      rcases State.push_session hs name data updates with hpush | hpush
      · rw [hpush, hpublic] at h
        exact h
      · rw [hpush] at h
        simp only [hpublic] at h
        exact h
    cases hp : publicToken with
    | none =>
        rw [hp, hnone hp] at hor
        exact hor
    | some publicToken =>
        rw [hp] at hor
        exact hor
  -- the event carries the data, less what is not for the page
  have hsessionEvents : s.stored = true → ∃ event,
      (s.push name data updates).session.events.getLast? = some event ∧
        event.data = sanitizeMembers data := by
    intro hs
    refine ⟨{ name, timestamp := s.now, data := sanitizeMembers data }, ?_, rfl⟩
    rcases State.push_session hs name data updates with hpush | hpush
    · rw [hpush, hevents]
      exact List.getLast?_concat
    · rw [hpush]
      simp only [hevents]
      exact List.getLast?_concat
  -- a read can only turn the status to `expired`
  have hevents' : session.events = (s.push name data updates).session.events := by
    rcases hsession with rfl | rfl
    · rfl
    · rfl
  have hpublic' : session.publicToken = (s.push name data updates).session.publicToken := by
    rcases hsession with rfl | rfl
    · rfl
    · rfl
  rw [heq]
  constructor
  · -- the webhook, the event and the session say the same token
    rintro (⟨webhook', hlast', htoken⟩ | ⟨ht, ⟨event, hlast', htoken⟩ | htoken⟩)
    · obtain rfl : webhook = webhook' := Option.some.inj (hlast.symm.trans hlast')
      rw [← hdata, ← hwebhookData]
      exact htoken
    · obtain ⟨event', hlast'', heventData⟩ := hsessionEvents (hstored.symm.trans ht)
      simp only [hevents'] at hlast'
      obtain rfl : event' = event := Option.some.inj (hlast''.symm.trans hlast')
      rw [← hsanitized, ← heventData]
      exact htoken
    · simp only [hpublic'] at htoken
      exact hsessionPublic (hstored.symm.trans ht) htoken
  · -- the webhook alone names it
    intro htoken
    refine .inl ⟨webhook, hlast, ?_⟩
    rw [hwebhookData, hdata]
    exact htoken

/-- What a reconcile that announces leaves. -/
theorem reconcileWrite_announced (hs : RowsInv userId s) {reconcile : Reconcile}
    (hsession : Backed userId s reconcile.session) (hread : reconcile.session.Attached userId)
    (hlive : s.session.Attached userId) {fresh : String}
    (h : reconcileWrite s reconcile fresh = some t) (hannouncing : s.announcing reconcile = true) :
    Announced userId s t := by
  simp only [State.announcing, Bool.and_eq_true, beq_iff_eq, bne_iff_ne] at hannouncing
  obtain ⟨hjob, hstatus⟩ := hannouncing
  have hcompleted := (runtime_completed_iff s reconcile.job).mpr hjob
  unfold reconcileWrite at h
  simp only [hcompleted] at h
  obtain ⟨r, hr, heq⟩ := Option.bind_eq_some_iff.mp h
  obtain rfl := Option.some.inj heq
  obtain ⟨publicTokens, hr2⟩ := completedPublicToken_eq hr
  -- the session that is written is attached to the user in either backend
  have hattached : (s.held reconcile.session).Attached userId := by
    unfold State.held
    cases s.backend with
    | redis => exact hread
    | memory => exact hlive
  have hcases := hs.rows.completedPublicToken_cases (hs.held hsession) hattached hr
  -- where no token is minted the session has none either
  have hnone : r.1 = none → s.session.publicToken = none := by
    intro hnone
    rcases hcases with ⟨huser, -⟩ | ⟨row, -, hsome, -⟩
    · -- nobody's session has no public token
      by_contra hsome
      obtain ⟨token, htoken⟩ := Option.ne_none_iff_exists'.mp hsome
      obtain ⟨row, hrow, -⟩ := hs.session.minted token htoken
      rw [huser] at hs
      cases (hs.rows.minted row hrow).1
    · rw [hnone] at hsome
      cases hsome
  -- all three places name what was minted
  have hnamed : ∀ token, Named (reconcileCompleted r.2 (s.held reconcile.session) reconcile.job
      (serializeAccessJobRuntime s reconcile.job) r.1).touch token ↔ r.1 = some token := by
    intro token
    unfold reconcileCompleted
    simp only []
    rw [if_pos hstatus]
    apply named_push
    · rfl
    · exact fun _ => rfl
    · exact fun _ => rfl
    · intro hp
      rw [hr2]
      exact hnone hp
    · cases r.1 <;> rfl
    · cases r.1 with
      | none =>
          simp only [sanitizeMembers, sanitizeHostedEventData, hostedEventForbiddenKeys, optStr]
          rfl
      | some publicToken =>
          simp only [sanitizeMembers, sanitizeHostedEventData, hostedEventForbiddenKeys, optStr]
          rfl
  -- apart from the session and the webhooks nothing changes
  have honly : State.SessionOnly r.2 (reconcileCompleted r.2 (s.held reconcile.session)
      reconcile.job (serializeAccessJobRuntime s reconcile.job) r.1).touch := by
    refine State.SessionOnly.trans ?_ (State.touch_sessionOnly _)
    unfold reconcileCompleted
    simp only []
    rw [if_pos hstatus]
    exact State.push_sessionOnly _ _ _ _
  obtain ⟨session, webhooks, heq⟩ := honly
  rw [heq] at hnamed ⊢
  refine ⟨by rw [hr2], by rw [hr2], by rw [hr2], ?_⟩
  rcases hcases with ⟨huser, hr1⟩ | ⟨row, huser, hr1, hrows, haccess, hold⟩
  · -- nobody is signed in, and no token is named
    refine .inl ⟨huser, fun token htoken => ?_⟩
    have hsome := (hnamed token).mp htoken
    rw [hr1] at hsome
    cases hsome
  · -- the token is that of the row
    refine .inr ⟨row, huser, fun token => ?_, hrows, haccess, hold⟩
    rw [hnamed token, hr1, Option.some.injEq]

/-- Only the reconcile of a poll announces: a `connect` goes by the row it has
created, which is pending. -/
theorem step_announced (hs : RowsInv userId s) {l : Label} {reconcile : Reconcile}
    (hannounced : announcedBy s l = some reconcile) (h : step s l = some t) :
    Announced userId s t := by
  obtain ⟨hreconcile, hannouncing⟩ := Option.filter_eq_some_iff.mp hannounced
  cases l with
  | polled i fresh =>
      have hpoll : s.polls i = some reconcile := hreconcile
      obtain ⟨hbacked, hread, hlive⟩ := hs.polls i reconcile hpoll
      have hs' : RowsInv userId (s.setPoll i none) := hs.setPoll i fun r hr => by cases hr
      simp only [step, hpoll] at h
      have ht := reconcileWrite_announced hs' ⟨hbacked.user, hbacked.access, hbacked.minted⟩
        hread hlive h hannouncing
      exact ⟨ht.now, ht.link, ht.accessTokens, ht.named⟩
  | reconciled i fresh =>
      simp only [reconcileOf] at hreconcile
      split at hreconcile
      · rename_i held hconnect
        obtain rfl := Option.some.inj hreconcile
        obtain ⟨hpending, -⟩ := hs.connects i _ hconnect
        simp [State.announcing, hpending] at hannouncing
      · cases hreconcile
  | _ => cases hreconcile

end

/-! ## Every announced public token can be redeemed -/

/-- The owner can exchange the token, now and until it expires. -/
def Redeemable (s : State) (token : String) : Prop :=
  ∃ row, s.publicTokens.get? token = some row ∧ s.now ≤ row.expiresAt ∧
    ∀ milliseconds, s.now + milliseconds ≤ row.expiresAt →
      ∃ r, exchangePublicToken { s with now := s.now + milliseconds } row.userId token = .ok r

/-- That is so where it is unexchanged and unexpired. -/
theorem redeemable_iff {s : State} {token : String} :
    Redeemable s token ↔ ∃ row, s.publicTokens.get? token = some row ∧ row.exchanged = false ∧
      s.now ≤ row.expiresAt := by
  constructor
  · rintro ⟨row, hget, hnow, hexchange⟩
    refine ⟨row, hget, ?_, hnow⟩
    obtain ⟨r, hr⟩ := hexchange 0 hnow
    by_contra hexchanged
    have htrue : row.exchanged = true := by simpa using hexchanged
    simp [exchangePublicToken, hget, htrue] at hr
  · rintro ⟨row, hget, hexchanged, hnow⟩
    refine ⟨row, hget, hnow, fun milliseconds hle => ?_⟩
    have hlt : ¬ row.expiresAt < s.now + milliseconds := by omega
    simp [exchangePublicToken, hget, hexchanged, hlt]

/-- Each public token that the step announces can be redeemed. -/
def AnnouncesRedeemable (s : State) (l : Label) : Prop :=
  ∀ t, step s l = some t → (announcedBy s l).isSome = true →
    ∀ token, Named t token → Redeemable t token

/-- If the step announces, no public token of the link token was exchanged or has
expired. -/
def Unspent (s : State) (l : Label) : Bool :=
  (announcedBy s l).isNone ||
    s.publicTokens.rows.all fun row => !row.exchanged && decide (s.now ≤ row.expiresAt)

theorem announcesRedeemable_iff {userId : Option Nat} {s t : State} {l : Label}
    (hs : RowsInv userId s) (h : step s l = some t) :
    AnnouncesRedeemable s l ↔ Unspent s l = true := by
  cases hannounced : announcedBy s l with
  | none => simp [AnnouncesRedeemable, Unspent, hannounced]
  | some reconcile =>
      have ht := step_announced hs hannounced h
      have hiff : AnnouncesRedeemable s l ↔ ∀ token, Named t token → Redeemable t token := by
        simp [AnnouncesRedeemable, hannounced, h]
      have hunspent : Unspent s l = true ↔
          ∀ row ∈ s.publicTokens.rows, row.exchanged = false ∧ s.now ≤ row.expiresAt := by
        simp [Unspent, hannounced]
      rw [hiff, hunspent]
      rcases ht.named with ⟨huser, hnone⟩ | ⟨row, -, hnamed, hrows, -, hold⟩
      · refine iff_of_true (fun token htoken => absurd htoken (hnone token)) ?_
        intro row hrow
        rw [huser] at hs
        cases (hs.rows.minted row hrow).1
      · have hget : t.publicTokens.get? row.token = some row :=
          Table.get?_of_mem (by rw [hrows]; exact List.mem_singleton.mpr rfl)
        have hredeemable : (∀ token, Named t token → Redeemable t token) ↔
            row.exchanged = false ∧ s.now ≤ row.expiresAt := by
          constructor
          · intro hall
            obtain ⟨row', hget', hexchanged, hnow⟩ :=
              redeemable_iff.mp (hall row.token ((hnamed row.token).mpr rfl))
            obtain rfl : row = row' := Option.some.inj (hget.symm.trans hget')
            exact ⟨hexchanged, ht.now ▸ hnow⟩
          · rintro ⟨hexchanged, hnow⟩ token htoken
            obtain rfl := (hnamed token).mp htoken
            exact redeemable_iff.mpr ⟨row, hget, hexchanged, ht.now.symm ▸ hnow⟩
        rw [hredeemable]
        rcases hold with hold | ⟨hempty, hexchanged, hexpires⟩
        · simp [hold]
        · -- a new token is redeemable, and there was none before
          refine iff_of_true ⟨hexchanged, by omega⟩ ?_
          simp [hempty]

section

variable {backend : Links.Backend} {linkToken : String} {now : Nat} {site : Option String}
  {userId : Option Nat} {u : State} {run : List Label}

/-- What is equivalent in every step is so along a run. -/
theorem along_congr {P C : State → Label → Prop}
    (hPC : ∀ s l t, RowsInv userId s → step s l = some t → (P s l ↔ C s l))
    (h : Runs.exec step (init backend linkToken now site userId) run = some u) :
    Runs.Along step P (init backend linkToken now site userId) run ↔
      Runs.Along step C (init backend linkToken now site userId) run :=
  Runs.along_congr (fun _ _ _ hs h => hs.step h) hPC
    (init_rowsInv backend linkToken now site userId) h

/-- **Redeemable tokens.** In a history every announced public token can be
redeemed exactly when no announcement comes after the link's public token was
exchanged or has expired. -/
theorem announced_redeemable_iff
    (h : Runs.exec step (init backend linkToken now site userId) run = some u) :
    Runs.Along step AnnouncesRedeemable (init backend linkToken now site userId) run ↔
      Runs.Along step (fun s l => Unspent s l = true) (init backend linkToken now site userId) run :=
  along_congr (fun _ _ _ hs h => announcesRedeemable_iff hs h) h

end

/-- A connection on a hosted link that completes and is polled. -/
def connectedOnce (request : ConnectRequest) (i : Nat) (id sessionId : String) : List Label :=
  [.connect i request "access" true,
    .start i id sessionId "scope",
    .writeJob id (AccessJobs.runningState 1000),
    .writeJob id (AccessJobs.completedState 2000 none [("status", .str "connected")]),
    .poll i, .polled i "public"]

/-- Somebody connects twice, and the owner exchanges the token in between or at
the end. -/
def reconnected (early late : List Label) : List Label :=
  connectedOnce ⟨"bank", "user", "old", none⟩ 1 "job-1" "mfa-1" ++ early ++
    connectedOnce ⟨"bank", "user", "new", none⟩ 2 "job-2" "mfa-2" ++ late

theorem exchangedLate_redeemable :
    ∃ u, Runs.exec step (init .redis "link" 0 none (some 1))
        (reconnected [] [.exchange 1 "public"]) = some u ∧
      u.linkComplete "job-2" = 1 ∧
      Runs.Along step AnnouncesRedeemable (init .redis "link" 0 none (some 1))
        (reconnected [] [.exchange 1 "public"]) := by
  have hcount : (Runs.exec step (init .redis "link" 0 none (some 1))
      (reconnected [] [.exchange 1 "public"])).map (fun u => u.linkComplete "job-2") =
        some 1 := by decide +kernel
  obtain ⟨u, hu, hone⟩ := Option.map_eq_some_iff.mp hcount
  exact ⟨u, hu, hone, (announced_redeemable_iff hu).mpr (by decide +kernel)⟩

/-- The second connection announces the token that was exchanged after the first. -/
theorem exchangedEarly_not_redeemable :
    ¬ ∀ (backend : Links.Backend) (linkToken : String) (now : Nat) (site : Option String)
        (userId : Option Nat) (run : List Label) (u : State),
      Runs.exec step (init backend linkToken now site userId) run = some u →
        Runs.Along step AnnouncesRedeemable (init backend linkToken now site userId) run := by
  intro hall
  have hsome : (Runs.exec step (init .redis "link" 0 none (some 1))
      (reconnected [.exchange 1 "public"] [])).isSome = true := by decide +kernel
  obtain ⟨u, hu⟩ := Option.isSome_iff_exists.mp hsome
  have halong := hall .redis "link" 0 none (some 1) _ u hu
  have hunspent := (along_congr (fun _ _ _ hs h => announcesRedeemable_iff hs h) hu).mp halong
  exact absurd hunspent (by decide +kernel)

/-! ## What is announced is what was connected -/

/-- The access token behind the public token has the site and the credentials of
the request. -/
def ResolvesTo (s : State) (token : String) (request : ConnectRequest) : Prop :=
  ∃ row access, s.publicTokens.get? token = some row ∧
    s.accessTokens.get? row.accessToken = some access ∧ access.username = request.username ∧
      access.password = request.password ∧ s.link = some request.site

/-- Each public token that the step announces resolves to what the job was started
with. -/
def AnnouncesOwn (s : State) (l : Label) : Prop :=
  ∀ t, step s l = some t → ∀ reconcile, announcedBy s l = some reconcile →
    ∀ request, s.executorKwargs reconcile.job.id = some request →
      ∀ token, Named t token → ResolvesTo t token request

/-- If the step announces a job, the last `POST /connect` on the link token was for
the site of the job, with its credentials. -/
def LastConnected (s : State) (l : Label) : Bool :=
  (announcedBy s l).all fun reconcile =>
    (s.executorKwargs reconcile.job.id).all fun request =>
      s.lastRequest.all fun last =>
        last.site == request.site && last.username == request.username &&
          last.password == request.password

theorem announcesOwn_iff {userId : Option Nat} {s t : State} {l : Label}
    (hs : RowsInv userId s) (h : step s l = some t) :
    AnnouncesOwn s l ↔ LastConnected s l = true := by
  cases hannounced : announcedBy s l with
  | none => simp [AnnouncesOwn, LastConnected, hannounced]
  | some reconcile =>
      have ht := step_announced hs hannounced h
      cases hkwargs : s.executorKwargs reconcile.job.id with
      | none => simp [AnnouncesOwn, LastConnected, hannounced, hkwargs]
      | some request =>
          have hiff : AnnouncesOwn s l ↔ ∀ token, Named t token → ResolvesTo t token request := by
            simp [AnnouncesOwn, hannounced, h, hkwargs]
          rw [hiff]
          rcases ht.named with ⟨huser, hnone⟩ | ⟨row, -, hnamed, hrows, ⟨access, haccess, htoken⟩, -⟩
          · refine iff_of_true (fun token htoken => absurd htoken (hnone token)) ?_
            simp [LastConnected, hannounced, hs.rows.lastRequest huser]
          · obtain ⟨-, last, hlast, husername, hpassword, hlink⟩ := hs.rows.access access haccess
            have hget : t.publicTokens.get? row.token = some row :=
              Table.get?_of_mem (by rw [hrows]; exact List.mem_singleton.mpr rfl)
            have hgetAccess : t.accessTokens.get? row.accessToken = some access := by
              rw [ht.accessTokens, ← htoken]
              exact Table.get?_of_mem haccess
            have hlast' : LastConnected s l = true ↔ last.site = request.site ∧
                last.username = request.username ∧ last.password = request.password := by
              simp [LastConnected, hannounced, hkwargs, hlast, and_assoc]
            rw [hlast']
            constructor
            · intro hall
              obtain ⟨row', access', hget', hgetAccess', hname, hword, hsite⟩ :=
                hall row.token ((hnamed row.token).mpr rfl)
              obtain rfl : row = row' := Option.some.inj (hget.symm.trans hget')
              obtain rfl : access = access' :=
                Option.some.inj (hgetAccess.symm.trans hgetAccess')
              rw [ht.link, hlink] at hsite
              exact ⟨Option.some.inj hsite, husername ▸ hname, hpassword ▸ hword⟩
            · rintro ⟨hsite, hname, hword⟩ token hnamed'
              obtain rfl := (hnamed token).mp hnamed'
              refine ⟨row, access, hget, hgetAccess, husername.trans hname,
                hpassword.trans hword, ?_⟩
              rw [ht.link, hlink, hsite]

/-- **Announced as connected.** In a history every announced public token resolves
to what its job was started with exactly when, at each announcement, the last
`POST /connect` on the link token was for that site with those credentials. -/
theorem announced_own_iff {backend : Links.Backend} {linkToken : String} {now : Nat}
    {site : Option String} {userId : Option Nat} {u : State} {run : List Label}
    (h : Runs.exec step (init backend linkToken now site userId) run = some u) :
    Runs.Along step AnnouncesOwn (init backend linkToken now site userId) run ↔
      Runs.Along step (fun s l => LastConnected s l = true)
        (init backend linkToken now site userId) run :=
  along_congr (fun _ _ _ hs h => announcesOwn_iff hs h) h

theorem reconnected_announcesOwn :
    ∃ u, Runs.exec step (init .redis "link" 0 none (some 1)) (reconnected [] []) = some u ∧
      u.linkComplete "job-2" = 1 ∧
      Runs.Along step AnnouncesOwn (init .redis "link" 0 none (some 1)) (reconnected [] []) := by
  have hcount : (Runs.exec step (init .redis "link" 0 none (some 1)) (reconnected [] [])).map
      (fun u => u.linkComplete "job-2") = some 1 := by decide +kernel
  obtain ⟨u, hu, hone⟩ := Option.map_eq_some_iff.mp hcount
  exact ⟨u, hu, hone, (announced_own_iff hu).mpr (by decide +kernel)⟩

/-- Two connections at once. The second overwrites the rows; the first meets an MFA
prompt, takes the session back, and completes. -/
def overlapping : List Label :=
  [.connect 1 ⟨"bank", "user", "right", none⟩ "access" true,
    .start 1 "job-1" "mfa-1" "scope",
    .writeJob "job-1" (AccessJobs.runningState 1000),
    .connect 2 ⟨"utility", "other", "wrong", none⟩ "access-2" true,
    .start 2 "job-2" "mfa-2" "scope-2",
    .createMfa "mfa-1" ⟨"bank", "otp", [], 300, Mfa.defaultMfaTtl_pos⟩,
    .finish 1 .mfaSession,
    .submitMfa "mfa-1" "123456",
    .writeJob "job-1" (AccessJobs.completedState 2000 none [("status", .str "connected")]),
    .removeMfa "mfa-1",
    .poll 1, .polled 1 "public"]

/-- The first job is announced with the site and the credentials of the second. -/
theorem overlapping_not_own :
    ¬ ∀ (backend : Links.Backend) (linkToken : String) (now : Nat) (site : Option String)
        (userId : Option Nat) (run : List Label) (u : State),
      Runs.exec step (init backend linkToken now site userId) run = some u →
        Runs.Along step AnnouncesOwn (init backend linkToken now site userId) run := by
  intro hall
  have hsome : (Runs.exec step (init .redis "link" 0 none (some 1)) overlapping).isSome =
      true := by decide +kernel
  obtain ⟨u, hu⟩ := Option.isSome_iff_exists.mp hsome
  have halong := hall .redis "link" 0 none (some 1) _ u hu
  have hlast := (along_congr (fun _ _ _ hs h => announcesOwn_iff hs h) hu).mp halong
  exact absurd hlast (by decide +kernel)

end Plaidify.HostedLink
