import Plaidify.HostedLink.Connections

/-!
# The rows of a link token

All connections on a link token share one row of `access_tokens`, which the last
of them has written, and with it one row of `public_tokens`, which the first
completed one has minted. The sessions that requests hold name no other rows.
-/

namespace Plaidify.HostedLink

open AccessJobs (Dict Job)

/-- There is an access token with this value. -/
def State.HasAccess (s : State) (token : String) : Prop :=
  ∃ row ∈ s.accessTokens.rows, row.token = token

/-- There is a public token with this value. -/
def State.HasPublic (s : State) (token : String) : Prop :=
  ∃ row ∈ s.publicTokens.rows, row.token = token

/-- The rows of a link token whose session is the user's. -/
structure LinkRows (userId : Option Nat) (s : State) : Prop where
  oneAccess : s.accessTokens.rows.length ≤ 1
  access : ∀ row ∈ s.accessTokens.rows, userId = some row.userId ∧
    ∃ last, s.lastRequest = some last ∧ row.username = last.username ∧
      row.password = last.password ∧ s.link = some last.site
  onePublic : s.publicTokens.rows.length ≤ 1
  minted : ∀ row ∈ s.publicTokens.rows, userId = some row.userId ∧ s.HasAccess row.accessToken
  lastRequest : userId = none → s.lastRequest = none

/-- A session, stored or held, that goes with the rows. -/
structure Backed (userId : Option Nat) (s : State) (session : LinkSession) : Prop where
  user : session.userId = userId
  access : ∀ token, session.accessToken = some token → s.HasAccess token
  minted : ∀ token, session.publicToken = some token → s.HasPublic token

/-- The session has an access token, as soon as its user may have one. -/
def LinkSession.Attached (userId : Option Nat) (session : LinkSession) : Prop :=
  userId.isSome = true → session.accessToken.isSome = true

/-- The access token of a `connect` goes with the rows. -/
structure Granted (userId : Option Nat) (s : State) (token : Option String) : Prop where
  attached : userId.isSome = true → token.isSome = true
  access : ∀ value, token = some value → s.HasAccess value

/-- What holds of a `connect` that is under way. The row of the job that it holds
is the one that was created. -/
def ConnectInv (userId : Option Nat) (s : State) : Connect → Prop
  | .ensured _ hosted _ => ∀ token, hosted = some token → Granted userId s token
  | .waiting _ hosted job =>
      job.status = .pending ∧ ∀ token, hosted = some token →
        Granted userId s token ∧ (s.stored = true → s.session.Attached userId)
  | .reconciling reconcile =>
      reconcile.job.status = .pending ∧ Backed userId s reconcile.session ∧
        s.session.Attached userId

/-- What holds of a link token in every state: its rows, its session and what its
requests hold. -/
structure RowsInv (userId : Option Nat) (s : State) : Prop where
  rows : LinkRows userId s
  session : Backed userId s s.session
  attached : s.session.currentJobId.isSome = true → s.session.Attached userId
  polls : ∀ i reconcile, s.polls i = some reconcile →
    Backed userId s reconcile.session ∧ reconcile.session.Attached userId ∧
      s.session.Attached userId
  connects : ∀ i connect, s.connects i = some connect → ConnectInv userId s connect

/-! ## The rows -/

section

variable {userId : Option Nat} {s t : State}

/-- Two members of a list that has at most one. -/
theorem eq_of_length_le_one {α : Type*} {l : List α} {a b : α} (h : l.length ≤ 1) (ha : a ∈ l)
    (hb : b ∈ l) : a = b := by
  obtain ⟨n, hn, rfl⟩ := List.getElem_of_mem ha
  obtain ⟨m, hm, rfl⟩ := List.getElem_of_mem hb
  obtain rfl : n = m := by omega
  rfl

/-- The query for the access token of the user finds the one row there is. -/
theorem LinkRows.existingAccessToken_eq_none (hs : LinkRows userId s) {user : Nat}
    (huser : userId = some user) (h : s.existingAccessToken user = none) :
    s.accessTokens.rows = [] := by
  have hnone := List.argmax_eq_none.mp h
  refine List.eq_nil_iff_forall_not_mem.mpr fun row hrow => ?_
  have hmem : row ∈ s.accessTokens.rows.filter fun row => row.userId == user := by
    have heq := huser.symm.trans (hs.access row hrow).1
    exact List.mem_filter.mpr ⟨hrow, by simp [Option.some.inj heq]⟩
  rw [hnone] at hmem
  cases hmem

/-- So does the query for the public token. -/
theorem LinkRows.existingPublicToken_eq_none (hs : LinkRows userId s) {user : Nat}
    {accessToken : String} (huser : userId = some user) (haccess : s.HasAccess accessToken)
    (h : s.existingPublicToken accessToken user = none) : s.publicTokens.rows = [] := by
  have hnone := List.argmax_eq_none.mp h
  refine List.eq_nil_iff_forall_not_mem.mpr fun row hrow => ?_
  obtain ⟨hrowUser, arow, harow, hrowToken⟩ := hs.minted row hrow
  obtain ⟨arow', harow', rfl⟩ := haccess
  obtain rfl := eq_of_length_le_one hs.oneAccess harow harow'
  have hmem : row ∈ s.publicTokens.rows.filter fun row =>
      row.accessToken == arow.token && row.userId == user := by
    have heq := huser.symm.trans hrowUser
    exact List.mem_filter.mpr ⟨hrow, by simp [hrowToken, Option.some.inj heq]⟩
  rw [hnone] at hmem
  cases hmem

/-- The rows after `connect` has written them are those of its request. -/
theorem LinkRows.writeLinkRows (hs : LinkRows userId s) {user : Nat} (huser : userId = some user)
    {request : ConnectRequest} {fresh : String} {r : String × State}
    (h : writeLinkRows s user request fresh = some r) :
    LinkRows userId r.2 ∧ r.2.HasAccess r.1 ∧ ∀ token, s.HasAccess token → r.2.HasAccess token := by
  -- with one row, which has the request's credentials and the token of the rows before
  have hstate : ∀ accessTokens : Table AccessToken AccessToken.token, ∀ row : AccessToken,
      accessTokens.rows = [row] → row.userId = user → row.username = request.username →
      row.password = request.password →
      (∀ token, s.HasAccess token → row.token = token) →
      LinkRows userId { s with
        link := some request.site
        lastRequest := some request
        accessTokens := accessTokens } := by
    intro accessTokens row hrows hrow husername hpassword htokens
    refine ⟨?_, ?_, hs.onePublic, ?_, ?_⟩
    · simp [hrows]
    · intro row' hrow'
      simp only [hrows, List.mem_singleton] at hrow'
      subst hrow'
      exact ⟨by rw [huser, hrow], request, rfl, husername, hpassword, rfl⟩
    · intro row' hrow'
      obtain ⟨huser', htoken⟩ := hs.minted row' hrow'
      exact ⟨huser', row, by simp [hrows], htokens _ htoken⟩
    · intro hnone
      rw [huser] at hnone
      cases hnone
  unfold HostedLink.writeLinkRows at h
  simp only [] at h
  split at h
  · -- the row that is there is overwritten
    rename_i row hrow
    obtain rfl := Option.some.inj h
    -- the row is one of the user's
    have hmem := (List.mem_filter.mp (List.argmax_mem hrow)).1
    have hmemUser := (List.mem_filter.mp (List.argmax_mem hrow)).2
    -- and the only one there is
    have hrows : s.accessTokens.rows = [row] := by
      obtain ⟨row', hrow'⟩ := List.length_eq_one_iff.mp
        (Nat.le_antisymm hs.oneAccess (List.length_pos_of_mem hmem))
      rw [hrow'] at hmem ⊢
      rw [List.mem_singleton.mp hmem]
    -- so its token is the one that was handed out
    have htokens : ∀ token, s.HasAccess token → row.token = token := by
      rintro token ⟨row', hrow', rfl⟩
      rw [eq_of_length_le_one hs.oneAccess hmem hrow']
    -- the write leaves the table with that row alone
    have hput : (s.accessTokens.put { row with
        username := request.username, password := request.password, updatedAt := s.now }).rows =
          [{ row with
            username := request.username, password := request.password, updatedAt := s.now }] := by
      simp [Table.put_rows, hrows]
    refine ⟨hstate _ _ hput (by simpa using hmemUser) rfl rfl htokens, ?_, ?_⟩
    · exact ⟨_, Table.mem_put_self hmem rfl, rfl⟩
    · intro token htoken
      exact ⟨_, Table.mem_put_self hmem rfl, htokens token htoken⟩
  · -- the first row
    rename_i hnone
    obtain ⟨accessTokens, hinsert, rfl⟩ := Option.map_eq_some_iff.mp h
    have hempty : s.accessTokens.rows = [] := hs.existingAccessToken_eq_none huser hnone
    have hrows := (Table.insert?_eq_some hinsert).2
    rw [hempty, List.nil_append] at hrows
    -- no token was handed out before
    have htokens : ∀ token, ¬ s.HasAccess token := by
      rintro token ⟨row, hrow, -⟩
      rw [hempty] at hrow
      cases hrow
    refine ⟨hstate _ _ hrows rfl rfl rfl fun token h => absurd h (htokens token), ?_, ?_⟩
    · exact ⟨_, by rw [hrows]; exact List.mem_singleton.mpr rfl, rfl⟩
    · intro token htoken
      exact absurd htoken (htokens token)

/-- A public token is minted only where there is none. -/
theorem LinkRows.ensurePublicToken (hs : LinkRows userId s) {user : Nat}
    (huser : userId = some user) {accessToken fresh : String} (haccess : s.HasAccess accessToken)
    {r : String × State} (h : ensurePublicToken s accessToken user fresh = some r) :
    LinkRows userId r.2 ∧ r.2.HasPublic r.1 ∧ ∀ token, s.HasPublic token → r.2.HasPublic token := by
  unfold HostedLink.ensurePublicToken at h
  split at h
  · -- the newest one that is there
    rename_i row hrow
    obtain rfl := Option.some.inj h
    exact ⟨hs, ⟨row, (List.mem_filter.mp (List.argmax_mem hrow)).1, rfl⟩, fun _ h => h⟩
  · rename_i hnone
    obtain ⟨publicTokens, hinsert, rfl⟩ := Option.map_eq_some_iff.mp h
    have hempty := hs.existingPublicToken_eq_none huser haccess hnone
    have hrows := (Table.insert?_eq_some hinsert).2
    rw [hempty, List.nil_append] at hrows
    refine ⟨⟨hs.oneAccess, hs.access, ?_, ?_, hs.lastRequest⟩, ?_, ?_⟩
    · simp [hrows]
    · intro row hrow
      simp only [hrows, List.mem_singleton] at hrow
      subst hrow
      exact ⟨huser, haccess⟩
    · exact ⟨_, by rw [hrows]; exact List.mem_singleton.mpr rfl, rfl⟩
    · rintro token ⟨row, hrow, -⟩
      rw [hempty] at hrow
      cases hrow

/-- The public token of a completed session, which is one of the user's. -/
theorem LinkRows.completedPublicToken (hs : LinkRows userId s) {session : LinkSession}
    (hsession : Backed userId s session) {fresh : String} {r : Option String × State}
    (h : completedPublicToken s session fresh = some r) :
    LinkRows userId r.2 ∧ (∀ token, r.1 = some token → r.2.HasPublic token) ∧
      ∀ token, s.HasPublic token → r.2.HasPublic token := by
  unfold HostedLink.completedPublicToken at h
  -- the session's own token, one that is minted for it, or none
  split at h
  · rename_i publicToken hpublic
    obtain rfl := Option.some.inj h
    refine ⟨hs, ?_, fun _ h => h⟩
    intro token htoken
    obtain rfl : publicToken = token := Option.some.inj htoken
    exact hsession.minted _ hpublic
  · rename_i accessToken user hpublic haccess hsessionUser
    obtain ⟨r', hr', rfl⟩ := Option.map_eq_some_iff.mp h
    have huser : userId = some user := hsession.user.symm.trans hsessionUser
    obtain ⟨hrows, hpublic, hkept⟩ :=
      hs.ensurePublicToken huser (hsession.access _ haccess) hr'
    refine ⟨hrows, ?_, hkept⟩
    intro token htoken
    obtain rfl := Option.some.inj htoken
    exact hpublic
  · obtain rfl := Option.some.inj h
    exact ⟨hs, by simp, fun _ h => h⟩

/-- An exchange keeps the rows, but for the mark. -/
theorem LinkRows.exchangePublicToken (hs : LinkRows userId s) {user : Nat} {publicToken : String}
    {r : String × State} (h : exchangePublicToken s user publicToken = .ok r) :
    LinkRows userId r.2 ∧ ∀ token, s.HasPublic token → r.2.HasPublic token := by
  unfold HostedLink.exchangePublicToken at h
  split at h
  · cases h
  · rename_i row hget
    split at h
    · cases h
    · split at h
      · cases h
      · split at h
        · cases h
        · -- the one row is put back with its mark
          obtain rfl := Except.ok.inj h
          obtain ⟨hmem, -⟩ := Table.get?_mem hget
          have hrows : s.publicTokens.rows = [row] := by
            obtain ⟨row', hrow'⟩ := List.length_eq_one_iff.mp
              (Nat.le_antisymm hs.onePublic (List.length_pos_of_mem hmem))
            rw [hrow'] at hmem ⊢
            rw [List.mem_singleton.mp hmem]
          have hput : (s.publicTokens.put { row with exchanged := true }).rows =
              [{ row with exchanged := true }] := by simp [Table.put_rows, hrows]
          refine ⟨⟨hs.oneAccess, hs.access, ?_, ?_, hs.lastRequest⟩, ?_⟩
          · show (s.publicTokens.put _).rows.length ≤ 1
            rw [hput]
            exact Nat.le_refl 1
          · intro row' hrow'
            simp only [hput, List.mem_singleton] at hrow'
            subst hrow'
            exact hs.minted row hmem
          · rintro token ⟨row', hrow', rfl⟩
            rw [hrows, List.mem_singleton] at hrow'
            subst hrow'
            exact ⟨_, Table.mem_put_self hmem rfl, rfl⟩

/-! ## Sessions that go with the rows -/

/-- A session goes with more rows as well. -/
theorem Backed.mono {session : LinkSession} (h : Backed userId s session)
    (haccess : ∀ token, s.HasAccess token → t.HasAccess token)
    (hpublic : ∀ token, s.HasPublic token → t.HasPublic token) : Backed userId t session where
  user := h.user
  access token htoken := haccess token (h.access token htoken)
  minted token htoken := hpublic token (h.minted token htoken)

/-- So does an access token that was granted. -/
theorem Granted.mono {token : Option String} (h : Granted userId s token)
    (haccess : ∀ token, s.HasAccess token → t.HasAccess token) : Granted userId t token where
  attached := h.attached
  access value hvalue := haccess value (h.access value hvalue)

/-- And a connection that is under way, as long as the session keeps its access token. -/
theorem ConnectInv.mono {connect : Connect} (h : ConnectInv userId s connect)
    (haccess : ∀ token, s.HasAccess token → t.HasAccess token)
    (hpublic : ∀ token, s.HasPublic token → t.HasPublic token)
    (hattached : s.session.Attached userId → t.session.Attached userId)
    (hstored : t.stored = true → s.stored = true) : ConnectInv userId t connect := by
  cases connect with
  | ensured request hosted user =>
      intro token htoken
      exact (h token htoken).mono haccess
  | waiting request hosted job =>
      refine ⟨h.1, fun token htoken => ?_⟩
      obtain ⟨hgranted, hsession⟩ := h.2 token htoken
      exact ⟨hgranted.mono haccess, fun ht => hattached (hsession (hstored ht))⟩
  | reconciling reconcile =>
      exact ⟨h.1, h.2.1.mono haccess hpublic, hattached h.2.2⟩

/-- A step that leaves the requests alone. -/
theorem RowsInv.frame (hs : RowsInv userId s) (hrows : LinkRows userId t)
    (haccess : ∀ token, s.HasAccess token → t.HasAccess token)
    (hpublic : ∀ token, s.HasPublic token → t.HasPublic token)
    (hsession : Backed userId t t.session)
    (hcurrent : t.session.currentJobId.isSome = true → t.session.Attached userId)
    (hattached : s.session.Attached userId → t.session.Attached userId)
    (hstored : t.stored = true → s.stored = true) (hpolls : t.polls = s.polls)
    (hconnects : t.connects = s.connects) : RowsInv userId t where
  rows := hrows
  session := hsession
  attached := hcurrent
  polls i reconcile h := by
    rw [hpolls] at h
    obtain ⟨hbacked, hread, hlive⟩ := hs.polls i reconcile h
    exact ⟨hbacked.mono haccess hpublic, hread, hattached hlive⟩
  connects i connect h := by
    rw [hconnects] at h
    exact (hs.connects i connect h).mono haccess hpublic hattached hstored

/-- A step that touches neither the session, nor the rows, nor the requests. -/
theorem RowsInv.of_eq (hs : RowsInv userId s) (hsession : t.session = s.session)
    (haccess : t.accessTokens = s.accessTokens) (hpublic : t.publicTokens = s.publicTokens)
    (hlink : t.link = s.link) (hlast : t.lastRequest = s.lastRequest)
    (hstored : t.stored = true → s.stored = true) (hpolls : t.polls = s.polls)
    (hconnects : t.connects = s.connects) : RowsInv userId t := by
  have hasAccess : ∀ token, s.HasAccess token → t.HasAccess token := by
    intro token
    unfold State.HasAccess
    rw [haccess]
    exact fun h => h
  have hasPublic : ∀ token, s.HasPublic token → t.HasPublic token := by
    intro token
    unfold State.HasPublic
    rw [hpublic]
    exact fun h => h
  have hrows : LinkRows userId t := by
    refine ⟨?_, ?_, ?_, ?_, ?_⟩
    · rw [haccess]
      exact hs.rows.oneAccess
    · rw [haccess, hlast, hlink]
      exact hs.rows.access
    · rw [hpublic]
      exact hs.rows.onePublic
    · rw [hpublic]
      intro row hrow
      obtain ⟨huser, htoken⟩ := hs.rows.minted row hrow
      exact ⟨huser, hasAccess _ htoken⟩
    · rw [hlast]
      exact hs.rows.lastRequest
  refine hs.frame hrows hasAccess hasPublic ?_ ?_ ?_ hstored hpolls hconnects
  · rw [hsession]
    exact hs.session.mono hasAccess hasPublic
  · rw [hsession]
    exact hs.attached
  · rw [hsession]
    exact fun h => h

/-- A session may be replaced by one that goes with the rows and keeps its access
token. -/
structure Fits (userId : Option Nat) (s : State) (session : LinkSession) : Prop where
  backed : Backed userId s session
  attached : session.currentJobId.isSome = true → session.Attached userId
  kept : s.session.Attached userId → session.Attached userId

/-- The session is replaced by one that fits. -/
theorem RowsInv.withSession (hs : RowsInv userId s) {session : LinkSession}
    {webhooks : List Webhook} (h : Fits userId s session) :
    RowsInv userId { s with session := session, webhooks := webhooks } :=
  hs.frame ⟨hs.rows.oneAccess, hs.rows.access, hs.rows.onePublic, hs.rows.minted,
    hs.rows.lastRequest⟩ (fun _ h => h) (fun _ h => h) ⟨h.backed.user, h.backed.access,
    h.backed.minted⟩ h.attached h.kept (fun h => h) rfl rfl

/-- The status and the events are free. -/
theorem Fits.change {session : LinkSession} (h : Fits userId s session) {session' : LinkSession}
    (huser : session'.userId = session.userId) (haccess : session'.accessToken = session.accessToken)
    (hpublic : session'.publicToken = session.publicToken)
    (hcurrent : session'.currentJobId = session.currentJobId) : Fits userId s session' where
  backed := ⟨huser.trans h.backed.user, by rw [haccess]; exact h.backed.access,
    by rw [hpublic]; exact h.backed.minted⟩
  attached hsome := by
    unfold LinkSession.Attached
    rw [haccess]
    exact h.attached (by rwa [hcurrent] at hsome)
  kept hlive := by
    unfold LinkSession.Attached
    rw [haccess]
    exact h.kept hlive

/-- The session itself fits. -/
theorem RowsInv.fits (hs : RowsInv userId s) : Fits userId s s.session :=
  ⟨hs.session, hs.attached, fun h => h⟩

/-- A read may leave the session expired. -/
theorem RowsInv.touch (hs : RowsInv userId s) : RowsInv userId s.touch := by
  obtain ⟨session, heq, rfl | rfl⟩ := s.touch_eq
  · rw [heq]
    exact hs.withSession hs.fits
  · rw [heq]
    exact hs.withSession (hs.fits.change rfl rfl rfl rfl)

/-- An update that keeps sessions fitting is written only where there is a session. -/
theorem RowsInv.update (hs : RowsInv userId s) {updates : LinkSession → LinkSession}
    (h : ∀ x, Fits userId s x → Fits userId s (updates x)) : RowsInv userId (s.update updates) := by
  unfold State.update
  split
  · exact hs.withSession (h _ hs.fits)
  · exact hs

/-- An event is appended, and the session updated with it. -/
theorem RowsInv.push (hs : RowsInv userId s) {name : Json} {data : Dict}
    {updates : LinkSession → LinkSession} (h : ∀ x, Fits userId s x → Fits userId s (updates x)) :
    RowsInv userId (s.push name data updates) := by
  have hevents : ∀ events, Fits userId s (updates { s.session with events := events }) :=
    fun events => h _ (hs.fits.change rfl rfl rfl rfl)
  obtain ⟨session, webhooks, heq⟩ := s.push_sessionOnly name data updates
  have hsession : (s.push name data updates).session = session := by rw [heq]
  rw [heq]
  refine hs.withSession ?_
  cases hstored : s.stored with
  | false =>
      rw [← hsession, State.push_of_not_stored hstored]
      exact hs.fits
  | true =>
      rcases State.push_session hstored name data updates with h | h
      · rw [← hsession, h]
        exact hevents _
      · rw [← hsession, h]
        exact (hevents _).change rfl rfl rfl rfl

/-! ## Requests -/

/-- A poll begins, with a session that goes with the rows, or is over. -/
theorem RowsInv.setPoll (hs : RowsInv userId s) (i : Nat) {poll : Option Reconcile}
    (h : ∀ reconcile, poll = some reconcile → Backed userId s reconcile.session ∧
      reconcile.session.Attached userId ∧ s.session.Attached userId) :
    RowsInv userId (s.setPoll i poll) where
  rows := ⟨hs.rows.oneAccess, hs.rows.access, hs.rows.onePublic, hs.rows.minted,
    hs.rows.lastRequest⟩
  session := ⟨hs.session.user, hs.session.access, hs.session.minted⟩
  attached := hs.attached
  polls k reconcile hk := by
    have hcase : poll = some reconcile ∨ s.polls k = some reconcile := by
      simp only [State.setPoll] at hk
      split at hk
      · exact .inl hk
      · exact .inr hk
    rcases hcase with hpoll | hpoll
    · obtain ⟨hbacked, hread, hlive⟩ := h reconcile hpoll
      exact ⟨⟨hbacked.user, hbacked.access, hbacked.minted⟩, hread, hlive⟩
    · obtain ⟨hbacked, hread, hlive⟩ := hs.polls k reconcile hpoll
      exact ⟨⟨hbacked.user, hbacked.access, hbacked.minted⟩, hread, hlive⟩
  connects k connect hk :=
    (hs.connects k connect hk).mono (fun _ h => h) (fun _ h => h) (fun h => h) fun h => h

/-- A connection goes on to another stage, or is over. -/
theorem RowsInv.setConnect (hs : RowsInv userId s) (i : Nat) {connect : Option Connect}
    (h : ∀ c, connect = some c → ConnectInv userId s c) :
    RowsInv userId (s.setConnect i connect) where
  rows := ⟨hs.rows.oneAccess, hs.rows.access, hs.rows.onePublic, hs.rows.minted,
    hs.rows.lastRequest⟩
  session := ⟨hs.session.user, hs.session.access, hs.session.minted⟩
  attached := hs.attached
  polls k reconcile hk := by
    obtain ⟨hbacked, hread, hlive⟩ := hs.polls k reconcile hk
    exact ⟨⟨hbacked.user, hbacked.access, hbacked.minted⟩, hread, hlive⟩
  connects k c hk := by
    have hinv : ConnectInv userId s c := by
      simp only [State.setConnect] at hk
      split at hk
      · exact h c hk
      · exact hs.connects k c hk
    exact hinv.mono (fun _ h => h) (fun _ h => h) (fun h => h) fun h => h

/-- `connect` writes the rows for the user of the session; where the session is nobody's
there are none to write, and the access token is `None`. -/
theorem RowsInv.connect (hs : RowsInv userId s) {i : Nat} {request : ConnectRequest}
    {fresh : String} {userFound : Bool}
    (h : HostedLink.connect s i request fresh userFound = some t) : RowsInv userId t := by
  -- without a user nothing was granted
  have hnone : ∀ {u : State}, ConnectInv userId u (.ensured request none none) := by
    intro u token htoken
    cases htoken
  unfold HostedLink.connect at h
  split at h
  · -- no hosted session
    obtain rfl := Option.some.inj h
    refine hs.setConnect i fun c hc => ?_
    obtain rfl := Option.some.inj hc
    exact hnone
  · rename_i session hget
    -- the hosted session is the stored one, read
    have hsession : session.userId = s.session.userId := by
      unfold State.getLinkSession at hget
      split at hget
      · obtain rfl := Option.some.inj hget
        unfold LinkSession.seen
        split <;> rfl
      · cases hget
    split at h
    · -- nobody's session
      rename_i huser
      obtain rfl := Option.some.inj h
      refine hs.touch.setConnect i fun c hc => ?_
      obtain rfl := Option.some.inj hc
      intro token htoken
      obtain rfl := Option.some.inj htoken
      refine ⟨fun hsome => ?_, fun value hvalue => by cases hvalue⟩
      rw [← hs.session.user, ← hsession, huser] at hsome
      cases hsome
    · rename_i user huser
      -- so its user is the user of the rows
      have huser' : userId = some user := by rw [← hs.session.user, ← hsession, huser]
      split at h
      · -- the session's user is found, and gets the rows
        obtain ⟨r, hr, rfl⟩ := Option.map_eq_some_iff.mp h
        obtain ⟨hrows, haccess, hkept⟩ := hs.touch.rows.writeLinkRows huser' hr
        obtain ⟨accessTokens, heq⟩ := writeLinkRows_eq hr
        have hpublic : ∀ token, s.touch.HasPublic token → r.2.HasPublic token := by
          intro token
          rw [heq]
          exact fun h => h
        have hr2 : RowsInv userId r.2 := by
          refine hs.touch.frame hrows hkept hpublic ?_ ?_ ?_ ?_ ?_ ?_
          · have hsessionEq : r.2.session = s.touch.session := by rw [heq]
            rw [hsessionEq]
            exact hs.touch.session.mono hkept hpublic
          · rw [heq]
            exact hs.touch.attached
          · rw [heq]
            exact fun h => h
          · rw [heq]
            exact fun h => h
          · rw [heq]
          · rw [heq]
        refine hr2.setConnect i fun c hc => ?_
        obtain rfl := Option.some.inj hc
        intro token htoken
        obtain rfl := Option.some.inj htoken
        refine ⟨fun _ => rfl, fun value hvalue => ?_⟩
        obtain rfl := Option.some.inj hvalue
        exact haccess
      · -- the user is gone, and no row is written
        obtain rfl := Option.some.inj h
        refine hs.touch.setConnect i fun c hc => ?_
        obtain rfl := Option.some.inj hc
        exact hnone

/-- The job is created and attached, with the access token that was granted. -/
theorem RowsInv.startConnect (hs : RowsInv userId s) {i : Nat} {request : ConnectRequest}
    {hosted : Option (Option String)} {id sessionId lockScope : String}
    (hgranted : ∀ token, hosted = some token → Granted userId s token)
    (h : HostedLink.startConnect s i request hosted id sessionId lockScope = some t) :
    RowsInv userId t := by
  unfold HostedLink.startConnect at h
  simp only [] at h
  split at h
  · cases h
  · obtain rfl := Option.some.inj h
    -- the job table is no part of the rows
    have hadded : RowsInv userId (addJob s request (connectJob s request id sessionId lockScope)) :=
      hs.of_eq rfl rfl rfl rfl rfl (fun h => h) rfl rfl
    cases hosted with
    | none =>
        -- without a session nothing is attached
        refine hadded.setConnect i fun c hc => ?_
        obtain rfl := Option.some.inj hc
        exact ⟨rfl, fun token htoken => by cases htoken⟩
    | some accessToken =>
        have htoken := hgranted accessToken rfl
        have hattached : RowsInv userId (attachJob (addJob s request
            (connectJob s request id sessionId lockScope)) request (some accessToken)
            (connectJob s request id sessionId lockScope)) := by
          -- the session gets the granted access token, and the public token goes
          refine hadded.update fun x hx => ⟨⟨hx.backed.user, htoken.access, ?_⟩, ?_, ?_⟩
          · intro token h
            cases h
          · intro _
            exact htoken.attached
          · intro _
            exact htoken.attached
        -- what the connection holds next is backed by the rows
        refine hattached.setConnect i fun c hc => ?_
        obtain rfl := Option.some.inj hc
        refine ⟨rfl, fun token heq => ?_⟩
        obtain rfl := Option.some.inj heq
        have honly := (addJob s request (connectJob s request id sessionId lockScope)
          ).update_sessionOnly (connectingUpdates request accessToken
            (connectJob s request id sessionId lockScope))
        obtain ⟨session, webhooks, heq⟩ := honly
        refine ⟨⟨htoken.attached, ?_⟩, ?_⟩
        · intro value hvalue
          show State.HasAccess (State.update _ _) value
          rw [heq]
          exact htoken.access value hvalue
        · intro hstored
          have hs' : s.stored = true := by
            have hstored' : (State.update (addJob s request (connectJob s request id sessionId
              lockScope)) (connectingUpdates request accessToken (connectJob s request id sessionId
              lockScope))).stored = true := hstored
            rw [heq] at hstored'
            exact hstored'
          show (State.update _ _).session.Attached userId
          rw [State.update_of_stored (by exact hs')]
          exact htoken.attached

/-- The updates of `connect` for a challenge set the access token that was granted. -/
theorem Fits.connectMfa {session : LinkSession} {token jobId : Option String}
    {message site mfaType : Json} {metadata : Option Dict} {sessionId : Option String}
    {status : LinkStatus} (h : Fits userId s session) (hgranted : Granted userId s token) :
    Fits userId s { session with
      accessToken := token
      currentJobId := jobId
      message
      metadata
      mfaType
      sessionId
      site
      status } where
  backed := ⟨h.backed.user, hgranted.access, h.backed.minted⟩
  attached _ := hgranted.attached
  kept _ := hgranted.attached

/-- The wait of a connection is over: the session is reconciled with the job that was
held, or is asked for a code, or is left alone. -/
theorem RowsInv.finishConnect (hs : RowsInv userId s) {i : Nat} {request : ConnectRequest}
    {hosted : Option (Option String)} {job : Job} {outcome : Outcome}
    (hconnect : s.connects i = some (.waiting request hosted job))
    (h : HostedLink.finishConnect s i request hosted job outcome = some t) : RowsInv userId t := by
  obtain ⟨hpending, hgranted⟩ := hs.connects i _ hconnect
  -- in every case the connection is over
  have hset : ∀ {u : State}, RowsInv userId u → RowsInv userId (u.setConnect i none) := by
    intro u hu
    refine hu.setConnect i fun c hc => ?_
    cases hc
  cases outcome with
  | completed =>
      -- the hosted session is reconciled with the job of the connect
      simp only [HostedLink.finishConnect] at h
      cases hosted with
      | none =>
          obtain rfl := Option.some.inj h
          exact hset hs
      | some accessToken =>
          obtain rfl := Option.some.inj h
          refine hs.touch.setConnect i fun c hc => ?_
          obtain ⟨reconcile, hread, rfl⟩ := Option.map_eq_some_iff.mp hc
          obtain ⟨hstored, hsession, id, -, hjob⟩ := reconcileRead_eq_some hread
          -- what was read is the session as the connection left it
          have hreconcile : ConnectInv userId s (.reconciling reconcile) := by
            refine ⟨?_, ?_, (hgranted _ rfl).2 hstored⟩
            · rw [← Option.some.inj hjob]
              exact hpending
            · rw [hsession]
              exact hs.session
          obtain ⟨session, heq, rfl | rfl⟩ := s.touch_eq
          · rw [heq]
            exact hreconcile
          · rw [heq]
            exact hreconcile.mono (fun _ h => h) (fun _ h => h) (fun h => h) fun h => h
  | mfaSession =>
      -- an MFA session asks for a code, under the granted token
      obtain ⟨session, -, heq⟩ := Option.bind_eq_some_iff.mp h
      obtain rfl := Option.some.inj heq
      cases hosted with
      | none => exact hset hs
      | some accessToken =>
          exact hset (hs.push fun x hx => hx.connectMfa (hgranted _ rfl).1)
  | mfaRequired site mfaType sessionId tracked =>
      -- so does the executor's exception
      obtain rfl := Option.some.inj h
      cases hosted with
      | none => exact hset hs
      | some accessToken =>
          exact hset (hs.push fun x hx => hx.connectMfa (hgranted _ rfl).1)
  -- the connection leaves the session to the next poll
  | pending =>
      obtain rfl := Option.some.inj h
      exact hset hs
  | raised =>
      obtain rfl := Option.some.inj h
      exact hset hs

/-- What a reconcile changes of the session: its job, and the public token where
there is one. -/
theorem Fits.reconcile {session session' : LinkSession} (h : Fits userId s session)
    (hlive : s.session.Attached userId) (huser : session'.userId = session.userId)
    (haccess : session'.accessToken = session.accessToken)
    (hpublic : ∀ token, session'.publicToken = some token →
      s.HasPublic token ∨ session.publicToken = some token) : Fits userId s session' where
  backed := by
    refine ⟨huser.trans h.backed.user, by rw [haccess]; exact h.backed.access, ?_⟩
    intro token htoken
    rcases hpublic token htoken with hpublic | hpublic
    · exact hpublic
    · exact h.backed.minted token hpublic
  attached _ := by
    unfold LinkSession.Attached
    rw [haccess]
    exact h.kept hlive
  kept hlive := by
    unfold LinkSession.Attached
    rw [haccess]
    exact h.kept hlive

/-- What a request writes back is the session that it read, or in memory the one that is
stored. -/
theorem RowsInv.held (hs : RowsInv userId s) {read : LinkSession} (h : Backed userId s read) :
    Backed userId s (s.held read) := by
  unfold State.held
  cases s.backend with
  | redis => exact h
  | memory => exact hs.session

/-- A reconcile keeps the session's access token, and may mint a public token for it. -/
theorem RowsInv.reconcile (hs : RowsInv userId s) {reconcile : Reconcile} {fresh : String}
    (hsession : Backed userId s reconcile.session) (hlive : s.session.Attached userId)
    (h : reconcileWrite s reconcile fresh = some t) : RowsInv userId t := by
  -- but for a completed job, a reconcile leaves the session's tokens alone
  have hquiet : ∀ {x session' : LinkSession}, Fits userId s x → session'.userId = x.userId →
      session'.accessToken = x.accessToken → session'.publicToken = x.publicToken →
      Fits userId s session' := by
    intro x session' hx huser haccess hpublic
    refine hx.reconcile hlive huser haccess fun token htoken => .inr ?_
    rw [← hpublic]
    exact htoken
  unfold reconcileWrite at h
  simp only [] at h
  cases hstatus : (serializeAccessJobRuntime s reconcile.job).status with
  | completed =>
      simp only [hstatus] at h
      obtain ⟨r, hr, heq⟩ := Option.bind_eq_some_iff.mp h
      obtain rfl := Option.some.inj heq
      obtain ⟨hrows, hnamed, hkept⟩ := hs.rows.completedPublicToken (hs.held hsession) hr
      obtain ⟨publicTokens, hr2⟩ := completedPublicToken_eq hr
      -- with the new public token, if any, all is as before
      have hs2 : RowsInv userId r.2 := by
        refine hs.frame hrows ?_ hkept ?_ ?_ ?_ ?_ ?_ ?_
        · rw [hr2]
          exact fun _ h => h
        · have hsessionEq : r.2.session = s.session := by rw [hr2]
          rw [hsessionEq]
          exact hs.session.mono (by rw [hr2]; exact fun _ h => h) hkept
        · rw [hr2]
          exact hs.attached
        · rw [hr2]
          exact fun h => h
        · rw [hr2]
          exact fun h => h
        · rw [hr2]
        · rw [hr2]
      -- the session that is stored is still attached to the user
      have hlive2 : r.2.session.Attached userId := by
        rw [hr2]
        exact hlive
      refine RowsInv.touch ?_
      unfold reconcileCompleted
      -- the update of a completed session names no token but the one minted
      have hfits : ∀ x, Fits userId r.2 x → Fits userId r.2
          { reconcileUpdates (s.held reconcile.session) reconcile.job
              (serializeAccessJobRuntime s reconcile.job) x with
            errorMessage := .null
            message := .null
            result := (serializeAccessJobRuntime s reconcile.job).result
            status := .completed
            publicToken := r.1 <|> x.publicToken } := by
        intro x hx
        refine hx.reconcile hlive2 rfl rfl fun token htoken => ?_
        cases hp : r.1 with
        | none =>
            simp only [hp] at htoken
            exact .inr htoken
        | some publicToken =>
            simp only [hp] at htoken
            obtain rfl := Option.some.inj htoken
            exact .inl (hnamed _ hp)
      simp only []
      split
      · exact hs2.push hfits
      · exact hs2.update hfits
  | pending | running =>
      -- the job goes on, and the session is only updated
      simp only [hstatus] at h
      obtain rfl := Option.some.inj h
      exact RowsInv.touch (hs.update fun x hx => hquiet hx rfl rfl rfl)
  | mfaRequired =>
      simp only [hstatus] at h
      obtain rfl := Option.some.inj h
      refine RowsInv.touch ?_
      -- a prompt is pushed or the session updated
      unfold reconcileMfaRequired
      simp only []
      split
      · exact hs.push fun x hx => hquiet hx rfl rfl rfl
      · exact hs.update fun x hx => hquiet hx rfl rfl rfl
  | failed | blocked | cancelled =>
      simp only [hstatus] at h
      obtain rfl := Option.some.inj h
      refine RowsInv.touch ?_
      -- a failure is pushed or the session updated
      unfold reconcileFailed
      simp only []
      split
      · exact hs.push fun x hx => hquiet hx rfl rfl rfl
      · exact hs.update fun x hx => hquiet hx rfl rfl rfl

/-! ## Every step -/

/-- A poll holds the session as it was read, and the job that is attached to it. -/
theorem RowsInv.poll (hs : RowsInv userId s) {i : Nat} (h : HostedLink.step s (.poll i) = some t) :
    RowsInv userId t := by
  simp only [HostedLink.step] at h
  split at h
  · cases h
  · obtain rfl := Option.some.inj h
    refine hs.touch.setPoll i fun reconcile hread => ?_
    obtain ⟨-, hsession, id, hid, -⟩ := reconcileRead_eq_some hread
    have hcurrent : s.session.currentJobId = some id := hid
    have hattached : s.session.Attached userId := by
      apply hs.attached
      rw [hcurrent]
      rfl
    rw [hsession]
    obtain ⟨session, heq, rfl | rfl⟩ := s.touch_eq
    · rw [heq]
      exact ⟨hs.session, hattached, hattached⟩
    · rw [heq]
      exact ⟨⟨hs.session.user, hs.session.access, hs.session.minted⟩, hattached, hattached⟩

/-- The updates of an event leave the session's user, its tokens and its job. -/
theorem RowsInv.posted (hs : RowsInv userId s) {i : Nat} {body : Dict}
    (h : HostedLink.step s (.posted i body) = some t) : RowsInv userId t := by
  simp only [HostedLink.step] at h
  split at h
  · cases h
  · obtain rfl := Option.some.inj h
    have hs' : RowsInv userId (s.setPost i none) :=
      hs.of_eq rfl rfl rfl rfl rfl (fun h => h) rfl rfl
    unfold postedEvent
    simp only []
    split
    · exact hs'
    · exact hs'.push fun x hx => hx.change rfl rfl rfl rfl
    · exact hs'.push fun x hx => hx.change rfl rfl rfl rfl

/-- An exchange touches the public tokens only. -/
theorem RowsInv.exchange (hs : RowsInv userId s) {user : Nat} {publicToken : String}
    (h : HostedLink.step s (.exchange user publicToken) = some t) : RowsInv userId t := by
  simp only [HostedLink.step] at h
  split at h
  · obtain rfl := Option.some.inj h
    exact hs
  · rename_i u heq
    obtain rfl := Option.some.inj h
    obtain ⟨hrows, hkept⟩ := hs.rows.exchangePublicToken heq
    obtain ⟨publicTokens, hpublic⟩ := exchangePublicToken_eq heq
    simp only [] at hpublic hrows hkept
    subst hpublic
    exact hs.frame hrows (fun _ h => h) hkept (hs.session.mono (fun _ h => h) hkept)
      hs.attached (fun h => h) (fun h => h) rfl rfl

theorem RowsInv.step {l : Label} (hs : RowsInv userId s) (h : step s l = some t) :
    RowsInv userId t := by
  -- a step that ends a connection asks nothing of it
  have hclear : ∀ i, RowsInv userId (s.setConnect i none) :=
    fun i => hs.setConnect i fun c hc => by cases hc
  cases l with
  | wait milliseconds =>
      obtain rfl := Option.some.inj h
      exact hs.of_eq rfl rfl rfl rfl rfl (fun h => h) rfl rfl
  | evict =>
      obtain rfl := Option.some.inj h
      exact hs.of_eq rfl rfl rfl rfl rfl (fun h => by cases h) rfl rfl
  | writeJob id state =>
      obtain ⟨job, -, rfl⟩ := Option.map_eq_some_iff.mp h
      exact hs.of_eq rfl rfl rfl rfl rfl (fun h => h) rfl rfl
  | createMfa sessionId challenge | submitMfa sessionId code | removeMfa sessionId =>
      obtain rfl := Option.some.inj h
      exact hs.of_eq rfl rfl rfl rfl rfl (fun h => h) rfl rfl
  | poll i => exact hs.poll h
  | polled i fresh =>
      simp only [HostedLink.step] at h
      split at h
      · cases h
      · rename_i reconcile hpoll
        -- the poll held a session whose tokens are known
        obtain ⟨hbacked, -, hlive⟩ := hs.polls i reconcile hpoll
        have hs' : RowsInv userId (s.setPoll i none) := hs.setPoll i fun r hr => by cases hr
        exact hs'.reconcile ⟨hbacked.user, hbacked.access, hbacked.minted⟩ hlive h
  | post i =>
      simp only [HostedLink.step] at h
      split at h
      · cases h
      · obtain rfl := Option.some.inj h
        unfold postEvent
        split
        · -- an event that is refused changes nothing
          exact hs
        · split
          · exact hs.touch
          · exact hs.touch.of_eq rfl rfl rfl rfl rfl (fun h => h) rfl rfl
  | posted i body => exact hs.posted h
  | connect i request fresh userFound =>
      simp only [HostedLink.step] at h
      split at h
      · cases h
      · exact hs.connect h
  | start i id sessionId lockScope =>
      simp only [HostedLink.step] at h
      split at h
      · rename_i hconnect
        -- the connection was granted the token it goes on with
        exact hs.startConnect (hs.connects i _ hconnect) h
      · cases h
  | finish i outcome =>
      simp only [HostedLink.step] at h
      split at h
      · rename_i hconnect
        exact hs.finishConnect hconnect h
      · cases h
  | reconciled i fresh =>
      simp only [HostedLink.step] at h
      split at h
      · rename_i reconcile hconnect
        -- the connect's own reconcile holds such a session too
        obtain ⟨-, hbacked, hlive⟩ := hs.connects i _ hconnect
        exact (hclear i).reconcile ⟨hbacked.user, hbacked.access, hbacked.minted⟩ hlive h
      · cases h
  | exchange user publicToken => exact hs.exchange h

/-- A new session has no rows. -/
theorem init_rowsInv (backend : Links.Backend) (linkToken : String) (now : Nat)
    (site : Option String) (userId : Option Nat) :
    RowsInv userId (init backend linkToken now site userId) where
  rows := ⟨Nat.zero_le 1, by simp [init], Nat.zero_le 1, by simp [init], fun _ => rfl⟩
  session := ⟨rfl, by simp [init], by simp [init]⟩
  attached h := by cases h
  polls _ _ h := by cases h
  connects _ _ h := by cases h

end

end Plaidify.HostedLink
