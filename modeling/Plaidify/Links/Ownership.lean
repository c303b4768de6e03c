import Plaidify.Links.Minting

/-!
# Whose a link is

The user of a link session, of the link under the same link token and of the
access tokens minted from it is written down in three places. They agree in
every run of the endpoints.
-/

namespace Plaidify.Links

open Principals

/-- The link session of this link token, if there is one, is this user's. -/
def Belongs (s : State) (linkToken : String) (userId : Nat) : Prop :=
  ∀ session ∈ s.sessions, session.linkToken = linkToken → session.userId = some userId

/-- A link token has one session, and its rows are of the session's user. -/
structure Owned (s : State) : Prop where
  sessions : ∀ a ∈ s.sessions, ∀ b ∈ s.sessions, a.linkToken = b.linkToken → a = b
  links : ∀ link ∈ s.links.rows, Belongs s link.linkToken link.userId
  accessTokens : ∀ token ∈ s.accessTokens.rows, Belongs s token.linkToken token.userId

/-- Without rows there is nothing to own. -/
theorem start_owned (backend : Backend) : Owned (start backend) := by
  constructor
  · intro a ha
    cases ha
  · intro link hlink
    cases hlink
  · intro token htoken
    cases htoken

/-- A link token that was not created belongs to anybody. -/
theorem belongs_of_new {s : State} (hinv : Inv s) {linkToken : String}
    (hnew : linkToken ∉ s.granted.map Prod.fst) (userId : Nat) : Belongs s linkToken userId := by
  intro session hsession htoken
  have hknown := hinv.sessions session hsession
  rw [htoken] at hknown
  exact absurd hknown hnew

/-- Neither a link nor an access token of a new link token is there before. -/
theorem Belongs.add_session {s : State} {linkToken other : String} {userId : Nat}
    {session : LinkSession} {sessions : List LinkSession} (h : Belongs s other userId)
    (hsessions : sessions = s.sessions ++ [session]) (hsession : session.linkToken = linkToken)
    (hne : other ≠ linkToken) :
    ∀ a ∈ sessions, a.linkToken = other → a.userId = some userId := by
  intro a ha htoken
  rw [hsessions] at ha
  rcases List.mem_append.mp ha with hold | hlast
  · exact h a hold htoken
  · rw [List.mem_singleton.mp hlast, hsession] at htoken
    exact absurd htoken.symm hne

/-! ## New link tokens -/

/-- The link and its session are of the caller. -/
theorem createLink_owned {py : PyText} {s t : State} {auth : AuthContext} {linkToken site : String}
    {requested : Option (List String)} (hinv : Inv s) (hs : Owned s)
    (hnew : linkToken ∉ s.granted.map Prod.fst)
    (h : createLink py s auth linkToken site requested = .ok t) : Owned t := by
  unfold createLink at h
  simp only [bind, Except.bind] at h
  split at h
  · cases h
  · split at h
    · cases h
    · split at h
      · cases h
      · rename_i links hinsert
        have ht := Except.ok.inj h
        subst ht
        refine ⟨hs.sessions, ?_, hs.accessTokens⟩
        intro link hlink
        have hlink : link ∈ links.rows := hlink
        rw [(Table.insert?_eq_some hinsert).2] at hlink
        rcases List.mem_append.mp hlink with hold | hlast
        · exact hs.links link hold
        · rw [List.mem_singleton.mp hlast]
          exact belongs_of_new hinv hnew auth.userId

/-- A link session brings its row with it, if it has a user and a site. -/
theorem ephemeral_owned {s t : State} {linkToken : String} {site : Option String}
    {userId : Option Nat} {scopes : Option (List String)} (hinv : Inv s) (hs : Owned s)
    (hnew : linkToken ∉ s.granted.map Prod.fst)
    (h : createEphemeralLinkSession s linkToken site userId scopes = .ok t) : Owned t := by
  unfold createEphemeralLinkSession at h
  split at h
  · cases h
  · rename_i links hlinks
    have ht := Except.ok.inj h
    subst ht
    constructor
    · -- sessions: two of one link token are one, for the token is new
      intro a ha b hb hsame
      rcases List.mem_append.mp ha with haold | hanew
      · rcases List.mem_append.mp hb with hbold | hbnew
        · exact hs.sessions a haold b hbold hsame
        · have hknown := hinv.sessions a haold
          rw [hsame, List.mem_singleton.mp hbnew] at hknown
          exact absurd hknown hnew
      · rcases List.mem_append.mp hb with hbold | hbnew
        · have hknown := hinv.sessions b hbold
          rw [← hsame, List.mem_singleton.mp hanew] at hknown
          exact absurd hknown hnew
        · rw [List.mem_singleton.mp hanew, List.mem_singleton.mp hbnew]
    · -- links: an older link has another link token
      intro link hlink
      have hold : link ∈ s.links.rows → Belongs s link.linkToken link.userId ∧
          link.linkToken ≠ linkToken := by
        intro hmem
        refine ⟨hs.links link hmem, ?_⟩
        rintro rfl
        exact hnew (hinv.links link hmem)
      have hrow : link ∈ links.rows := hlink
      clear hlink
      unfold sessionLinks at hlinks
      split at hlinks
      · rename_i site' user' hsite
        rw [(Table.insert?_eq_some hlinks).2] at hrow
        rcases List.mem_append.mp hrow with hmem | hlast
        · exact (hold hmem).1.add_session rfl rfl (hold hmem).2
        · -- the row has the user of the session
          have hnewRow := List.mem_singleton.mp hlast
          subst hnewRow
          intro session hsession htoken
          rcases List.mem_append.mp hsession with hbefore | hlast
          · exact belongs_of_new hinv hnew user' session hbefore htoken
          · rw [List.mem_singleton.mp hlast]
      · rw [← Option.some.inj hlinks] at hrow
        exact (hold hrow).1.add_session rfl rfl (hold hrow).2
    · -- accessTokens: an older access token is for another link
      intro token htoken
      have hne : token.linkToken ≠ linkToken := by
        rintro rfl
        exact hnew (hinv.accessTokens token htoken)
      exact (hs.accessTokens token htoken).add_session rfl rfl hne

/-- The session of a signed-in caller is the caller's. -/
theorem createLinkSession_owned {py : PyText} {s t : State} {auth : AuthContext}
    {linkToken : String} {site : Option String} (hinv : Inv s) (hs : Owned s)
    (hnew : linkToken ∉ s.granted.map Prod.fst)
    (h : createLinkSession py s auth linkToken site = .ok t) : Owned t := by
  unfold createLinkSession at h
  simp only [bind, Except.bind] at h
  split at h
  · cases h
  · split at h
    · cases h
    · exact ephemeral_owned hinv hs hnew h

/-! ## Access tokens -/

/-- An access token is minted for the user of its link. -/
theorem mint_owned {s t : State} {links : Table Link Link.linkToken} {linkToken token : String}
    {userId : Nat} {committed : Bool} (hs : Owned s)
    (hlinks : ∀ link ∈ links.rows, Belongs s link.linkToken link.userId)
    (huser : Belongs s linkToken userId)
    (h : mint s links linkToken userId token committed = .ok t) : Owned t := by
  rcases mint_ok h with ⟨-, hsessions, -, ⟨-, hlinksEq, htokens⟩ | ⟨-, hlinksEq, htokens⟩⟩
  · constructor
    · rw [hsessions]
      exact hs.sessions
    · unfold Belongs
      rw [hsessions, hlinksEq]
      exact hs.links
    · unfold Belongs
      rw [hsessions, htokens]
      exact hs.accessTokens
  · constructor
    · rw [hsessions]
      exact hs.sessions
    · unfold Belongs
      rw [hsessions, hlinksEq]
      exact hlinks
    · unfold Belongs
      rw [hsessions, htokens]
      intro row hrow
      rcases List.mem_append.mp hrow with hold | hlast
      · exact hs.accessTokens row hold
      · rw [List.mem_singleton.mp hlast]
        exact huser

/-- Credentials are taken from the owner of the link only. -/
theorem submitCredentials_owned {s t : State} {userId : Nat} {linkToken token : String}
    {committed : Bool} (hs : Owned s)
    (h : submitCredentials s userId linkToken token committed = .ok t) : Owned t := by
  unfold submitCredentials at h
  split at h
  · cases h
  · rename_i link hfind
    have hkey := List.find?_some hfind
    simp only [Bool.and_eq_true, beq_iff_eq] at hkey
    have huser := hs.links link (List.mem_of_find?_eq_some hfind)
    rw [hkey.1, hkey.2] at huser
    exact mint_owned hs hs.links huser h

/-- The user of a hosted session is the one that it belongs to. -/
theorem belongs_of_hostedUser {s : State} (hs : Owned s) {linkToken : String} {sessionFound : Bool}
    {userId : Nat} (h : hostedUser s linkToken sessionFound = some userId) :
    Belongs s linkToken userId := by
  unfold hostedUser at h
  split at h
  · rcases Option.bind_eq_some_iff.mp h with ⟨session, hfind, huser⟩
    intro other hother htoken
    have hkey := List.find?_some hfind
    rw [beq_iff_eq] at hkey
    have hsame : other = session :=
      hs.sessions other hother session (List.mem_of_find?_eq_some hfind) (htoken.trans hkey.symm)
    rw [hsame]
    exact huser
  · cases h

/-- The rows of a connect are those of the session's user. -/
theorem connect_owned {s t : State} {linkToken site token : String} {sessionFound committed : Bool}
    (hs : Owned s)
    (h : ensureHostedLinkAccessToken s linkToken site token sessionFound committed = .ok t) :
    Owned t := by
  unfold ensureHostedLinkAccessToken at h
  split at h
  · rw [← Except.ok.inj h]
    exact hs
  · rename_i userId huser
    have hbelongs := belongs_of_hostedUser hs huser
    dsimp only at h
    split at h
    · cases h
    · rename_i links hlinks
      -- a new row has the user of the session, another site leaves the user alone
      have hlinksOwned : ∀ link ∈ links.rows, Belongs s link.linkToken link.userId := by
        intro link hlink
        split at hlinks
        · rw [(Table.insert?_eq_some hlinks).2] at hlink
          rcases List.mem_append.mp hlink with hold | hlast
          · exact hs.links link hold
          · rw [List.mem_singleton.mp hlast]
            exact hbelongs
        · rename_i row hget
          rw [← Option.some.inj hlinks] at hlink
          split at hlink
          · rcases Table.mem_put hlink with rfl | ⟨hold, -⟩
            · exact hs.links row (Table.get?_mem hget).1
            · exact hs.links link hold
          · exact hs.links link hlink
      split at h
      · exact mint_owned hs hlinksOwned hbelongs h
      · have ht := Except.ok.inj h
        subst ht
        split
        · exact ⟨hs.sessions, hlinksOwned, hs.accessTokens⟩
        · exact hs

/-! ## Every step -/

/-- No request hands a link token to another user. -/
theorem step_owned {py : PyText} {s t : State} {l : Label} (hinv : Inv s) (hs : Owned s)
    (h : step py s l = some t) : Owned t := by
  rcases respond_of_step h with ⟨hok, hnew⟩
  cases l with
  | createLink auth linkToken site requested =>
      exact createLink_owned hinv hs (hnew linkToken rfl) hok
  | createLinkSession auth linkToken site =>
      exact createLinkSession_owned hinv hs (hnew linkToken rfl) hok
  | createPublicLinkSession linkToken =>
      have hok : createEphemeralLinkSession s linkToken none none none = .ok t := hok
      exact ephemeral_owned hinv hs (hnew linkToken rfl) hok
  | exchangeLinkBootstrap linkToken site userId scopes =>
      exact ephemeral_owned hinv hs (hnew linkToken rfl) hok
  | submitCredentials userId linkToken token committed => exact submitCredentials_owned hs hok
  | connect linkToken site token sessionFound committed => exact connect_owned hs hok
  | deleteLink userId linkToken =>
      simp only [respond, deleteLink] at hok
      split at hok
      · cases hok
      · rw [← Except.ok.inj hok]
        exact ⟨hs.sessions, fun link hlink => hs.links link (List.mem_filter.mp hlink).1,
          fun token htoken => hs.accessTokens token (List.mem_filter.mp htoken).1⟩
  | deleteToken userId token =>
      simp only [respond, deleteToken] at hok
      split at hok
      · cases hok
      · rw [← Except.ok.inj hok]
        exact ⟨hs.sessions, hs.links,
          fun token htoken => hs.accessTokens token (List.mem_filter.mp htoken).1⟩
  | wait milliseconds =>
      rw [← Except.ok.inj hok]
      exact ⟨hs.sessions, hs.links, hs.accessTokens⟩

/-- The new session is the last one. -/
theorem ephemeral_sessions {s t : State} {linkToken : String} {site : Option String}
    {userId : Option Nat} {scopes : Option (List String)}
    (h : createEphemeralLinkSession s linkToken site userId scopes = .ok t) :
    t.sessions = s.sessions ++ [{ linkToken := linkToken, userId := userId }] := by
  unfold createEphemeralLinkSession at h
  split at h
  · cases h
  · rw [← Except.ok.inj h]
    rfl

/-- A session that was created stays on record. -/
theorem step_sessions {py : PyText} {s t : State} {l : Label} (hinv : Inv s)
    (h : step py s l = some t) : ∀ session ∈ s.sessions, session ∈ t.sessions := by
  rcases respond_of_step h with ⟨hok, -⟩
  intro session hsession
  -- a session is added
  have happend : ∀ {new}, t.sessions = s.sessions ++ [new] → session ∈ t.sessions := by
    intro new hnew
    rw [hnew]
    exact List.mem_append_left _ hsession
  -- or none is
  have hsame : t.sessions = s.sessions → session ∈ t.sessions := by
    intro heq
    rw [heq]
    exact hsession
  cases l with
  | createLink auth linkToken site requested =>
      -- `createLink` creates no session
      simp only [respond, createLink, bind, Except.bind] at hok
      split at hok
      · cases hok
      · split at hok
        · cases hok
        · split at hok
          · cases hok
          · rw [← Except.ok.inj hok]
            exact hsession
  | createLinkSession auth linkToken site =>
      simp only [respond, createLinkSession, bind, Except.bind] at hok
      split at hok
      · cases hok
      · split at hok
        · cases hok
        · exact happend (ephemeral_sessions hok)
  | createPublicLinkSession linkToken =>
      have hok : createEphemeralLinkSession s linkToken none none none = .ok t := hok
      exact happend (ephemeral_sessions hok)
  | exchangeLinkBootstrap linkToken site userId scopes => exact happend (ephemeral_sessions hok)
  | submitCredentials userId linkToken token committed =>
      rcases submitCredentials_cases hinv hok with ⟨-, hmints⟩ | ⟨-, hrests⟩
      · exact hsame hmints.sessions
      · exact hsame hrests.sessions
  | connect linkToken site token sessionFound committed =>
      rcases connect_cases hinv hok with ⟨-, hmints⟩ | ⟨-, hrests⟩
      · exact hsame hmints.sessions
      · exact hsame hrests.sessions
  | deleteLink userId linkToken =>
      simp only [respond, deleteLink] at hok
      split at hok
      · cases hok
      · rw [← Except.ok.inj hok]
        exact hsession
  | deleteToken userId token =>
      simp only [respond, deleteToken] at hok
      split at hok
      · cases hok
      · rw [← Except.ok.inj hok]
        exact hsession
  | wait milliseconds =>
      rw [← Except.ok.inj hok]
      exact hsession

/-! ## Where a row comes from -/

/-- The access token that a request may mint. -/
def Label.mints : Label → Option String
  | .submitCredentials _ _ token _ => some token
  | .connect _ _ token _ _ => some token
  | _ => none

/-- A link of this token and user is there already, or the link token is new, or
its session is this user's. -/
def Known (s : State) (linkToken : String) (userId : Nat) : Prop :=
  (∃ link ∈ s.links.rows, link.linkToken = linkToken ∧ link.userId = userId) ∨
    linkToken ∉ s.granted.map Prod.fst ∨
      ∃ session ∈ s.sessions, session.linkToken = linkToken ∧ session.userId = some userId

/-- What `mint` adds is for this link token and user. -/
theorem mint_rows {s t : State} {links : Table Link Link.linkToken} {linkToken token : String}
    {userId : Nat} {committed : Bool} (hs : ∀ link ∈ s.links.rows, Known s link.linkToken link.userId)
    (hlinks : ∀ link ∈ links.rows, Known s link.linkToken link.userId)
    (hrow : ∃ link ∈ links.rows, link.linkToken = linkToken ∧ link.userId = userId)
    (h : mint s links linkToken userId token committed = .ok t) :
    (∀ link ∈ t.links.rows, Known s link.linkToken link.userId) ∧
      ∀ row ∈ t.accessTokens.rows, row ∈ s.accessTokens.rows ∨ row.token = token ∧
        ∃ link ∈ t.links.rows, link.linkToken = row.linkToken ∧ link.userId = row.userId := by
  rcases mint_ok h with ⟨-, -, -, ⟨-, hlinksEq, htokens⟩ | ⟨-, hlinksEq, htokens⟩⟩
  · rw [hlinksEq, htokens]
    exact ⟨hs, fun row hrow => .inl hrow⟩
  · rw [hlinksEq, htokens]
    refine ⟨hlinks, fun row hmem => ?_⟩
    rcases List.mem_append.mp hmem with hold | hlast
    · exact .inl hold
    · rw [List.mem_singleton.mp hlast]
      exact .inr ⟨rfl, hrow⟩

/-- A link that has a row is of the row's user. -/
theorem known_of_row {s : State} {link : Link} (h : link ∈ s.links.rows) :
    Known s link.linkToken link.userId :=
  .inl ⟨link, h, rfl, rfl⟩

/-- A connect writes a link of the session's user, and at most one access token for it. -/
theorem connect_rows {s t : State} {linkToken site token : String} {sessionFound committed : Bool}
    (hs : Owned s)
    (h : ensureHostedLinkAccessToken s linkToken site token sessionFound committed = .ok t) :
    (∀ link ∈ t.links.rows, Known s link.linkToken link.userId) ∧
      ∀ row ∈ t.accessTokens.rows, row ∈ s.accessTokens.rows ∨ row.token = token ∧
        ∃ link ∈ t.links.rows, link.linkToken = row.linkToken ∧ link.userId = row.userId := by
  unfold ensureHostedLinkAccessToken at h
  split at h
  · -- nobody's session, and no row is written
    rw [← Except.ok.inj h]
    exact ⟨fun link => known_of_row, fun row hrow => .inl hrow⟩
  · rename_i userId huser
    -- the session is signed in, and its user is the one of the rows
    have hsession : ∃ session ∈ s.sessions,
        session.linkToken = linkToken ∧ session.userId = some userId := by
      unfold hostedUser at huser
      split at huser
      · rcases Option.bind_eq_some_iff.mp huser with ⟨session, hfind, hsessionUser⟩
        have hkey := List.find?_some hfind
        rw [beq_iff_eq] at hkey
        exact ⟨session, List.mem_of_find?_eq_some hfind, hkey, hsessionUser⟩
      · cases huser
    dsimp only at h
    split at h
    · cases h
    · rename_i links hlinks
      -- the row of the link token is this user's, whether or not it was there before
      have hrows : (∀ link ∈ links.rows, Known s link.linkToken link.userId) ∧
          ∃ link ∈ links.rows, link.linkToken = linkToken ∧ link.userId = userId := by
        split at hlinks
        · -- the link is new
          rw [(Table.insert?_eq_some hlinks).2]
          constructor
          · intro link hlink
            rcases List.mem_append.mp hlink with hold | hlast
            · exact known_of_row hold
            · rw [List.mem_singleton.mp hlast]
              exact .inr (.inr hsession)
          · exact ⟨_, List.mem_append_right _ (List.mem_singleton_self _), rfl, rfl⟩
        · -- the link was there, and has the same user
          rename_i row hget
          rcases Table.get?_mem hget with ⟨hrow, hkey⟩
          have hrowUser : row.userId = userId := by
            rcases hsession with ⟨session, hmem, htoken, hsessionUser⟩
            have hbelongs := hs.links row hrow session hmem (htoken.trans hkey.symm)
            exact Option.some.inj (hbelongs.symm.trans hsessionUser)
          rw [← Option.some.inj hlinks]
          split
          · constructor
            · intro link hlink
              rcases Table.mem_put hlink with rfl | ⟨hold, -⟩
              · show Known s row.linkToken row.userId
                exact known_of_row hrow
              · exact known_of_row hold
            · exact ⟨_, Table.mem_put_self hrow rfl, hkey, hrowUser⟩
          · exact ⟨fun link => known_of_row, row, hrow, hkey, hrowUser⟩
      split at h
      · -- a token is minted for the link
        exact mint_rows (fun link => known_of_row) hrows.1 hrows.2 h
      · rw [← Except.ok.inj h]
        -- the token that is there stays, with the link that is written if the commit succeeds
        split
        · exact ⟨hrows.1, fun row hrow => .inl hrow⟩
        · exact ⟨fun link => known_of_row, fun row hrow => .inl hrow⟩

/-- A link after a step is of a known user, and a new access token is for a link
of its user. -/
theorem step_rows {py : PyText} {s t : State} {l : Label} (hs : Owned s)
    (h : step py s l = some t) :
    (∀ link ∈ t.links.rows, Known s link.linkToken link.userId) ∧
      ∀ row ∈ t.accessTokens.rows, row ∈ s.accessTokens.rows ∨ l.mints = some row.token ∧
        ∃ link ∈ t.links.rows, link.linkToken = row.linkToken ∧ link.userId = row.userId := by
  rcases respond_of_step h with ⟨hok, hnew⟩
  -- where a token is granted the rows stay as they are
  have hcreates : ∀ {linkToken scopes}, l.created = some linkToken →
      Creates s t linkToken scopes →
      (∀ link ∈ t.links.rows, Known s link.linkToken link.userId) ∧
        ∀ row ∈ t.accessTokens.rows, row ∈ s.accessTokens.rows ∨ l.mints = some row.token ∧
          ∃ link ∈ t.links.rows, link.linkToken = row.linkToken ∧ link.userId = row.userId := by
    intro linkToken scopes hcreated hcreates
    constructor
    · intro link hlink
      rcases hcreates.links link hlink with hold | hkey
      · exact known_of_row hold
      · exact .inr (.inl (hkey ▸ hnew linkToken hcreated))
    · intro row hrow
      rw [hcreates.accessTokens] at hrow
      exact .inl hrow
  cases l with
  | createLink auth linkToken site requested =>
      rcases createLink_creates hok with ⟨scopes, -, hcreate⟩
      exact hcreates rfl hcreate
  | createLinkSession auth linkToken site =>
      rcases createLinkSession_creates hok with ⟨scopes, -, hcreate⟩
      exact hcreates rfl hcreate
  | createPublicLinkSession linkToken =>
      have hok : createEphemeralLinkSession s linkToken none none none = .ok t := hok
      exact hcreates rfl (ephemeral_creates hok)
  | exchangeLinkBootstrap linkToken site userId scopes =>
      exact hcreates rfl (ephemeral_creates hok)
  | submitCredentials userId linkToken token committed =>
      simp only [respond, submitCredentials] at hok
      split at hok
      · cases hok
      · rename_i link hfind
        -- the link is one of the user's
        have hkey := List.find?_some hfind
        simp only [Bool.and_eq_true, beq_iff_eq] at hkey
        rcases mint_rows (fun link => known_of_row) (fun link => known_of_row)
          ⟨link, List.mem_of_find?_eq_some hfind, hkey⟩ hok with ⟨hlinks, hrows⟩
        refine ⟨hlinks, fun row hrow => (hrows row hrow).imp_right ?_⟩
        rintro ⟨rfl, hlink⟩
        exact ⟨rfl, hlink⟩
  | connect linkToken site token sessionFound committed =>
      -- so is the link of a hosted session
      rcases connect_rows hs hok with ⟨hlinks, hrows⟩
      refine ⟨hlinks, fun row hrow => (hrows row hrow).imp_right ?_⟩
      rintro ⟨rfl, hlink⟩
      exact ⟨rfl, hlink⟩
  | deleteLink userId linkToken =>
      simp only [respond, deleteLink] at hok
      split at hok
      · cases hok
      · rw [← Except.ok.inj hok]
        exact ⟨fun link hlink => known_of_row (List.mem_filter.mp hlink).1,
          -- the link goes with its rows
          fun row hrow => .inl (List.mem_filter.mp hrow).1⟩
  | deleteToken userId token =>
      simp only [respond, deleteToken] at hok
      split at hok
      · cases hok
      · rw [← Except.ok.inj hok]
        exact ⟨fun link => known_of_row, fun row hrow => .inl (List.mem_filter.mp hrow).1⟩
  | wait milliseconds =>
      rw [← Except.ok.inj hok]
      exact ⟨fun link => known_of_row, fun row hrow => .inl hrow⟩

/-- A link token that was created stays on record, and a session that is new has
a new link token. -/
theorem step_granted {py : PyText} {s t : State} {l : Label} (hinv : Inv s)
    (h : step py s l = some t) :
    (∀ linkToken ∈ s.granted.map Prod.fst, linkToken ∈ t.granted.map Prod.fst) ∧
      ∀ session ∈ t.sessions, session ∈ s.sessions ∨
        session.linkToken ∉ s.granted.map Prod.fst := by
  rcases step_cases hinv h with
    ⟨linkToken, scopes, -, hfresh, hcreates⟩ | ⟨linkToken, -, hmints⟩ | ⟨-, hrests⟩
  · constructor
    · intro name hname
      rw [hcreates.granted, List.map_append]
      exact List.mem_append_left _ hname
    · intro session hsession
      rcases hcreates.sessions session hsession with hold | hkey
      · exact .inl hold
      · rw [hkey]
        exact .inr hfresh
  · rw [hmints.granted, hmints.sessions]
    exact ⟨fun _ h => h, fun _ h => .inl h⟩
  · rw [hrests.granted, hrests.sessions]
    exact ⟨fun _ h => h, fun _ h => .inl h⟩

end Plaidify.Links
