import Plaidify.Links.Endpoints
import Plaidify.Principals.Configuration
import Plaidify.Lib.Runs

/-!
# What a minted access token may read

A link token that was created with scopes should only ever give access tokens
with scopes among them. The scopes wait in a store that gives them out once and
for ten minutes, and an access token minted without them may read everything.

`scopes_confined_iff` says when every access token of a restricted link is
confined, for every run of the endpoints and either backend.
-/

namespace Plaidify.Links

open Principals

/-! ## Steps -/

inductive Label where
  | createLink (auth : AuthContext) (linkToken site : String) (requested : Option (List String))
  | createLinkSession (auth : AuthContext) (linkToken : String) (site : Option String)
  | createPublicLinkSession (linkToken : String)
  | exchangeLinkBootstrap (linkToken : String) (site : Option String) (userId : Nat)
      (scopes : Option (List String))
  /-- `POST /submit_credentials`; its commit may fail. -/
  | submitCredentials (userId : Nat) (linkToken token : String) (committed : Bool)
  /-- `POST /connect` with a link token, whose session may be gone. -/
  | connect (linkToken site token : String) (sessionFound committed : Bool)
  | deleteLink (userId : Nat) (linkToken : String)
  | deleteToken (userId : Nat) (token : String)
  | wait (milliseconds : Nat)

/-- The link token that a step creates. -/
def Label.created : Label → Option String
  | .createLink _ linkToken _ _ => some linkToken
  | .createLinkSession _ linkToken _ => some linkToken
  | .createPublicLinkSession linkToken => some linkToken
  | .exchangeLinkBootstrap linkToken _ _ _ => some linkToken
  | _ => none

section

variable (py : PyText)

/-- What an endpoint answers, as the state it leaves. -/
def respond (s : State) : Label → Except HttpError State
  | .createLink auth linkToken site requested => createLink py s auth linkToken site requested
  | .createLinkSession auth linkToken site => createLinkSession py s auth linkToken site
  | .createPublicLinkSession linkToken => createPublicLinkSession s linkToken
  | .exchangeLinkBootstrap linkToken site userId scopes =>
      exchangeLinkBootstrap s linkToken site userId scopes
  | .submitCredentials userId linkToken token committed =>
      submitCredentials s userId linkToken token committed
  | .connect linkToken site token sessionFound committed =>
      ensureHostedLinkAccessToken s linkToken site token sessionFound committed
  | .deleteLink userId linkToken => deleteLink s userId linkToken
  | .deleteToken userId token => deleteToken s userId token
  | .wait milliseconds => .ok { s with now := s.now + milliseconds }

/-- One step; a new link token was not there before. -/
def step (s : State) (l : Label) : Option State :=
  if ∃ linkToken ∈ l.created, linkToken ∈ s.granted.map Prod.fst then none
  else (respond py s l).toOption

def start (backend : Backend) : State where
  now := 0
  scopeStore := ⟨backend, Table.empty⟩
  links := Table.empty
  sessions := []
  accessTokens := Table.empty
  granted := []

def run (backend : Backend) (tr : List Label) : Option State :=
  Runs.exec (step py) (start backend) tr

/-! ## The property and the condition -/

/-- Every access token of a link with scopes is for some of them. -/
def Confined (s : State) : Prop :=
  ∀ token ∈ s.accessTokens.rows, ∀ scopes, (token.linkToken, some scopes) ∈ s.granted →
    ∃ allowed, loadList py token.scopes = some allowed ∧ allowed ⊆ scopes

end

/-- The link token that a step mints an access token for. -/
def mintedFor (s : State) : Label → Option String
  | .submitCredentials _ linkToken _ committed => if committed then some linkToken else none
  | .connect linkToken _ _ sessionFound committed =>
      match hostedUser s linkToken sessionFound with
      | none => none
      | some userId =>
          if committed ∧ (s.accessTokens.rows.find? fun t =>
              t.linkToken == linkToken && t.userId == userId).isNone then
            some linkToken
          else none
  | _ => none

/-- The condition on a step: where it mints an access token for a link that was
created with scopes, the store still has them. -/
def FindsScopes (s : State) (l : Label) : Prop :=
  ∀ linkToken ∈ mintedFor s l, ∀ scopes, (linkToken, some scopes) ∈ s.granted →
    s.scopeStore.peek s.now linkToken ≠ none

/-! ## The invariant -/

/-- The store has what was granted, nothing is granted twice, and nothing
refers to a link token that was not created. -/
structure Inv (s : State) : Prop where
  entries : ∀ entry ∈ s.scopeStore.entries.rows, ∃ scopes,
    (entry.linkToken, some scopes) ∈ s.granted ∧
      entry.scopesJson = Json.dumps (.arr (scopes.map .str))
  once : (s.granted.map Prod.fst).Nodup
  links : ∀ link ∈ s.links.rows, link.linkToken ∈ s.granted.map Prod.fst
  sessions : ∀ session ∈ s.sessions, session.linkToken ∈ s.granted.map Prod.fst
  accessTokens : ∀ token ∈ s.accessTokens.rows, token.linkToken ∈ s.granted.map Prod.fst

theorem init_inv (backend : Backend) : Inv (start backend) := by
  constructor <;> simp [start]

/-! ## The store -/

theorem peek_eq_some {store : ScopeStore} {now : Nat} {linkToken text : String}
    (h : store.peek now linkToken = some text) :
    ∃ entry ∈ store.entries.rows, entry.linkToken = linkToken ∧ entry.scopesJson = text := by
  unfold ScopeStore.peek at h
  split at h
  · exact absurd h (by simp)
  · rename_i entry hget
    obtain ⟨hmem, hkey⟩ := Table.get?_mem hget
    refine ⟨entry, hmem, hkey, ?_⟩
    split at h
    · split at h
      · exact Option.some.inj h
      · exact absurd h (by simp)
    · exact Option.some.inj h

/-- A pop gives what a read would have given, and leaves no new entries. -/
theorem pop_spec (store : ScopeStore) (now : Nat) (linkToken : String) :
    (store.pop now linkToken).1 = store.peek now linkToken ∧
      ∀ entry ∈ (store.pop now linkToken).2.entries.rows, entry ∈ store.entries.rows := by
  unfold ScopeStore.pop
  split
  · rename_i hnone
    exact ⟨hnone.symm, fun entry hentry => hentry⟩
  · rename_i val hval
    split
    · exact ⟨hval.symm, fun entry hentry => hentry⟩
    · exact ⟨hval.symm, fun entry hentry => (List.mem_filter.mp hentry).1⟩

theorem assign_mem {entries : Table ScopeEntry ScopeEntry.linkToken} {new entry : ScopeEntry}
    (h : entry ∈ (ScopeStore.assign entries new).rows) : entry = new ∨ entry ∈ entries.rows := by
  unfold ScopeStore.assign at h
  cases hinsert : entries.insert? new with
  | none =>
      rw [hinsert, Option.getD_none] at h
      exact (Table.mem_put h).imp_right And.left
  | some entries' =>
      rw [hinsert, Option.getD_some, (Table.insert?_eq_some hinsert).2] at h
      rcases List.mem_append.mp h with hold | hnew
      · exact .inr hold
      · exact .inl (List.mem_singleton.mp hnew)

theorem evictIfFull_mem {entries : Table ScopeEntry ScopeEntry.linkToken} {entry : ScopeEntry}
    (h : entry ∈ (ScopeStore.evictIfFull entries).rows) : entry ∈ entries.rows := by
  by_cases hfull : entries.rows.length > maxMemLinkScopes
  · rw [ScopeStore.evictIfFull, if_pos hfull, Table.drop_rows] at h
    exact List.mem_of_mem_drop h
  · rwa [ScopeStore.evictIfFull, if_neg hfull] at h

/-- Setting a key leaves old entries, and the new one. -/
theorem set_mem {store : ScopeStore} {now : Nat} {linkToken text : String} {entry : ScopeEntry}
    (h : entry ∈ (store.set now linkToken text).entries.rows) :
    (entry.linkToken = linkToken ∧ entry.scopesJson = text) ∨ entry ∈ store.entries.rows := by
  unfold ScopeStore.set at h
  dsimp only at h
  split at h
  · rcases assign_mem h with rfl | hold
    · exact .inl ⟨rfl, rfl⟩
    · exact .inr hold
  · rcases assign_mem h with rfl | hold
    · exact .inl ⟨rfl, rfl⟩
    · exact .inr (evictIfFull_mem hold)

/-! ## What an endpoint leaves -/

/-- A new link token with these scopes, and nothing else. -/
structure Creates (s t : State) (linkToken : String) (scopes : Option (List String)) : Prop where
  granted : t.granted = s.granted ++ [(linkToken, scopes)]
  accessTokens : t.accessTokens = s.accessTokens
  entries : ∀ entry ∈ t.scopeStore.entries.rows, entry ∈ s.scopeStore.entries.rows ∨
    ∃ list, scopes = some list ∧ entry.linkToken = linkToken ∧
      entry.scopesJson = Json.dumps (.arr (list.map .str))
  links : ∀ link ∈ t.links.rows, link ∈ s.links.rows ∨ link.linkToken = linkToken
  sessions : ∀ session ∈ t.sessions, session ∈ s.sessions ∨ session.linkToken = linkToken

theorem grant_entries {s : State} {linkToken : String} {scopes : Option (List String)}
    {entry : ScopeEntry} (h : entry ∈ (grant s linkToken scopes).scopeStore.entries.rows) :
    entry ∈ s.scopeStore.entries.rows ∨
      ∃ list, scopes = some list ∧ entry.linkToken = linkToken ∧
        entry.scopesJson = Json.dumps (.arr (list.map .str)) := by
  cases scopes with
  | none => exact .inl h
  | some list =>
      rcases set_mem h with ⟨hkey, htext⟩ | hold
      · exact .inr ⟨list, rfl, hkey, htext⟩
      · exact .inl hold

theorem insert_link {links links' : Table Link Link.linkToken} {link : Link}
    (h : links.insert? link = some links') :
    ∀ l ∈ links'.rows, l ∈ links.rows ∨ l.linkToken = link.linkToken := by
  intro l hl
  rw [(Table.insert?_eq_some h).2] at hl
  rcases List.mem_append.mp hl with hold | hnew
  · exact .inl hold
  · exact .inr (by rw [List.mem_singleton.mp hnew])

theorem createLink_creates {py : PyText} {s t : State} {auth : AuthContext}
    {linkToken site : String} {requested : Option (List String)}
    (h : createLink py s auth linkToken site requested = .ok t) :
    ∃ scopes, constrainRequestedScopes auth requested = .ok scopes ∧
      Creates s t linkToken scopes := by
  unfold createLink at h
  simp only [bind, Except.bind] at h
  split at h
  · exact absurd h (by simp)
  · split at h
    · exact absurd h (by simp)
    · rename_i scopes hscopes
      refine ⟨scopes, hscopes, ?_⟩
      split at h
      · exact absurd h (by simp)
      · rename_i links hinsert
        obtain rfl := Except.ok.inj h
        exact ⟨rfl, rfl, fun entry hentry => grant_entries hentry, insert_link hinsert,
          fun session hsession => .inl hsession⟩

theorem ephemeral_creates {s t : State} {linkToken : String} {site : Option String}
    {userId : Option Nat} {scopes : Option (List String)}
    (h : createEphemeralLinkSession s linkToken site userId scopes = .ok t) :
    Creates s t linkToken scopes := by
  unfold createEphemeralLinkSession at h
  split at h
  · exact absurd h (by simp)
  · rename_i links hlinks
    obtain rfl := Except.ok.inj h
    refine ⟨rfl, rfl, fun entry hentry => grant_entries hentry, ?_, ?_⟩
    · -- there is a new row only where the session has a site and a user
      intro link hlink
      unfold sessionLinks at hlinks
      split at hlinks
      · exact insert_link hlinks link hlink
      · obtain rfl := Option.some.inj hlinks
        exact .inl hlink
    · intro session hsession
      rcases List.mem_append.mp hsession with hold | hnew
      · exact .inl hold
      · exact .inr (by rw [List.mem_singleton.mp hnew])

theorem createLinkSession_creates {py : PyText} {s t : State} {auth : AuthContext}
    {linkToken : String} {site : Option String}
    (h : createLinkSession py s auth linkToken site = .ok t) :
    ∃ scopes, constrainRequestedScopes auth none = .ok scopes ∧ Creates s t linkToken scopes := by
  unfold createLinkSession at h
  simp only [bind, Except.bind] at h
  split at h
  · exact absurd h (by simp)
  · split at h
    · exact absurd h (by simp)
    · rename_i scopes hscopes
      exact ⟨scopes, hscopes, ephemeral_creates h⟩

/-- What `mint` leaves, with or without its commit. -/
theorem mint_ok {s t : State} {links : Table Link Link.linkToken} {linkToken token : String}
    {userId : Nat} {committed : Bool} (h : mint s links linkToken userId token committed = .ok t) :
    t.granted = s.granted ∧ t.sessions = s.sessions ∧
      (∀ entry ∈ t.scopeStore.entries.rows, entry ∈ s.scopeStore.entries.rows) ∧
      (committed = false ∧ t.links = s.links ∧ t.accessTokens = s.accessTokens ∨
        committed = true ∧ t.links = links ∧ t.accessTokens.rows = s.accessTokens.rows ++
          [{ token, linkToken, userId, scopes := s.scopeStore.peek s.now linkToken
             instructions := none }]) := by
  obtain ⟨hpop, hentries⟩ := pop_spec s.scopeStore s.now linkToken
  unfold mint at h
  dsimp only at h
  split at h
  · rename_i hcommitted
    split at h
    · exact absurd h (by simp)
    · rename_i accessTokens hinsert
      obtain rfl := Except.ok.inj h
      refine ⟨rfl, rfl, hentries, .inr ⟨hcommitted, rfl, ?_⟩⟩
      rw [← hpop]
      exact (Table.insert?_eq_some hinsert).2
  · rename_i hcommitted
    obtain rfl := Except.ok.inj h
    exact ⟨rfl, rfl, hentries, .inl ⟨by simpa using hcommitted, rfl, rfl⟩⟩

/-- An access token for a known link, with what the store has for it. -/
structure Mints (s t : State) (linkToken : String) : Prop where
  known : linkToken ∈ s.granted.map Prod.fst
  granted : t.granted = s.granted
  sessions : t.sessions = s.sessions
  entries : ∀ entry ∈ t.scopeStore.entries.rows, entry ∈ s.scopeStore.entries.rows
  links : ∀ link ∈ t.links.rows, link.linkToken ∈ s.granted.map Prod.fst
  accessTokens : ∃ token : AccessToken, token.linkToken = linkToken ∧
    token.scopes = s.scopeStore.peek s.now linkToken ∧
    t.accessTokens.rows = s.accessTokens.rows ++ [token]

/-- No new link token and no new access token. -/
structure Rests (s t : State) : Prop where
  granted : t.granted = s.granted
  sessions : t.sessions = s.sessions
  entries : ∀ entry ∈ t.scopeStore.entries.rows, entry ∈ s.scopeStore.entries.rows
  links : ∀ link ∈ t.links.rows, link.linkToken ∈ s.granted.map Prod.fst
  accessTokens : ∀ token ∈ t.accessTokens.rows, token ∈ s.accessTokens.rows

theorem mint_cases {s t : State} {links : Table Link Link.linkToken} {linkToken token : String}
    {userId : Nat} {committed : Bool} (hinv : Inv s)
    (hknown : linkToken ∈ s.granted.map Prod.fst)
    (hlinks : ∀ link ∈ links.rows, link.linkToken ∈ s.granted.map Prod.fst)
    (h : mint s links linkToken userId token committed = .ok t) :
    (committed = true ∧ Mints s t linkToken) ∨ (committed = false ∧ Rests s t) := by
  obtain ⟨hgranted, hsessions, hentries, hcommit⟩ := mint_ok h
  rcases hcommit with ⟨hcommitted, hlinksEq, htokens⟩ | ⟨hcommitted, hlinksEq, htokens⟩
  · refine .inr ⟨hcommitted, hgranted, hsessions, hentries, ?_, ?_⟩
    · rw [hlinksEq]
      exact hinv.links
    · rw [htokens]
      exact fun token htoken => htoken
  · refine .inl ⟨hcommitted, hknown, hgranted, hsessions, hentries, ?_, _, rfl, rfl, htokens⟩
    rw [hlinksEq]
    exact hlinks

theorem submitCredentials_cases {s t : State} {userId : Nat} {linkToken token : String}
    {committed : Bool} (hinv : Inv s)
    (h : submitCredentials s userId linkToken token committed = .ok t) :
    (committed = true ∧ Mints s t linkToken) ∨ (committed = false ∧ Rests s t) := by
  unfold submitCredentials at h
  split at h
  · exact absurd h (by simp)
  · rename_i link hfind
    have hlink : link.linkToken = linkToken := by
      have := List.find?_some hfind
      simp only [Bool.and_eq_true, beq_iff_eq] at this
      exact this.1
    have hknown := hinv.links link (List.mem_of_find?_eq_some hfind)
    rw [hlink] at hknown
    exact mint_cases hinv hknown hinv.links h

/-- A hosted session belongs to a link token that was created. -/
theorem hostedUser_known {s : State} {linkToken : String} {sessionFound : Bool} {userId : Nat}
    (hinv : Inv s) (h : hostedUser s linkToken sessionFound = some userId) :
    linkToken ∈ s.granted.map Prod.fst := by
  unfold hostedUser at h
  split at h
  · obtain ⟨session, hfind, -⟩ := Option.bind_eq_some_iff.mp h
    have hsession := List.find?_some hfind
    rw [beq_iff_eq] at hsession
    exact hsession ▸ hinv.sessions session (List.mem_of_find?_eq_some hfind)
  · exact absurd h (by simp)

theorem connect_cases {s t : State} {linkToken site token : String} {sessionFound committed : Bool}
    (hinv : Inv s)
    (h : ensureHostedLinkAccessToken s linkToken site token sessionFound committed = .ok t) :
    (mintedFor s (.connect linkToken site token sessionFound committed) = some linkToken ∧
        Mints s t linkToken) ∨
      (mintedFor s (.connect linkToken site token sessionFound committed) = none ∧
        Rests s t) := by
  have hsame : Rests s s := ⟨rfl, rfl, fun _ h => h, hinv.links, fun _ h => h⟩
  unfold ensureHostedLinkAccessToken at h
  split at h
  · -- nobody's session mints nothing
    rename_i hnone
    obtain rfl := Except.ok.inj h
    exact .inr ⟨by simp only [mintedFor, hnone], hsame⟩
  · rename_i userId huser
    have hknown := hostedUser_known hinv huser
    dsimp only at h
    split at h
    · exact absurd h (by simp)
    · rename_i links hlinks
      -- the link's row is added, moved to another site, or left alone
      have hlinksKnown : ∀ link ∈ links.rows, link.linkToken ∈ s.granted.map Prod.fst := by
        intro link hlink
        split at hlinks
        · rcases insert_link hlinks link hlink with hold | hnew
          · exact hinv.links link hold
          · rw [hnew]
            exact hknown
        · rename_i row hget
          obtain rfl := Option.some.inj hlinks
          split at hlink
          · rcases Table.mem_put hlink with rfl | ⟨hold, -⟩
            · exact hinv.links row (Table.get?_mem hget).1
            · exact hinv.links link hold
          · exact hinv.links link hlink
      split at h
      · -- no access token of the link is there, so one is minted
        rename_i hfind
        rcases mint_cases hinv hknown hlinksKnown h with ⟨rfl, hmints⟩ | ⟨rfl, hrests⟩
        · exact .inl ⟨by simp [mintedFor, huser, hfind], hmints⟩
        · exact .inr ⟨by simp [mintedFor, huser], hrests⟩
      · -- there is one, and the commit decides over the link's row only
        rename_i found hfind
        refine .inr ⟨by simp [mintedFor, huser, hfind], ?_⟩
        cases committed with
        | false =>
            obtain rfl := Except.ok.inj h
            exact hsame
        | true =>
            obtain rfl := Except.ok.inj h
            exact ⟨rfl, rfl, fun _ h => h, hlinksKnown, fun _ h => h⟩

/-- A step is a call that succeeds, and the link token it issues is new. -/
theorem respond_of_step {py : PyText} {s t : State} {l : Label} (h : step py s l = some t) :
    respond py s l = .ok t ∧
      ∀ linkToken, l.created = some linkToken → linkToken ∉ s.granted.map Prod.fst := by
  unfold step at h
  split at h
  · cases h
  · rename_i hfresh
    constructor
    · cases hrespond : respond py s l with
      | error e =>
          rw [hrespond] at h
          cases h
      | ok t' =>
          rw [hrespond] at h
          rw [Option.some.inj h]
    · intro linkToken hcreated hmem
      exact hfresh ⟨linkToken, hcreated, hmem⟩

/-- What one step can do. -/
theorem step_cases {py : PyText} {s t : State} {l : Label} (hinv : Inv s)
    (h : step py s l = some t) :
    (∃ linkToken scopes, mintedFor s l = none ∧ linkToken ∉ s.granted.map Prod.fst ∧
        Creates s t linkToken scopes) ∨
      (∃ linkToken, mintedFor s l = some linkToken ∧ Mints s t linkToken) ∨
      (mintedFor s l = none ∧ Rests s t) := by
  rcases respond_of_step h with ⟨hok, hnew⟩
  cases l with
  | createLink auth linkToken site requested =>
      obtain ⟨scopes, -, hcreates⟩ := createLink_creates hok
      exact .inl ⟨linkToken, scopes, rfl, hnew linkToken rfl, hcreates⟩
  | createLinkSession auth linkToken site =>
      obtain ⟨scopes, -, hcreates⟩ := createLinkSession_creates hok
      exact .inl ⟨linkToken, scopes, rfl, hnew linkToken rfl, hcreates⟩
  | createPublicLinkSession linkToken =>
      have hok' : createEphemeralLinkSession s linkToken none none none = .ok t := hok
      exact .inl ⟨linkToken, none, rfl, hnew linkToken rfl, ephemeral_creates hok'⟩
  | exchangeLinkBootstrap linkToken site userId scopes =>
      exact .inl ⟨linkToken, scopes, rfl, hnew linkToken rfl, ephemeral_creates hok⟩
  | submitCredentials userId linkToken token committed =>
      rcases submitCredentials_cases hinv hok with ⟨rfl, hmints⟩ | ⟨rfl, hrests⟩
      · exact .inr (.inl ⟨linkToken, rfl, hmints⟩)
      · exact .inr (.inr ⟨rfl, hrests⟩)
  | connect linkToken site token sessionFound committed =>
      rcases connect_cases hinv hok with ⟨hminted, hmints⟩ | ⟨hminted, hrests⟩
      · exact .inr (.inl ⟨linkToken, hminted, hmints⟩)
      · exact .inr (.inr ⟨hminted, hrests⟩)
  | deleteLink userId linkToken =>
      refine .inr (.inr ⟨rfl, ?_⟩)
      -- the link goes, with the tokens that hang on it
      simp only [respond, deleteLink] at hok
      split at hok
      · exact absurd hok (by simp)
      · obtain rfl := Except.ok.inj hok
        exact ⟨rfl, rfl, fun _ h => h,
          fun link hlink => hinv.links link (List.mem_filter.mp hlink).1,
          fun token htoken => (List.mem_filter.mp htoken).1⟩
  | deleteToken userId token =>
      refine .inr (.inr ⟨rfl, ?_⟩)
      simp only [respond, deleteToken] at hok
      -- the token goes
      split at hok
      · exact absurd hok (by simp)
      · obtain rfl := Except.ok.inj hok
        exact ⟨rfl, rfl, fun _ h => h, hinv.links,
          fun token htoken => (List.mem_filter.mp htoken).1⟩
  | wait milliseconds =>
      obtain rfl := Except.ok.inj hok
      exact .inr (.inr ⟨rfl, rfl, rfl, fun _ h => h, hinv.links, fun _ h => h⟩)

theorem step_inv {py : PyText} {s t : State} {l : Label} (hinv : Inv s)
    (h : step py s l = some t) : Inv t := by
  rcases step_cases hinv h with
    ⟨linkToken, scopes, -, hfresh, hcreates⟩ | ⟨linkToken, -, hmints⟩ | ⟨-, hrests⟩
  · -- a link token is granted, and no other name is
    have hnames : t.granted.map Prod.fst = s.granted.map Prod.fst ++ [linkToken] := by
      simp [hcreates.granted]
    have hkeep : ∀ name ∈ s.granted.map Prod.fst, name ∈ t.granted.map Prod.fst := by
      intro name hname
      rw [hnames]
      exact List.mem_append_left _ hname
    have hself : linkToken ∈ t.granted.map Prod.fst := by
      rw [hnames]
      exact List.mem_append_right _ (List.mem_singleton_self _)
    constructor
    · -- entries
      intro entry hentry
      rcases hcreates.entries entry hentry with hold | ⟨list, rfl, hkey, htext⟩
      · obtain ⟨list, hgranted, htext⟩ := hinv.entries entry hold
        exact ⟨list, by rw [hcreates.granted]; exact List.mem_append_left _ hgranted, htext⟩
      · refine ⟨list, ?_, htext⟩
        rw [hcreates.granted, hkey]
        exact List.mem_append_right _ (List.mem_singleton_self _)
    · -- once
      rw [hnames]
      exact List.nodup_append.mpr ⟨hinv.once, List.nodup_singleton _, by
        intro name hname other hother
        rw [List.mem_singleton.mp hother]
        exact fun heq => hfresh (heq ▸ hname)⟩
    · -- links
      intro link hlink
      rcases hcreates.links link hlink with hold | hnew
      · exact hkeep _ (hinv.links link hold)
      · rw [hnew]
        exact hself
    · -- sessions
      intro session hsession
      rcases hcreates.sessions session hsession with hold | hnew
      · exact hkeep _ (hinv.sessions session hold)
      · rw [hnew]
        exact hself
    · -- accessTokens
      intro token htoken
      rw [hcreates.accessTokens] at htoken
      exact hkeep _ (hinv.accessTokens token htoken)
  · -- a token is minted for a link that was granted
    obtain ⟨token, hlink, -, htokens⟩ := hmints.accessTokens
    constructor
    · intro entry hentry
      rw [hmints.granted]
      exact hinv.entries entry (hmints.entries entry hentry)
    · rw [hmints.granted]
      exact hinv.once
    · rw [hmints.granted]
      exact hmints.links
    · rw [hmints.granted, hmints.sessions]
      exact hinv.sessions
    · rw [hmints.granted, htokens]
      intro other hother
      rcases List.mem_append.mp hother with hold | hnew
      · exact hinv.accessTokens other hold
      · rw [List.mem_singleton.mp hnew, hlink]
        exact hmints.known
  · -- nothing is granted or minted
    constructor
    · intro entry hentry
      rw [hrests.granted]
      exact hinv.entries entry (hrests.entries entry hentry)
    · rw [hrests.granted]
      exact hinv.once
    · rw [hrests.granted]
      exact hrests.links
    · rw [hrests.granted, hrests.sessions]
      exact hinv.sessions
    · rw [hrests.granted]
      exact fun token htoken => hinv.accessTokens token (hrests.accessTokens token htoken)

/-! ## Every run -/

/-- The store has the scopes a link token was created with, or nothing. -/
theorem peek_granted {py : PyText} {s : State} (hinv : Inv s) {linkToken : String}
    {scopes : List String} (hgranted : (linkToken, some scopes) ∈ s.granted)
    (h : s.scopeStore.peek s.now linkToken ≠ none) :
    loadList py (s.scopeStore.peek s.now linkToken) = some scopes := by
  obtain ⟨text, htext⟩ := Option.ne_none_iff_exists'.mp h
  obtain ⟨entry, hentry, rfl, rfl⟩ := peek_eq_some htext
  obtain ⟨list, hlist, hdumps⟩ := hinv.entries entry hentry
  have hsame : (entry.linkToken, some list) = (entry.linkToken, some scopes) :=
    List.inj_on_of_nodup_map hinv.once hlist hgranted rfl
  obtain rfl := Option.some.inj (Prod.mk.inj hsame).2
  rw [htext, hdumps]
  exact loadList_dumps list

theorem step_confined_iff {py : PyText} {s t : State} {l : Label} (hinv : Inv s)
    (hconfined : Confined py s) (h : step py s l = some t) :
    Confined py t ↔ FindsScopes s l := by
  rcases step_cases hinv h with
    ⟨linkToken, scopes, hminted, hfresh, hcreates⟩ | ⟨linkToken, hminted, hmints⟩ |
      ⟨hminted, hrests⟩
  · -- the access tokens there are belong to other links
    refine iff_of_true ?_ (by simp [FindsScopes, hminted])
    intro token htoken list hlist
    rw [hcreates.accessTokens] at htoken
    rw [hcreates.granted] at hlist
    rcases List.mem_append.mp hlist with hold | hnew
    · exact hconfined token htoken list hold
    · obtain ⟨hlink, -⟩ := Prod.mk.inj (List.mem_singleton.mp hnew)
      exact absurd (hlink ▸ hinv.accessTokens token htoken) hfresh
  · obtain ⟨token, hlink, hscopes, htokens⟩ := hmints.accessTokens
    constructor
    · -- a confined access token has scopes, and they came from the store
      intro hall name hname list hlist hnone
      obtain rfl : linkToken = name := Option.some.inj (hminted.symm.trans hname)
      have htoken : token ∈ t.accessTokens.rows := by
        rw [htokens]
        exact List.mem_append_right _ (List.mem_singleton_self _)
      obtain ⟨allowed, hallowed, -⟩ := hall token htoken list (by
        rw [hmints.granted, hlink]
        exact hlist)
      rw [hscopes, hnone] at hallowed
      exact absurd hallowed (by simp [loadList])
    · intro hfinds other hother list hlist
      rw [htokens] at hother
      rw [hmints.granted] at hlist
      rcases List.mem_append.mp hother with hold | hnew
      · exact hconfined other hold list hlist
      · obtain rfl := List.mem_singleton.mp hnew
        rw [hlink] at hlist
        refine ⟨list, ?_, List.Subset.refl _⟩
        rw [hscopes]
        exact peek_granted hinv hlist (hfinds linkToken hminted list hlist)
  · refine iff_of_true ?_ (by simp [FindsScopes, hminted])
    intro token htoken list hlist
    rw [hrests.granted] at hlist
    exact hconfined token (hrests.accessTokens token htoken) list hlist

/-- In every state of a run every access token of a link with scopes is
confined to them, exactly when every access token that the run mints for such a
link finds the scopes still in the store. -/
theorem scopes_confined_iff (py : PyText) {backend : Backend} {tr : List Label} {u : State}
    (h : run py backend tr = some u) :
    (∀ before after t, tr = before ++ after → run py backend before = some t → Confined py t) ↔
      Runs.Along (step py) FindsScopes (start backend) tr :=
  Runs.always_iff_along (fun _ _ _ hinv hl => step_inv hinv hl)
    (fun _ _ _ hinv hconfined hl => step_confined_iff hinv hconfined hl) (init_inv backend)
    (by simp [Confined, start]) h

/-! ## Credentials submitted twice -/

/-- A link for the balance of one site, created with a JWT. -/
def balanceLink : Label :=
  .createLink { userId := 1, authMethod := "jwt" } "link-1" "greengrid_energy" (some ["balance"])

def submittedTwice : List Label :=
  [balanceLink, .submitCredentials 1 "link-1" "access-1" true,
    .submitCredentials 1 "link-1" "access-2" true]

/-- The second access token may read every field. -/
theorem submittedTwice_not_confined :
    ∃ u, run asciiText .redis submittedTwice = some u ∧
      u.granted = [("link-1", some ["balance"])] ∧
      u.accessTokens.rows.map (fun token => (token.token, token.linkToken, token.scopes)) =
        [("access-1", "link-1", some "[\"balance\"]"), ("access-2", "link-1", none)] ∧
      ¬ Confined asciiText u := by
  obtain ⟨u, hrun, hgranted, htokens⟩ : ∃ u, run asciiText .redis submittedTwice = some u ∧
      u.granted = [("link-1", some ["balance"])] ∧
      u.accessTokens.rows.map (fun token => (token.token, token.linkToken, token.scopes)) =
        [("access-1", "link-1", some "[\"balance\"]"), ("access-2", "link-1", none)] :=
    ⟨_, rfl, rfl, by decide +kernel⟩
  refine ⟨u, hrun, hgranted, htokens, ?_⟩
  intro hconfined
  have hmem : ("access-2", "link-1", none) ∈
      u.accessTokens.rows.map fun token => (token.token, token.linkToken, token.scopes) := by
    rw [htokens]
    simp
  obtain ⟨token, htoken, heq⟩ := List.mem_map.mp hmem
  obtain ⟨-, hlink, hscopes⟩ := Prod.mk.inj heq |>.imp_right Prod.mk.inj
  obtain ⟨allowed, hallowed, -⟩ := hconfined token htoken ["balance"] (by
    rw [hgranted, hlink]
    simp)
  rw [hscopes] at hallowed
  exact absurd hallowed (by simp [loadList])

/-- Credentials submitted once, a minute after the link was created. -/
def submittedOnce : List Label :=
  [balanceLink, .wait 60000, .submitCredentials 1 "link-1" "access-1" true]

theorem submittedOnce_confined :
    ∃ u, run asciiText .redis submittedOnce = some u ∧
      u.accessTokens.rows.map (·.scopes) = [some "[\"balance\"]"] ∧ Confined asciiText u := by
  have hrun : run asciiText .redis submittedOnce = some _ := rfl
  refine ⟨_, hrun, by decide +kernel,
    (scopes_confined_iff asciiText hrun).mpr ?_ submittedOnce [] _ (by simp) hrun⟩
  refine ⟨by simp [FindsScopes, mintedFor, balanceLink], by simp [FindsScopes, mintedFor], ?_,
    trivial⟩
  intro linkToken hminted scopes _ hnone
  obtain rfl : "link-1" = linkToken := Option.some.inj hminted
  exact absurd hnone (by decide +kernel)

end Plaidify.Links
