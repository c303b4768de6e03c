import Plaidify.Lib.Runs
import Plaidify.Lib.Table
import Plaidify.Lib.Text
import Plaidify.Principals.Auth

/-!
# Signing in with an external identity

`oauth2_login` of `src/src/routers/auth.py`, over the table `users` and with the
other requests that write it: `register_user`, `delete_account`,
`set_user_active` and the bootstrap user of `src/src/app.py`. What
`verify_oauth_token` answers is in the label of a step, and so are the id of a
new row and the random suffixes of a username.

A login finds its account by the bound subject, or by the email, or makes one.
Only the second of these can find an account of which another identity is the
owner.
-/

namespace Plaidify.Accounts

open Principals (HttpError)

/-! ## Accounts and identities -/

/-- A row of `users`. -/
structure User where
  id : Nat
  username : Option String
  email : Option String
  hashedPassword : Option String
  oauthProvider : Option String := none
  oauthSub : Option String := none
  isActive : Bool := true
deriving Repr, DecidableEq

/-- What a provider says of the owner of a token. `verify_oauth_token` raises
where the provider names no subject. -/
structure OAuthIdentity where
  subject : String
  email : Option String
  emailVerified : Bool
  username : Option String
  named : subject ≠ ""
deriving DecidableEq

structure OAuthSettings where
  oauthEnabled : Bool
  oauthAllowedProviders : String
  oauthAutoRegister : Bool
  registrationEnabled : Bool

/-- `str.lower` and `repr` of a string. -/
structure PyStr where
  lower : String → String
  repr : String → String

/-- The body of `POST /auth/oauth2`, what the provider's server says of its
token, and what a new account would be made of. -/
structure OAuth2LoginRequest where
  provider : String
  /-- The answer of `verify_oauth_token`, or the text of its error. -/
  identity : Except String OAuthIdentity
  newId : Nat
  suffixes : List String

/-- `user.oauth_sub` is truthy. -/
def User.isBound (user : User) : Bool :=
  user.oauthSub.any (· ≠ "")

/-- The filter of the first query of `oauth2_login`. -/
def User.hasIdentity (provider subject : String) (user : User) : Bool :=
  user.oauthProvider == some provider && user.oauthSub == some subject

/-- The names in `OAUTH_ALLOWED_PROVIDERS`. -/
def OAuthSettings.allowed (settings : OAuthSettings) (py : PyStr) : List String :=
  (((settings.oauthAllowedProviders.toList.splitOn ',').map
    fun p => Text.strip (String.ofList p)).filter (· ≠ "")).map py.lower

/-! ## `oauth2_login` -/

/-- An identity that the checks let through. -/
structure Admitted where
  provider : String
  identity : OAuthIdentity
  email : String

/-- The checks before the account is looked up. -/
def checkLogin (py : PyStr) (settings : OAuthSettings) (request : OAuth2LoginRequest) :
    Except HttpError Admitted :=
  let provider := py.lower request.provider
  if !settings.oauthEnabled then .error ⟨403, "OAuth login is disabled."⟩
  else if provider ∉ settings.allowed py then
    .error ⟨400, "Unsupported OAuth provider: " ++ py.repr request.provider⟩
  else
    match request.identity with
    | .error _ => .error ⟨401, "OAuth token verification failed."⟩
    | .ok identity =>
        match identity.email with
        | none => .error ⟨403, "A verified email from the provider is required to sign in."⟩
        | some email =>
            if email = "" || !identity.emailVerified then
              .error ⟨403, "A verified email from the provider is required to sign in."⟩
            else .ok { provider, identity, email }

/-- `_unique_username`, with the suffixes that the random source yields. -/
def uniqueUsername (users : Table User User.id) (base : String) (suffixes : List String) :
    Option String :=
  let stripped := Text.strip (if base = "" then "user" else base)
  let base := if stripped = "" then "user" else stripped
  (base :: suffixes.map fun hex => base ++ "-" ++ hex).find? fun candidate =>
    !users.rows.any (·.username == some candidate)

/-- `identity.username or identity.email.split("@", 1)[0]`. -/
def Admitted.usernameBase (login : Admitted) : String :=
  ((login.identity.username).filter (· ≠ "")).getD
    (String.ofList (login.email.toList.takeWhile (· ≠ '@')))

/-- Write the identity into the row. -/
def User.bind (user : User) (login : Admitted) : User :=
  { user with
    oauthProvider := some login.provider
    oauthSub := some login.identity.subject }

/-- The account with this identity, or else the one with this email. The latter
is bound to the identity if it is not bound to one. -/
def matchUser (users : Table User User.id) (login : Admitted) :
    Option (Table User User.id × User) :=
  match users.rows.find? (User.hasIdentity login.provider login.identity.subject) with
  | some user => some (users, user)
  | none =>
      match users.rows.find? (·.email == some login.email) with
      | none => none
      | some user =>
          if user.isBound then some (users, user)
          else some (users.put (user.bind login), user.bind login)

/-- A new account for an identity. -/
def provision (users : Table User User.id) (login : Admitted) (newId : Nat)
    (suffixes : List String) : Option (Table User User.id × User) :=
  (uniqueUsername users login.usernameBase suffixes).bind fun username =>
    let user : User := {
      id := newId
      username := some username
      email := some login.email
      hashedPassword := none
      oauthProvider := some login.provider
      oauthSub := some login.identity.subject }
    (users.insert? user).map fun users => (users, user)

/-- The user whose tokens are issued. -/
def signIn (user : User) : Except HttpError Nat :=
  if user.isActive then .ok user.id else .error ⟨403, "Account is disabled."⟩

/-- The lookup and what follows it. -/
def loginAs (settings : OAuthSettings) (users : Table User User.id) (login : Admitted)
    (newId : Nat) (suffixes : List String) :
    Option (Table User User.id × Except HttpError Nat) :=
  match matchUser users login with
  | some (users, user) => some (users, signIn user)
  | none =>
      if settings.oauthAutoRegister then
        (provision users login newId suffixes).map fun r => (r.1, signIn r.2)
      else some (users, .error ⟨403, "No account is linked to this identity."⟩)

/-! ## Histories -/

/-- A login whose tokens were issued. -/
structure Login where
  provider : String
  subject : String
  userId : Nat
deriving Repr, DecidableEq

structure AccountDb where
  users : Table User User.id
  /-- History variable: the logins of the accounts that still exist. -/
  logins : List Login

inductive AccountLabel where
  | register (username email hashedPassword : String) (newId : Nat)
  /-- `_bootstrap_user`, when the server starts. -/
  | bootstrapUser (username email hashedPassword : String) (newId : Nat)
  | oauth2Login (request : OAuth2LoginRequest)
  /-- `set_user_active` by an administrator. -/
  | setUserActive (userId : Nat) (active : Bool)
  /-- `delete_account` of a user who has confirmed it. -/
  | deleteAccount (userId : Nat)

/-- `username` or `email` is in the table. -/
def taken (users : Table User User.id) (username email : String) : Bool :=
  users.rows.any fun u => u.username == some username || u.email == some email

/-- Insert a local account whose name and email are not in the table. -/
def addLocal (users : Table User User.id) (username email hashedPassword : String)
    (newId : Nat) : Option (Table User User.id) :=
  if taken users username email then some users
  else users.insert? {
    id := newId
    username := some username
    email := some email
    hashedPassword := some hashedPassword }

/-- `delete_account`, as far as the table `users` is concerned. -/
def removeUser (s : AccountDb) (userId : Nat) : AccountDb :=
  { users := s.users.delete (·.id == userId)
    logins := s.logins.filter (·.userId ≠ userId) }

/-- The history after the answer to a login. -/
def noteLogin (logins : List Login) (login : Admitted) : Except HttpError Nat → List Login
  | .ok userId =>
      logins ++ [{ provider := login.provider, subject := login.identity.subject, userId }]
  | .error _ => logins

/-- One request. -/
def accountStep (py : PyStr) (settings : OAuthSettings) (s : AccountDb) :
    AccountLabel → Option AccountDb
  | .register username email hashedPassword newId =>
      if settings.registrationEnabled then
        (addLocal s.users username email hashedPassword newId).map ({ s with users := · })
      else some s
  | .bootstrapUser username email hashedPassword newId =>
      if username = "" || email = "" || hashedPassword = "" then some s
      else (addLocal s.users username email hashedPassword newId).map ({ s with users := · })
  | .oauth2Login request =>
      match checkLogin py settings request with
      | .error _ => some s
      | .ok login =>
          (loginAs settings s.users login request.newId request.suffixes).map fun r =>
            { users := r.1, logins := noteLogin s.logins login r.2 }
  | .setUserActive userId active =>
      match s.users.get? userId with
      | none => some s
      | some user => some { s with users := s.users.put { user with isActive := active } }
  | .deleteAccount userId => some (removeUser s userId)

def noAccounts : AccountDb := ⟨.empty, []⟩

/-- The logins of one identity were all issued tokens for one user. -/
def Stable (s : AccountDb) : Prop :=
  ∀ a ∈ s.logins, ∀ b ∈ s.logins,
    a.provider = b.provider → a.subject = b.subject → a.userId = b.userId

/-- The login is signed in by its email to an account that is bound to another
identity. -/
def boundElsewhere (users : Table User User.id) (login : Admitted) : Bool :=
  (users.rows.find? (User.hasIdentity login.provider login.identity.subject)).isNone &&
    (users.rows.find? (·.email == some login.email)).any fun u => u.isBound && u.isActive

/-- A login that finds its account by the email finds one without a bound
identity, or one that is disabled. -/
def NotBoundElsewhere (py : PyStr) (settings : OAuthSettings) (s : AccountDb) :
    AccountLabel → Prop
  | .oauth2Login request =>
      ((checkLogin py settings request).toOption.any (boundElsewhere s.users)) = false
  | _ => True

instance (py : PyStr) (settings : OAuthSettings) (s : AccountDb) :
    (l : AccountLabel) → Decidable (NotBoundElsewhere py settings s l)
  | .oauth2Login request =>
      inferInstanceAs (Decidable
        (((checkLogin py settings request).toOption.any (boundElsewhere s.users)) = false))
  | .register .. | .bootstrapUser .. | .setUserActive .. | .deleteAccount _ => .isTrue trivial

/-! ## Owners of identities -/

/-- The user to whose account the identity is bound. -/
def Owns (users : Table User User.id) (provider subject : String) (userId : Nat) : Prop :=
  ∃ u ∈ users.rows, u.id = userId ∧ u.hasIdentity provider subject = true

theorem hasIdentity_iff {user : User} {provider subject : String} :
    user.hasIdentity provider subject = true ↔
      user.oauthProvider = some provider ∧ user.oauthSub = some subject := by
  simp [User.hasIdentity]

theorem bind_hasIdentity {user : User} {login : Admitted} {provider subject : String} :
    (user.bind login).hasIdentity provider subject = true ↔
      login.provider = provider ∧ login.identity.subject = subject := by
  simp [User.bind, hasIdentity_iff]

theorem isBound_of_hasIdentity {user : User} {provider subject : String}
    (h : user.hasIdentity provider subject = true) (hsub : subject ≠ "") :
    user.isBound = true := by
  simp [User.isBound, (hasIdentity_iff.mp h).2, hsub]

theorem owns_insert {users users' : Table User User.id} {user : User}
    (h : users.insert? user = some users') {provider subject : String} {userId : Nat} :
    Owns users' provider subject userId ↔ Owns users provider subject userId ∨
      (user.id = userId ∧ user.hasIdentity provider subject = true) := by
  unfold Owns
  rw [(Table.insert?_eq_some h).2]
  constructor
  · rintro ⟨u, hu, hid, hown⟩
    rcases List.mem_append.mp hu with hu | hu
    · exact .inl ⟨u, hu, hid, hown⟩
    · rw [List.mem_singleton.mp hu] at hid hown
      exact .inr ⟨hid, hown⟩
  · rintro (⟨u, hu, hown⟩ | hown)
    · exact ⟨u, List.mem_append_left _ hu, hown⟩
    · exact ⟨user, by simp, hown⟩

/-- A row that is written over owns what it says, and no other row changes. -/
theorem owns_put {users : Table User User.id} {old user : User} (hold : old ∈ users.rows)
    (hid : old.id = user.id) {provider subject : String} {userId : Nat} :
    Owns (users.put user) provider subject userId ↔
      (user.id = userId ∧ user.hasIdentity provider subject = true) ∨
        (userId ≠ user.id ∧ Owns users provider subject userId) := by
  constructor
  · rintro ⟨u, hu, rfl, hown⟩
    rcases Table.mem_put hu with rfl | ⟨hmem, hne⟩
    · exact .inl ⟨rfl, hown⟩
    · exact .inr ⟨hne, u, hmem, rfl, hown⟩
  · rintro (⟨rfl, hown⟩ | ⟨hne, u, hu, rfl, hown⟩)
    · exact ⟨user, Table.mem_put_self hold hid, rfl, hown⟩
    · exact ⟨u, Table.mem_put_of_ne hu hne, rfl, hown⟩

theorem owns_delete {users : Table User User.id} {gone : Nat} {provider subject : String}
    {userId : Nat} : Owns (users.delete (·.id == gone)) provider subject userId ↔
      Owns users provider subject userId ∧ userId ≠ gone := by
  unfold Owns
  rw [Table.delete_rows]
  constructor
  · rintro ⟨u, hu, rfl, hown⟩
    rcases List.mem_filter.mp hu with ⟨hmem, hne⟩
    exact ⟨⟨u, hmem, rfl, hown⟩, by simpa using hne⟩
  · rintro ⟨⟨u, hu, rfl, hown⟩, hne⟩
    exact ⟨u, List.mem_filter.mpr ⟨hu, by simpa using hne⟩, rfl, hown⟩

/-- What a login did to the identities' owners: nothing, or it bound an identity
that had no owner. -/
inductive Resolved (users users' : Table User User.id) (login : Admitted) : User → Prop where
  | identity (user : User) (hfind : users.rows.find?
      (User.hasIdentity login.provider login.identity.subject) = some user)
      (hsame : users' = users) : Resolved users users' login user
  | email (user : User) (hnone : users.rows.find?
      (User.hasIdentity login.provider login.identity.subject) = none)
      (hfind : users.rows.find? (·.email == some login.email) = some user)
      (hbound : user.isBound = true) (hsame : users' = users) :
      Resolved users users' login user
  | bound (user : User) (hnone : users.rows.find?
      (User.hasIdentity login.provider login.identity.subject) = none)
      (hmem : user ∈ users.rows) (hfree : user.isBound = false)
      (hput : users' = users.put (user.bind login)) :
      Resolved users users' login (user.bind login)
  | provisioned (user : User) (hnone : users.rows.find?
      (User.hasIdentity login.provider login.identity.subject) = none)
      (hown : ∀ provider subject, user.hasIdentity provider subject = true ↔
        login.provider = provider ∧ login.identity.subject = subject)
      (hinsert : users.insert? user = some users') : Resolved users users' login user

theorem resolved_of_matchUser {users users' : Table User User.id} {login : Admitted} {user : User}
    (h : matchUser users login = some (users', user)) : Resolved users users' login user := by
  unfold matchUser at h
  cases hident : users.rows.find? (User.hasIdentity login.provider login.identity.subject) with
  | some u =>
      rw [hident] at h
      simp only [Option.some.injEq, Prod.mk.injEq] at h
      rcases h with ⟨rfl, rfl⟩
      exact .identity _ hident rfl
  | none =>
      rw [hident] at h
      cases hemail : users.rows.find? (·.email == some login.email) with
      | none =>
          rw [hemail] at h
          cases h
      | some u =>
          rw [hemail] at h
          by_cases hbound : u.isBound = true
          · dsimp only at h
            rw [if_pos hbound, Option.some.injEq, Prod.mk.injEq] at h
            rcases h with ⟨rfl, rfl⟩
            exact .email _ hident hemail hbound rfl
          · dsimp only at h
            rw [if_neg hbound, Option.some.injEq, Prod.mk.injEq] at h
            rcases h with ⟨rfl, rfl⟩
            exact .bound u hident (List.mem_of_find?_eq_some hemail)
              (by simpa using hbound) rfl

/-- The two ways a login ends: it is refused and nothing changes, or it is
answered for the account that it has resolved. -/
theorem loginAs_cases {settings : OAuthSettings} {users users' : Table User User.id}
    {login : Admitted} {newId : Nat} {suffixes : List String} {answer : Except HttpError Nat}
    (h : loginAs settings users login newId suffixes = some (users', answer)) :
    (users' = users ∧ ∃ e, answer = .error e) ∨
      ∃ user, Resolved users users' login user ∧ answer = signIn user := by
  unfold loginAs at h
  cases hmatch : matchUser users login with
  | some r =>
      rcases r with ⟨v, user⟩
      rw [hmatch] at h
      simp only [Option.some.injEq, Prod.mk.injEq] at h
      rcases h with ⟨rfl, rfl⟩
      exact .inr ⟨user, resolved_of_matchUser hmatch, rfl⟩
  | none =>
      rw [hmatch] at h
      by_cases hauto : settings.oauthAutoRegister = true
      · simp only [hauto, if_true, Option.map_eq_some_iff, Prod.mk.injEq] at h
        rcases h with ⟨⟨v, user⟩, hprov, rfl, rfl⟩
        refine .inr ⟨user, ?_, rfl⟩
        unfold provision at hprov
        simp only [Option.bind_eq_some_iff, Option.map_eq_some_iff, Prod.mk.injEq] at hprov
        rcases hprov with ⟨username, -, t, hinsert, rfl, rfl⟩
        refine .provisioned _ ?_ (by simp [hasIdentity_iff]) hinsert
        unfold matchUser at hmatch
        split at hmatch
        · cases hmatch
        · assumption
      · simp only [hauto, Bool.false_eq_true, if_false, Option.some.injEq, Prod.mk.injEq] at h
        exact .inl ⟨h.1.symm, _, h.2.symm⟩

/-! ## Logins of bound identities -/

/-- An identity is bound to at most one account, and every login that was
answered for an account is of an identity that is bound to it. -/
structure IdentityInv (s : AccountDb) : Prop where
  one : ∀ provider subject i j, subject ≠ "" → Owns s.users provider subject i →
    Owns s.users provider subject j → i = j
  owner : ∀ l ∈ s.logins, l.subject ≠ "" ∧ Owns s.users l.provider l.subject l.userId

theorem stable_of_inv {s : AccountDb} (h : IdentityInv s) : Stable s := by
  intro a ha b hb hprovider hsubject
  have hown := (h.owner b hb).2
  rw [← hprovider, ← hsubject] at hown
  exact h.one a.provider a.subject a.userId b.userId (h.owner a ha).1 (h.owner a ha).2 hown

theorem inv_noAccounts : IdentityInv noAccounts := by
  constructor
  · rintro provider subject i j - ⟨u, hu, -⟩
    exact absurd hu (by simp [noAccounts])
  · intro l hl
    exact absurd hl (by simp [noAccounts])

/-- A write to `users` that leaves the owners as they are keeps the invariant. -/
theorem IdentityInv.of_owns {s : AccountDb} (hinv : IdentityInv s)
    {users : Table User User.id}
    (howns : ∀ provider subject i, subject ≠ "" →
      (Owns users provider subject i ↔ Owns s.users provider subject i)) :
    IdentityInv { s with users } := by
  constructor
  · intro provider subject i j hsub hi hj
    exact hinv.one provider subject i j hsub ((howns _ _ i hsub).mp hi) ((howns _ _ j hsub).mp hj)
  · intro l hl
    rcases hinv.owner l hl with ⟨hsub, hown⟩
    exact ⟨hsub, (howns _ _ _ hsub).mpr hown⟩

/-- A local account is bound to no identity. -/
theorem owns_addLocal {users users' : Table User User.id} {username email hashed : String}
    {newId : Nat} (h : addLocal users username email hashed newId = some users')
    {provider subject : String} {i : Nat} :
    Owns users' provider subject i ↔ Owns users provider subject i := by
  unfold addLocal at h
  split at h
  · rw [Option.some.inj h]
  · rw [owns_insert h]
    simp [hasIdentity_iff]

/-- No row owns an identity that the first query does not find. -/
theorem not_owns_of_find {users : Table User User.id} {provider subject : String}
    (h : users.rows.find? (User.hasIdentity provider subject) = none) (i : Nat) :
    ¬Owns users provider subject i := by
  rintro ⟨u, hu, -, hown⟩
  exact List.find?_eq_none.mp h u hu hown

/-- The owners after a login that has bound an identity. -/
theorem owns_resolved {users users' : Table User User.id} {login : Admitted} {user : User}
    (h : Resolved users users' login user) :
    (∀ provider subject i, subject ≠ "" → (Owns users' provider subject i ↔
        Owns users provider subject i)) ∨
      ((∀ i, ¬Owns users login.provider login.identity.subject i) ∧
        ∀ provider subject i, subject ≠ "" → (Owns users' provider subject i ↔
          Owns users provider subject i ∨
            (login.provider = provider ∧ login.identity.subject = subject ∧ user.id = i))) := by
  cases h with
  | identity _ _ hsame => exact .inl fun _ _ _ _ => by rw [hsame]
  | email _ _ _ _ hsame => exact .inl fun _ _ _ _ => by rw [hsame]
  | bound old hnone hmem hfree hput =>
      refine .inr ⟨not_owns_of_find hnone, ?_⟩
      intro provider subject i hsub
      have hid : old.id = (old.bind login).id := rfl
      -- the row that is written over was bound to nothing
      have hold : ¬Owns users provider subject old.id := by
        rintro ⟨u, hu, hkey, hown⟩
        rw [Table.eq_of_key_eq hu hmem hkey] at hown
        rw [isBound_of_hasIdentity hown hsub] at hfree
        cases hfree
      rw [hput, owns_put hmem hid, bind_hasIdentity]
      constructor
      · rintro (⟨hi, hp, hs⟩ | ⟨-, hown⟩)
        · exact .inr ⟨hp, hs, hi⟩
        · exact .inl hown
      · rintro (hown | ⟨hp, hs, hi⟩)
        · refine .inr ⟨?_, hown⟩
          rintro rfl
          exact hold hown
        · exact .inl ⟨hi, hp, hs⟩
  | provisioned new hnone hown hinsert =>
      refine .inr ⟨not_owns_of_find hnone, ?_⟩
      intro provider subject i _
      rw [owns_insert hinsert, hown]
      refine or_congr_right ?_
      constructor
      · rintro ⟨hi, hp, hs⟩
        exact ⟨hp, hs, hi⟩
      · rintro ⟨hp, hs, hi⟩
        exact ⟨hi, hp, hs⟩

theorem inv_of_resolved {s : AccountDb} {users' : Table User User.id} {login : Admitted}
    {user : User} (hinv : IdentityInv s) (h : Resolved s.users users' login user) :
    IdentityInv { s with users := users' } := by
  rcases owns_resolved h with hsame | ⟨hfree, howns⟩
  · exact hinv.of_owns hsame
  · constructor
    · intro provider subject i j hsub hi hj
      rcases (howns _ _ i hsub).mp hi with holdi | ⟨rfl, rfl, hnewi⟩
      · rcases (howns _ _ j hsub).mp hj with holdj | ⟨rfl, rfl, -⟩
        · exact hinv.one provider subject i j hsub holdi holdj
        · exact absurd holdi (hfree i)
      · rcases (howns _ _ j hsub).mp hj with holdj | ⟨-, -, hnewj⟩
        · exact absurd holdj (hfree j)
        · exact hnewi.symm.trans hnewj
    · intro l hl
      rcases hinv.owner l hl with ⟨hsub, hown⟩
      exact ⟨hsub, (howns _ _ _ hsub).mpr (.inl hown)⟩

/-- Who signs in by the identity, or is bound to it, owns it afterwards. -/
theorem owns_of_resolved {users users' : Table User User.id} {login : Admitted} {user : User}
    (h : Resolved users users' login user)
    (hC : boundElsewhere users login = false) (hactive : user.isActive = true) :
    Owns users' login.provider login.identity.subject user.id := by
  cases h with
  | identity _ hfind hsame =>
      rw [hsame]
      exact ⟨user, List.mem_of_find?_eq_some hfind, rfl, List.find?_some hfind⟩
  | email _ hnone hfind hbound _ =>
      simp [boundElsewhere, hnone, hfind, hbound, hactive] at hC
  | bound old _ hmem _ hput =>
      have hid : old.id = (old.bind login).id := rfl
      rw [hput, owns_put hmem hid]
      exact .inl ⟨rfl, bind_hasIdentity.mpr ⟨rfl, rfl⟩⟩
  | provisioned _ _ hown hinsert =>
      rw [owns_insert hinsert]
      exact .inr ⟨rfl, (hown _ _).mpr ⟨rfl, rfl⟩⟩

theorem inv_noteLogin {users : Table User User.id} {logins : List Login} {login : Admitted}
    {user : User} (hinv : IdentityInv ⟨users, logins⟩)
    (hown : user.isActive = true → Owns users login.provider login.identity.subject user.id) :
    IdentityInv ⟨users, noteLogin logins login (signIn user)⟩ := by
  refine ⟨hinv.one, ?_⟩
  intro l hl
  by_cases hactive : user.isActive = true
  · simp only [signIn, hactive, if_true, noteLogin] at hl
    rcases List.mem_append.mp hl with hl | hl
    · exact hinv.owner l hl
    · rw [List.mem_singleton.mp hl]
      exact ⟨login.identity.named, hown hactive⟩
  · simp only [signIn, hactive] at hl
    exact hinv.owner l hl

theorem inv_removeUser {s : AccountDb} (hinv : IdentityInv s) (userId : Nat) :
    IdentityInv (removeUser s userId) := by
  constructor
  · intro provider subject i j hsub hi hj
    exact hinv.one provider subject i j hsub (owns_delete.mp hi).1 (owns_delete.mp hj).1
  · intro l hl
    rcases List.mem_filter.mp hl with ⟨hmem, hne⟩
    rcases hinv.owner l hmem with ⟨hsub, hown⟩
    exact ⟨hsub, owns_delete.mpr ⟨hown, by simpa using hne⟩⟩

/-- A change of `is_active` leaves the identity of the row. -/
theorem owns_setActive {users : Table User User.id} {user : User} {active : Bool}
    (hmem : user ∈ users.rows) {provider subject : String} {i : Nat} :
    Owns (users.put { user with isActive := active }) provider subject i ↔
      Owns users provider subject i := by
  have hid : user.id = { user with isActive := active }.id := rfl
  rw [owns_put hmem hid]
  constructor
  · rintro (⟨rfl, hown⟩ | ⟨-, hown⟩)
    · exact ⟨user, hmem, rfl, hown⟩
    · exact hown
  · rintro ⟨u, hu, rfl, hown⟩
    by_cases hkey : u.id = user.id
    · rw [Table.eq_of_key_eq hu hmem hkey] at hown ⊢
      exact .inl ⟨rfl, hown⟩
    · exact .inr ⟨hkey, u, hu, rfl, hown⟩

theorem inv_accountStep {py : PyStr} {settings : OAuthSettings} {s t : AccountDb}
    {l : AccountLabel} (hinv : IdentityInv s) (hC : NotBoundElsewhere py settings s l)
    (h : accountStep py settings s l = some t) : IdentityInv t := by
  cases l with
  | register username email hashed newId =>
      simp only [accountStep] at h
      split at h
      · rcases Option.map_eq_some_iff.mp h with ⟨users, hadd, rfl⟩
        exact hinv.of_owns fun _ _ _ _ => owns_addLocal hadd
      · rw [← Option.some.inj h]
        exact hinv
  | bootstrapUser username email hashed newId =>
      simp only [accountStep] at h
      split at h
      · rw [← Option.some.inj h]
        exact hinv
      · rcases Option.map_eq_some_iff.mp h with ⟨users, hadd, rfl⟩
        exact hinv.of_owns fun _ _ _ _ => owns_addLocal hadd
  | oauth2Login request =>
      simp only [accountStep] at h
      cases hchecked : checkLogin py settings request with
      | error e =>
          rw [hchecked] at h
          rw [← Option.some.inj h]
          exact hinv
      | ok login =>
          rw [hchecked] at h
          rcases Option.map_eq_some_iff.mp h with ⟨⟨users, answer⟩, hlogin, rfl⟩
          rcases loginAs_cases hlogin with ⟨rfl, e, rfl⟩ | ⟨user, hres, rfl⟩
          · exact hinv
          · exact inv_noteLogin (inv_of_resolved hinv hres)
              (owns_of_resolved hres (by simpa [NotBoundElsewhere, hchecked, Except.toOption] using hC))
  | setUserActive userId active =>
      simp only [accountStep] at h
      cases hget : s.users.get? userId with
      | none =>
          rw [hget] at h
          rw [← Option.some.inj h]
          exact hinv
      | some user =>
          rw [hget] at h
          rw [← Option.some.inj h]
          exact hinv.of_owns fun _ _ _ _ => owns_setActive (Table.get?_mem hget).1
  | deleteAccount userId =>
      rw [← Option.some.inj h]
      exact inv_removeUser hinv userId

/-- Where no login by email is signed in to an account that has a bound identity,
the logins of one identity are all for one user, for as long as the user exists. -/
theorem oauth_identity_stable {py : PyStr} {settings : OAuthSettings} {tr : List AccountLabel}
    (hC : Runs.Along (accountStep py settings) (NotBoundElsewhere py settings) noAccounts tr) :
    ∀ before after s, tr = before ++ after →
      Runs.exec (accountStep py settings) noAccounts before = some s → Stable s := by
  intro before after s heq h
  exact stable_of_inv (Runs.always_of_along (fun _ _ _ => inv_accountStep) inv_noAccounts hC
    before after s heq h)

/-! ## An identity without an account of its own -/

def openSettings : OAuthSettings where
  oauthEnabled := true
  oauthAllowedProviders := "google,github"
  oauthAutoRegister := true
  registrationEnabled := true

def asciiStr : PyStr where
  lower := Text.asciiLower
  repr s := "'" ++ s ++ "'"

/-- A login whose provider vouches for the subject and the email. -/
def verifiedLogin (provider subject email : String) (named : subject ≠ "") (newId : Nat) :
    AccountLabel :=
  .oauth2Login {
    provider
    identity := .ok { subject, email := some email, emailVerified := true, username := none, named }
    newId
    suffixes := ["c0ffee"] }

/-- A local account, an identity that is bound to it at the first login, and the
same identity under another email. -/
def renamedHistory : List AccountLabel :=
  [.register "ada" "ada@example.org" "hash" 1,
    verifiedLogin "Google" "g-1" "ada@example.org" (by decide) 2,
    verifiedLogin "google" "g-1" "ada@example.com" (by decide) 2]

theorem renamedHistory_stable :
    ∃ s, Runs.exec (accountStep asciiStr openSettings) noAccounts renamedHistory = some s ∧
      s.logins = [⟨"google", "g-1", 1⟩, ⟨"google", "g-1", 1⟩] ∧ Stable s := by
  have hrun : (Runs.exec (accountStep asciiStr openSettings) noAccounts renamedHistory).map
      AccountDb.logins = some [⟨"google", "g-1", 1⟩, ⟨"google", "g-1", 1⟩] := by
    decide +kernel
  rcases Option.map_eq_some_iff.mp hrun with ⟨s, hs, hlogins⟩
  refine ⟨s, hs, hlogins, oauth_identity_stable ?_ _ [] s (List.append_nil _).symm hs⟩
  decide +kernel

/-- An identity that signs in to another identity's account by the email it has
at the moment, and again after a change of the email. -/
def sharedEmailHistory : List AccountLabel :=
  [verifiedLogin "github" "gh-1" "ada@example.org" (by decide) 1,
    verifiedLogin "google" "g-1" "ada@example.org" (by decide) 2,
    verifiedLogin "google" "g-1" "ada@example.com" (by decide) 2]

theorem sharedEmailHistory_not_stable :
    ∃ s, Runs.exec (accountStep asciiStr openSettings) noAccounts sharedEmailHistory = some s ∧
      s.users.rows.map User.id = [1, 2] ∧ ¬Stable s := by
  have hrun : (Runs.exec (accountStep asciiStr openSettings) noAccounts sharedEmailHistory).map
      (fun s => (s.users.rows.map User.id, s.logins)) =
      some ([1, 2], [⟨"github", "gh-1", 1⟩, ⟨"google", "g-1", 1⟩, ⟨"google", "g-1", 2⟩]) := by
    decide +kernel
  rcases Option.map_eq_some_iff.mp hrun with ⟨s, hs, heq⟩
  simp only [Prod.mk.injEq] at heq
  refine ⟨s, hs, heq.1, fun hstable => ?_⟩
  have hsame := hstable ⟨"google", "g-1", 1⟩ (by simp [heq.2]) ⟨"google", "g-1", 2⟩
    (by simp [heq.2]) rfl rfl
  exact absurd hsame (by decide)

end Plaidify.Accounts
