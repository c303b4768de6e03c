import Plaidify.HostedLink.Connections
import Plaidify.Lib.Interleaving

/-!
# Concurrent exchanges of a public token

`exchange_public_token` (`src/src/routers/links.py`) reads the row and checks
it in Python, commits `exchanged = True` in a statement that names the row by
its key alone, and reads the row again for the access token that it answers.
Under READ COMMITTED isolation other requests run between these steps.

The docstring says that a token can only be exchanged once. `exchanged_once`
is the condition for it: no commit goes through over a row that the request,
reading it again, would be refused.
-/

namespace Plaidify.HostedLink

open Principals (HttpError)

/-- The rows, and how far the requests have come. -/
structure ExchangeDb where
  publicTokens : Table PublicToken PublicToken.token
  /-- The requests that have committed, with the token of each. -/
  committed : List (Nat × String)
  /-- The requests that were answered, with the token and the access token. -/
  answered : List (Nat × String × String)

inductive ExchangeOperation where
  /-- Up to the commit. -/
  | exchange (request userId : Nat) (publicToken : String) (now : Nat)
  /-- From the commit to the response. -/
  | answer (request : Nat)
  /-- `DELETE /tokens/{token}`; the rows of `public_tokens` go with it. -/
  | deleteToken (accessToken : String)
deriving DecidableEq

/-- `exchange_public_token` up to its commit: the row, if it may be exchanged. -/
def readPublicToken (publicTokens : Table PublicToken PublicToken.token) (userId : Nat)
    (publicToken : String) (now : Nat) : Except HttpError PublicToken :=
  if publicToken = "" then .error ⟨422, "public_token is required."⟩
  else
    match publicTokens.get? publicToken with
    | none => .error ⟨404, "Invalid public_token."⟩
    | some pt =>
        if pt.userId ≠ userId then .error ⟨403, "Not authorized to exchange this token."⟩
        else if pt.exchanged then .error ⟨410, "public_token has already been exchanged."⟩
        else if pt.expiresAt < now then .error ⟨410, "public_token has expired."⟩
        else .ok pt

/-- The response: the row is read again for its access token. -/
def ExchangeDb.respond (db : ExchangeDb) (request : Nat) (token : String) : ExchangeDb :=
  { db with
    committed := db.committed.eraseP (·.1 == request)
    answered :=
      match db.publicTokens.get? token with
      -- `ObjectDeletedError`
      | none => db.answered
      | some pt => db.answered ++ [(request, token, pt.accessToken)] }

namespace ExchangeOperation

/-- The token that the operation goes on with. -/
def read (db : ExchangeDb) : ExchangeOperation → Option String
  | .exchange _ userId publicToken now =>
      (readPublicToken db.publicTokens userId publicToken now).toOption.map (·.token)
  | .answer request => (db.committed.find? (·.1 == request)).map (·.2)
  | .deleteToken accessToken => some accessToken

/-- An update that finds no row raises `StaleDataError`. -/
def write (token : String) (db : ExchangeDb) : ExchangeOperation → Option ExchangeDb
  | .exchange request .. =>
      (db.publicTokens.get? token).map fun pt =>
        { db with
          publicTokens := db.publicTokens.put { pt with exchanged := true }
          committed := db.committed ++ [(request, token)] }
  | .answer request => some (db.respond request token)
  | .deleteToken accessToken =>
      some { db with publicTokens := db.publicTokens.delete (·.accessToken == accessToken) }

end ExchangeOperation

/-- `exchange_public_token` as the database sees it. -/
def exchanges : Interleaving.Operations ExchangeOperation ExchangeDb String where
  read o db := o.read db
  write o token db := o.write token db

/-- How many requests have exchanged a token: those that have committed and
those that were answered. -/
def ExchangeDb.exchanges (db : ExchangeDb) (token : String) : Nat :=
  db.committed.countP (·.2 == token) + db.answered.countP (·.2.1 == token)

/-! ## One request after the other -/

/-- The hosted flow takes the endpoint as one step: there it is what a request
comes to that nothing interrupts. -/
theorem exchangePublicToken_eq_read {s : State} {userId : Nat} {publicToken : String}
    (hne : publicToken ≠ "") :
    exchangePublicToken s userId publicToken =
      (readPublicToken s.publicTokens userId publicToken s.now).map fun pt =>
        (pt.accessToken,
          { s with publicTokens := s.publicTokens.put { pt with exchanged := true } }) := by
  unfold exchangePublicToken readPublicToken
  rw [if_neg hne]
  cases s.publicTokens.get? publicToken with
  | none => rfl
  | some pt =>
      by_cases huser : pt.userId ≠ userId
      · simp only [if_pos huser, Except.map]
      · by_cases hdone : pt.exchanged = true
        · simp only [if_neg huser, if_pos hdone, Except.map]
        · by_cases hold : pt.expiresAt < s.now
          · simp only [if_neg huser, if_neg hdone, if_pos hold, Except.map]
          · simp only [if_neg huser, if_neg hdone, if_neg hold, Except.map]

theorem readPublicToken_ok {publicTokens : Table PublicToken PublicToken.token} {userId now : Nat}
    {publicToken : String} {pt : PublicToken}
    (h : readPublicToken publicTokens userId publicToken now = .ok pt) :
    publicTokens.get? publicToken = some pt ∧ pt.exchanged = false := by
  unfold readPublicToken at h
  split at h
  · cases h
  · split at h
    · cases h
    · rename_i row hrow
      split at h
      · cases h
      · split at h
        · cases h
        · rename_i hdone
          split at h
          · cases h
          · obtain rfl := Except.ok.inj h
            exact ⟨hrow, by simpa using hdone⟩

/-- A token is exchanged once at most, and not at all while its row says so. -/
def ExchangedOnce (db : ExchangeDb) : Prop :=
  ∀ token, db.exchanges token ≤ 1 ∧
    ∀ pt, db.publicTokens.get? token = some pt → pt.exchanged = false → db.exchanges token = 0

/-- An exchange that nothing interrupts marks a row that was not marked. -/
theorem once_exchange {db next : ExchangeDb} {request userId now : Nat} {publicToken : String}
    (h : exchanges.once (.exchange request userId publicToken now) db = some next) :
    ∃ pt, db.publicTokens.get? pt.token = some pt ∧ pt.exchanged = false ∧
      next = { db with
        publicTokens := db.publicTokens.put { pt with exchanged := true }
        committed := db.committed ++ [(request, pt.token)] } := by
  obtain ⟨token, hread, hwrite⟩ := Option.bind_eq_some_iff.mp h
  obtain ⟨pt, hpt, rfl⟩ := Option.map_eq_some_iff.mp hread
  obtain ⟨row, hrow, rfl⟩ := Option.map_eq_some_iff.mp hwrite
  have hok : readPublicToken db.publicTokens userId publicToken now = .ok pt := by
    cases hres : readPublicToken db.publicTokens userId publicToken now with
    | error e =>
        rw [hres] at hpt
        cases hpt
    | ok row =>
        rw [hres] at hpt
        exact congrArg Except.ok (Option.some.inj hpt)
  obtain ⟨hget, hdone⟩ := readPublicToken_ok hok
  obtain rfl : publicToken = pt.token := (Table.get?_mem hget).2.symm
  obtain rfl : pt = row := Option.some.inj (hget.symm.trans hrow)
  exact ⟨pt, hget, hdone, rfl⟩

theorem exchangedOnce_exchange {db : ExchangeDb} {pt : PublicToken} {request : Nat}
    (hdb : ExchangedOnce db) (hpt : db.publicTokens.get? pt.token = some pt)
    (hdone : pt.exchanged = false) :
    ExchangedOnce { db with
      publicTokens := db.publicTokens.put { pt with exchanged := true }
      committed := db.committed ++ [(request, pt.token)] } := by
  intro token
  obtain ⟨hone, hzero⟩ := hdb token
  simp only [ExchangeDb.exchanges, List.countP_append, List.countP_singleton] at hone hzero ⊢
  by_cases htoken : pt.token = token
  · -- the first exchange of this token, and its row is marked now
    subst htoken
    have hnone := hzero pt hpt hdone
    constructor
    · simp only [beq_self_eq_true, if_true]
      omega
    · intro row hrow hfalse
      rw [Table.get?_put_eq, if_pos rfl, hpt] at hrow
      obtain rfl := Option.some.inj hrow
      cases hfalse
  · have hother : ((pt.token == token) = true) = False := by simp [htoken]
    simp only [hother, if_false, Nat.add_zero]
    refine ⟨hone, fun row hrow => hzero row ?_⟩
    rw [Table.get?_put_eq, if_neg (Ne.symm htoken)] at hrow
    exact hrow

/-- An answer takes the place of a commit. -/
theorem exchanges_respond_le {db : ExchangeDb} {request : Nat} {entry : Nat × String}
    (hentry : db.committed.find? (·.1 == request) = some entry) (token : String) :
    (db.respond request entry.2).exchanges token ≤ db.exchanges token := by
  have hpick : Parties.pick (fun e : Nat × String => e.1 == request) db.committed =
      some (entry, db.committed.eraseP (·.1 == request)) := by
    simp only [Parties.pick, hentry, Option.map_some]
  have hcount := (Parties.pick_perm hpick).countP_eq (·.2 == token)
  rw [List.countP_cons] at hcount
  unfold ExchangeDb.exchanges ExchangeDb.respond
  cases db.publicTokens.get? entry.2 with
  | none =>
      dsimp only
      omega
  | some pt =>
      rw [List.countP_append, List.countP_singleton]
      dsimp only
      omega

theorem exchangedOnce_once {db next : ExchangeDb} {o : ExchangeOperation}
    (hdb : ExchangedOnce db) (h : exchanges.once o db = some next) : ExchangedOnce next := by
  cases o with
  | exchange request userId publicToken now =>
      obtain ⟨pt, hpt, hdone, rfl⟩ := once_exchange h
      exact exchangedOnce_exchange hdb hpt hdone
  | answer request =>
      obtain ⟨token, hread, hwrite⟩ := Option.bind_eq_some_iff.mp h
      obtain ⟨entry, hentry, rfl⟩ := Option.map_eq_some_iff.mp hread
      obtain rfl := Option.some.inj hwrite
      intro token
      obtain ⟨hone, hzero⟩ := hdb token
      have hle := exchanges_respond_le hentry token
      refine ⟨hle.trans hone, fun pt hpt hdone => ?_⟩
      have hnone := hzero pt hpt hdone
      omega
  | deleteToken accessToken =>
      obtain ⟨_, _, hwrite⟩ := Option.bind_eq_some_iff.mp h
      obtain rfl := Option.some.inj hwrite
      intro token
      obtain ⟨hone, hzero⟩ := hdb token
      refine ⟨hone, fun pt hpt => hzero pt ?_⟩
      obtain ⟨hmem, hkey⟩ := Table.get?_mem hpt
      exact Table.get?_eq_some_iff.mpr ⟨(List.mem_filter.mp hmem).1, hkey⟩

/-! ## Any number of requests -/

/-- Before any exchange. -/
def ExchangeDb.init (publicTokens : Table PublicToken PublicToken.token) : ExchangeDb :=
  ⟨publicTokens, [], []⟩

/-- Where every commit that goes through is of a request that would still be let
through, a token gets its access token to one request at most. -/
theorem exchanged_once {publicTokens : Table PublicToken PublicToken.token}
    {run : List (Interleaving.Label Nat ExchangeOperation)}
    {u : Interleaving.State Nat ExchangeOperation ExchangeDb String}
    (hfresh : Runs.Along exchanges.step exchanges.Fresh
      (Interleaving.start (.init publicTokens)) run)
    (h : Runs.exec exchanges.step (Interleaving.start (.init publicTokens)) run = some u)
    (token : String) : u.store.answered.countP (·.2.1 == token) ≤ 1 := by
  have hserial := Interleaving.Operations.serial_of_fresh hfresh h
  have hinit : ExchangedOnce (.init publicTokens) := fun token => ⟨Nat.zero_le _, fun _ _ _ => rfl⟩
  have honce : ExchangedOnce u.store :=
    Interleaving.Operations.serial_invariant (I := fun _ db => ExchangedOnce db)
      (fun _ _ _ _ hdb hop => exchangedOnce_once hdb hop) hinit hserial
  exact (Nat.le_add_left _ _).trans (honce token).1

/-- A row that two requests exchange. -/
def sharedPublicToken : PublicToken :=
  { token := "public-1", accessToken := "acc-1", userId := 7, exchanged := false,
    expiresAt := 600, createdAt := 0 }

def sharedPublicTokens : Table PublicToken PublicToken.token :=
  ⟨[sharedPublicToken], List.nodup_singleton _⟩

/-- The second request starts after the first one's commit. -/
theorem twoInTurn_exchangedOnce :
    ∃ u, Runs.exec exchanges.step (Interleaving.start (.init sharedPublicTokens))
      [.read 1 (.exchange 1 7 "public-1" 5), .write 1, .read 2 (.exchange 2 7 "public-1" 6),
        .atomic (.answer 1)] = some u ∧
      u.store.answered.countP (·.2.1 == "public-1") ≤ 1 := by
  have hcount : (Runs.exec exchanges.step (Interleaving.start (.init sharedPublicTokens))
      [.read 1 (.exchange 1 7 "public-1" 5), .write 1, .read 2 (.exchange 2 7 "public-1" 6),
        .atomic (.answer 1)]).isSome = true := by
    decide +kernel
  obtain ⟨u, hu⟩ := Option.isSome_iff_exists.mp hcount
  refine ⟨u, hu, exchanged_once ?_ hu "public-1"⟩
  refine Runs.along_mono (fun _ _ => Interleaving.Operations.fresh_of_stands) ?_
  decide +kernel

/-- Both requests read the row before the first one commits, and both answer
the access token. -/
theorem twoAtOnce_bothExchange :
    ∃ u, Runs.exec exchanges.step (Interleaving.start (.init sharedPublicTokens))
      [.read 1 (.exchange 1 7 "public-1" 5), .read 2 (.exchange 2 7 "public-1" 6), .write 1,
        .write 2, .atomic (.answer 1), .atomic (.answer 2)] = some u ∧
      ¬u.store.answered.countP (·.2.1 == "public-1") ≤ 1 := by
  have hcount : (Runs.exec exchanges.step (Interleaving.start (.init sharedPublicTokens))
      [.read 1 (.exchange 1 7 "public-1" 5), .read 2 (.exchange 2 7 "public-1" 6), .write 1,
        .write 2, .atomic (.answer 1), .atomic (.answer 2)]).map
          (fun u => u.store.answered.countP (·.2.1 == "public-1")) = some 2 := by
    decide +kernel
  obtain ⟨u, hu, htwo⟩ := Option.map_eq_some_iff.mp hcount
  refine ⟨u, hu, ?_⟩
  rw [htwo]
  decide

end Plaidify.HostedLink
