import Mathlib.Logic.Relation
import Plaidify.Lib.Interleaving
import Plaidify.Lib.Table
import Plaidify.Principals.Auth

/-!
# Rotation and revocation of refresh tokens

`refresh_tokens` and `revoke_all_sessions` of `src/src/routers/auth.py`, with
`create_refresh_token` of `src/src/auth_utils.py`. A refresh reads the row of
its token, commits `revoked = True`, and inserts the successor in a second
commit. Revoking all sessions is one statement that matches the user's live
rows, and a commit. Under READ COMMITTED isolation other requests run between
any two of these.

The column `token` is unique, and the rows are found by it.
-/

namespace Plaidify.Accounts

open Principals (HttpError)

structure RefreshToken where
  token : String
  userId : Nat
  expiresAt : Nat
  revoked : Bool
deriving Repr, DecidableEq

/-- A refresh whose token is revoked and whose pair is still to be issued. -/
structure Issuing where
  request : Nat
  parent : String
  userId : Nat
deriving Repr, DecidableEq

structure AuthDb where
  refreshTokens : Table RefreshToken RefreshToken.token
  /-- The requests between their two commits. -/
  issuing : List Issuing
  /-- History variable: every successor, with the token that it replaced. -/
  successors : List (String × String)
  /-- History variable: the tokens that the user had at the commit of each
  revocation. -/
  revocations : List (List String)

inductive AuthOperation where
  /-- `refresh_tokens`, up to the commit of `revoked = True`. -/
  | refresh (request : Nat) (refreshToken : String) (now : Nat)
  /-- `issue_token_pair` at the end of a refresh. -/
  | issue (request : Nat) (token : String) (expiresAt : Nat)
  /-- `revoke_all_sessions`. -/
  | revokeAll (userId : Nat)
  /-- `issue_token_pair` of a login. -/
  | login (userId : Nat) (token : String) (expiresAt : Nat)
deriving DecidableEq

/-- What an operation has selected before it writes. -/
inductive Selected where
  | row (row : RefreshToken)
  | rows (tokens : List String)
  | nothing
deriving DecidableEq

/-- The query of `refresh_tokens`. -/
def readRefreshToken (db : AuthDb) (refreshToken : String) : Except HttpError RefreshToken :=
  match db.refreshTokens.rows.find? fun r => r.token == refreshToken && r.revoked == false with
  | none => .error ⟨401, "Invalid or revoked refresh token."⟩
  | some row => .ok row

/-- The rows that the statement of `revoke_all_sessions` matches. -/
def liveTokens (db : AuthDb) (userId : Nat) : List String :=
  (db.refreshTokens.rows.filter fun r => r.userId == userId && r.revoked == false).map (·.token)

/-- Set `revoked` in the rows of these tokens. -/
def markRevoked (rows : Table RefreshToken RefreshToken.token) (tokens : List String) :
    Table RefreshToken RefreshToken.token :=
  ⟨rows.rows.map fun r => if r.token ∈ tokens then { r with revoked := true } else r, by
    have hkeys : (rows.rows.map fun r => if r.token ∈ tokens then { r with revoked := true }
        else r).map RefreshToken.token = rows.rows.map RefreshToken.token := by
      rw [List.map_map]
      refine List.map_congr_left fun r _ => ?_
      by_cases h : r.token ∈ tokens
      · simp [h]
      · simp [h]
    rw [hkeys]
    exact rows.nodup⟩

/-- `create_refresh_token`. -/
def createRefreshToken (db : AuthDb) (userId : Nat) (token : String) (expiresAt : Nat) :
    Option AuthDb :=
  (db.refreshTokens.insert? { token, userId, expiresAt, revoked := false }).map
    fun refreshTokens => { db with refreshTokens }

/-- The commit of a refresh. An expired token is revoked, and the request
refused. -/
def commitRefresh (db : AuthDb) (row : RefreshToken) (request now : Nat) : AuthDb :=
  { db with
    refreshTokens := markRevoked db.refreshTokens [row.token]
    issuing :=
      if row.expiresAt < now then db.issuing
      else db.issuing ++ [{ request, parent := row.token, userId := row.userId }] }

/-- The commit of `revoke_all_sessions`, over the rows that it has matched. -/
def commitRevokeAll (db : AuthDb) (userId : Nat) (tokens : List String) : AuthDb :=
  { db with
    refreshTokens := markRevoked db.refreshTokens tokens
    revocations := db.revocations ++
      [(db.refreshTokens.rows.filter (·.userId == userId)).map (·.token)] }

/-- The successor of a token that was refreshed. -/
def issueTokenPair (db : AuthDb) (entry : Issuing) (token : String) (expiresAt : Nat) :
    Option AuthDb :=
  (createRefreshToken db entry.userId token expiresAt).map fun db =>
    { db with
      issuing := db.issuing.erase entry
      successors := db.successors ++ [(token, entry.parent)] }

def AuthDb.entry (db : AuthDb) (request : Nat) : Option Issuing :=
  db.issuing.find? (·.request == request)

namespace AuthOperation

def read (db : AuthDb) : AuthOperation → Option Selected
  | .refresh _ refreshToken _ => (readRefreshToken db refreshToken).toOption.map .row
  -- an insert reads nothing
  | .issue .. | .login .. => some .nothing
  | .revokeAll userId => some (.rows (liveTokens db userId))

def write (db : AuthDb) : AuthOperation → Selected → Option AuthDb
  | .refresh request _ now, .row row => some (commitRefresh db row request now)
  | .revokeAll userId, .rows tokens => some (commitRevokeAll db userId tokens)
  -- a request that was refused, or has been answered, issues nothing
  | .issue request token expiresAt, _ =>
      (db.entry request).bind fun entry => issueTokenPair db entry token expiresAt
  | .login userId token expiresAt, _ => createRefreshToken db userId token expiresAt
  | _, _ => none

end AuthOperation

def sessions : Interleaving.Operations AuthOperation AuthDb Selected where
  read o db := o.read db
  write o selected db := o.write db selected

abbrev State := Interleaving.State Nat AuthOperation AuthDb Selected

abbrev Label := Interleaving.Label Nat AuthOperation

/-- Before any request. -/
def AuthDb.init (refreshTokens : Table RefreshToken RefreshToken.token) : AuthDb :=
  ⟨refreshTokens, [], [], []⟩

/-! ## What rotation should keep -/

/-- A token comes from another by any number of rotations. -/
def Descends (db : AuthDb) (ancestor token : String) : Prop :=
  Relation.ReflTransGen (fun parent child => (child, parent) ∈ db.successors) ancestor token

/-- A token has one successor at most, and no token that descends from one that
existed when its user revoked all sessions is live. -/
structure Rotated (db : AuthDb) : Prop where
  once : ∀ parent, db.successors.countP (·.2 == parent) ≤ 1
  revoked : ∀ tokens ∈ db.revocations, ∀ ancestor ∈ tokens, ∀ row ∈ db.refreshTokens.rows,
    Descends db ancestor row.token → row.revoked = true

/-- A refresh commits over a token that is still live; a revocation covers all
rows that are live at its commit; and a successor is inserted only for a token
that no revocation has covered. -/
def AuthOperation.Undisturbed (db : AuthDb) : AuthOperation → Selected → Prop
  | .refresh _ _ now, .row row => now ≤ row.expiresAt →
      ∀ r ∈ db.refreshTokens.rows, r.token = row.token → r.revoked = false
  | .revokeAll userId, .rows tokens => liveTokens db userId ⊆ tokens
  | .issue request _ _, _ => ∀ entry ∈ db.entry request, ∀ tokens ∈ db.revocations,
      entry.parent ∉ tokens
  | _, _ => True

instance AuthOperation.decidableUndisturbed (db : AuthDb) :
    (o : AuthOperation) → (selected : Selected) → Decidable (o.Undisturbed db selected)
  | .refresh _ _ now, .row row =>
      inferInstanceAs (Decidable (now ≤ row.expiresAt →
        ∀ r ∈ db.refreshTokens.rows, r.token = row.token → r.revoked = false))
  | .refresh .., .rows _ | .refresh .., .nothing => isTrue trivial
  | .revokeAll userId, .rows tokens =>
      inferInstanceAs (Decidable (∀ t ∈ liveTokens db userId, t ∈ tokens))
  | .revokeAll _, .row _ | .revokeAll _, .nothing => isTrue trivial
  | .issue request _ _, .row _ | .issue request _ _, .rows _ | .issue request _ _, .nothing =>
      inferInstanceAs (Decidable (∀ entry ∈ db.entry request, ∀ tokens ∈ db.revocations,
        entry.parent ∉ tokens))
  | .login .., .row _ | .login .., .rows _ | .login .., .nothing => isTrue trivial

def Undisturbed (s : State) : Label → Prop
  | .read .. => True
  | .write party => ∀ a ∈ (s.next party).map Prod.fst, a.operation.Undisturbed s.store a.plan
  | .atomic o => ∀ selected ∈ o.read s.store, o.Undisturbed s.store selected

instance decidableUndisturbed (s : State) : (l : Label) → Decidable (Undisturbed s l)
  | .read .. => isTrue trivial
  | .write party =>
      inferInstanceAs (Decidable (∀ a ∈ (s.next party).map Prod.fst,
        a.operation.Undisturbed s.store a.plan))
  | .atomic o =>
      inferInstanceAs (Decidable (∀ selected ∈ o.read s.store, o.Undisturbed s.store selected))

/-! ## Rows -/

/-- A row after the update comes from one of the same token and user, which was
live if this one is. -/
theorem of_mem_markRevoked {rows : Table RefreshToken RefreshToken.token} {tokens : List String}
    {r : RefreshToken} (h : r ∈ (markRevoked rows tokens).rows) :
    ∃ r₀ ∈ rows.rows, r₀.token = r.token ∧ r₀.userId = r.userId ∧
      (r.revoked = false → r₀.revoked = false ∧ r.token ∉ tokens) := by
  rcases List.mem_map.mp h with ⟨r₀, hr₀, rfl⟩
  refine ⟨r₀, hr₀, ?_⟩
  by_cases hmem : r₀.token ∈ tokens
  · simp [hmem]
  · simp [hmem]

theorem mem_markRevoked_of_mem {rows : Table RefreshToken RefreshToken.token}
    {tokens : List String} {r₀ : RefreshToken} (h : r₀ ∈ rows.rows) :
    ∃ r ∈ (markRevoked rows tokens).rows, r.token = r₀.token ∧ r.userId = r₀.userId := by
  refine ⟨_, List.mem_map.mpr ⟨r₀, h, rfl⟩, ?_⟩
  by_cases hmem : r₀.token ∈ tokens
  · simp [hmem]
  · simp [hmem]

theorem createRefreshToken_eq_some {db next : AuthDb} {userId expiresAt : Nat} {token : String}
    (h : createRefreshToken db userId token expiresAt = some next) :
    (∀ r ∈ db.refreshTokens.rows, r.token ≠ token) ∧
      next.refreshTokens.rows =
        db.refreshTokens.rows ++ [{ token, userId, expiresAt, revoked := false }] ∧
      next = { db with refreshTokens := next.refreshTokens } := by
  rcases Option.map_eq_some_iff.mp h with ⟨rows, hinsert, rfl⟩
  rcases Table.insert?_eq_some hinsert with ⟨hfresh, hrows⟩
  refine ⟨?_, hrows, rfl⟩
  intro r hr heq
  exact hfresh (List.mem_map.mpr ⟨r, hr, heq⟩)

/-- The rows keep their tokens and their users. -/
def Kept (db next : AuthDb) : Prop :=
  ∀ r ∈ db.refreshTokens.rows, ∃ r' ∈ next.refreshTokens.rows,
    r'.token = r.token ∧ r'.userId = r.userId

theorem kept_createRefreshToken {db next : AuthDb} {userId expiresAt : Nat} {token : String}
    (h : createRefreshToken db userId token expiresAt = some next) : Kept db next := by
  intro r hr
  refine ⟨r, ?_, rfl, rfl⟩
  rw [(createRefreshToken_eq_some h).2.1]
  exact List.mem_append_left _ hr

theorem kept_markRevoked (db : AuthDb) (tokens : List String) :
    Kept db { db with refreshTokens := markRevoked db.refreshTokens tokens } :=
  fun _ hr => mem_markRevoked_of_mem hr

/-- The user of a token. -/
def AuthDb.owned (db : AuthDb) (token : String) (userId : Nat) : Prop :=
  ∃ r ∈ db.refreshTokens.rows, r.token = token ∧ r.userId = userId

theorem AuthDb.owned.kept {db next : AuthDb} {token : String} {userId : Nat}
    (h : db.owned token userId) (hkept : Kept db next) : next.owned token userId := by
  rcases h with ⟨r, hr, htoken, huser⟩
  rcases hkept r hr with ⟨r', hr', htoken', huser'⟩
  exact ⟨r', hr', htoken'.trans htoken, huser'.trans huser⟩

theorem AuthDb.owned.unique {db : AuthDb} {token : String} {userId userId' : Nat}
    (h : db.owned token userId) (h' : db.owned token userId') : userId = userId' := by
  rcases h with ⟨r, hr, htoken, huser⟩
  rcases h' with ⟨r', hr', htoken', huser'⟩
  have hsame : r = r' := Table.eq_of_key_eq hr hr' (htoken.trans htoken'.symm)
  rw [← huser, ← huser', hsame]

/-! ## The invariant -/

/-- The successors that a token has, and that are on their way. -/
def AuthDb.heirs (db : AuthDb) (parent : String) : Nat :=
  db.successors.countP (·.2 == parent) + db.issuing.countP (·.parent == parent)

structure Inv (db : AuthDb) : Prop where
  once : ∀ parent, db.heirs parent ≤ 1
  live : ∀ r ∈ db.refreshTokens.rows, r.revoked = false → db.heirs r.token = 0
  issuing : ∀ e ∈ db.issuing, db.owned e.parent e.userId
  successors : ∀ p ∈ db.successors, ∃ userId, db.owned p.1 userId ∧ db.owned p.2 userId
  known : ∀ tokens ∈ db.revocations, ∀ token ∈ tokens, ∃ userId, db.owned token userId
  /-- What was revoked stays revoked, with all that descends from it. -/
  revoked : ∀ tokens ∈ db.revocations, ∀ r ∈ db.refreshTokens.rows, r.token ∈ tokens →
    r.revoked = true
  closed : ∀ tokens ∈ db.revocations, ∀ p ∈ db.successors, p.2 ∈ tokens → p.1 ∈ tokens

theorem init_inv (refreshTokens : Table RefreshToken RefreshToken.token) :
    Inv (.init refreshTokens) := by
  constructor
  · intro parent
    exact Nat.zero_le _
  · intro r _ _
    rfl
  · intro e he
    cases he
  · intro p hp
    cases hp
  · intro tokens htokens
    cases htokens
  · intro tokens htokens
    cases htokens
  · intro tokens htokens
    cases htokens

/-- The tokens of a revocation are closed under rotation, so no token that
descends from them is live. -/
theorem Inv.rotated {db : AuthDb} (h : Inv db) : Rotated db := by
  constructor
  · intro parent
    have honce := h.once parent
    unfold AuthDb.heirs at honce
    omega
  · intro tokens htokens ancestor hancestor row hrow hdescends
    have hclosed : ∀ token, Descends db ancestor token → token ∈ tokens := by
      intro token hpath
      induction hpath with
      | refl => exact hancestor
      | tail _ hchild ih => exact h.closed tokens htokens _ hchild ih
    exact h.revoked tokens htokens row hrow (hclosed row.token hdescends)

/-- A token without a row has no successor. -/
theorem Inv.heirs_of_new {db : AuthDb} (h : Inv db) {token : String}
    (hnew : ∀ r ∈ db.refreshTokens.rows, r.token ≠ token) : db.heirs token = 0 := by
  have hnone : ∀ userId, ¬db.owned token userId := by
    rintro userId ⟨r, hr, htoken, -⟩
    exact hnew r hr htoken
  have hsuccessors : db.successors.countP (·.2 == token) = 0 := by
    refine List.countP_eq_zero.mpr fun p hp heq => ?_
    rcases h.successors p hp with ⟨userId, -, howned⟩
    rw [beq_iff_eq.mp heq] at howned
    exact hnone userId howned
  have hissuing : db.issuing.countP (·.parent == token) = 0 := by
    refine List.countP_eq_zero.mpr fun e he heq => ?_
    have howned := h.issuing e he
    rw [beq_iff_eq.mp heq] at howned
    exact hnone e.userId howned
  unfold AuthDb.heirs
  omega

/-- Other rows, under which the tokens keep their users: no heir becomes live and
nothing revoked comes back. -/
theorem Inv.of_kept {db : AuthDb} {rows : Table RefreshToken RefreshToken.token} (h : Inv db)
    (hkept : Kept db { db with refreshTokens := rows })
    (hlive : ∀ r ∈ rows.rows, r.revoked = false → db.heirs r.token = 0)
    (hrevoked : ∀ tokens ∈ db.revocations, ∀ r ∈ rows.rows, r.token ∈ tokens →
      r.revoked = true) : Inv { db with refreshTokens := rows } := by
  constructor
  · exact h.once
  · exact hlive
  · intro e he
    exact (h.issuing e he).kept hkept
  · intro p hp
    rcases h.successors p hp with ⟨user, hchild, hparent⟩
    exact ⟨user, hchild.kept hkept, hparent.kept hkept⟩
  · intro tokens htokens t ht
    rcases h.known tokens htokens t ht with ⟨user, howned⟩
    exact ⟨user, howned.kept hkept⟩
  · exact hrevoked
  · exact h.closed

/-- A new row is that of a token nobody has seen. -/
theorem inv_createRefreshToken {db next : AuthDb} {userId expiresAt : Nat} {token : String}
    (h : Inv db) (hcreate : createRefreshToken db userId token expiresAt = some next) :
    Inv next := by
  have hkept := kept_createRefreshToken hcreate
  rcases createRefreshToken_eq_some hcreate with ⟨hnew, hrows, hnext⟩
  generalize next.refreshTokens = rows at hrows hnext
  subst hnext
  apply h.of_kept hkept
  · intro r hr hlive
    rw [hrows] at hr
    rcases List.mem_append.mp hr with hold | hlast
    · exact h.live r hold hlive
    · rw [List.mem_singleton.mp hlast]
      exact h.heirs_of_new hnew
  · intro tokens htokens r hr hmem
    rw [hrows] at hr
    rcases List.mem_append.mp hr with hold | hlast
    · exact h.revoked tokens htokens r hold hmem
    · -- a revocation knows only tokens that had a row
      rw [List.mem_singleton.mp hlast] at hmem
      rcases h.known tokens htokens token hmem with ⟨user, r', hr', htoken, -⟩
      exact absurd htoken (hnew r' hr')

/-- Setting `revoked` keeps the invariant. -/
theorem inv_markRevoked {db : AuthDb} (h : Inv db) (tokens : List String) :
    Inv { db with refreshTokens := markRevoked db.refreshTokens tokens } := by
  apply h.of_kept (kept_markRevoked db tokens)
  · intro r hr hlive
    rcases of_mem_markRevoked hr with ⟨r₀, hr₀, htoken, -, hback⟩
    have hzero := h.live r₀ hr₀ (hback hlive).1
    rw [htoken] at hzero
    exact hzero
  · intro tokens htokens r hr hmem
    rcases of_mem_markRevoked hr with ⟨r₀, hr₀, htoken, -, hback⟩
    by_contra hlive
    have hrevoked := h.revoked tokens htokens r₀ hr₀ (htoken ▸ hmem)
    rw [(hback (by simpa using hlive)).1] at hrevoked
    cases hrevoked

/-! ## What one commit preserves -/

theorem readRefreshToken_ok {db : AuthDb} {refreshToken : String} {row : RefreshToken}
    (h : readRefreshToken db refreshToken = .ok row) :
    row ∈ db.refreshTokens.rows ∧ row.revoked = false := by
  unfold readRefreshToken at h
  split at h
  · cases h
  · rename_i r hr
    have hsame : r = row := Except.ok.inj h
    subst hsame
    have hkey := List.find?_some hr
    simp only [Bool.and_eq_true, beq_iff_eq] at hkey
    exact ⟨List.mem_of_find?_eq_some hr, hkey.2⟩

theorem inv_commitRefresh {db : AuthDb} {row : RefreshToken} {request now : Nat} (h : Inv db)
    (hrow : db.owned row.token row.userId)
    (hlive : now ≤ row.expiresAt → ∀ r ∈ db.refreshTokens.rows, r.token = row.token →
      r.revoked = false) : Inv (commitRefresh db row request now) := by
  have hmarked := inv_markRevoked h [row.token]
  unfold commitRefresh
  split
  · exact hmarked
  · rename_i hexpired
    have hzero : db.heirs row.token = 0 := by
      rcases hrow with ⟨r, hr, htoken, -⟩
      have hnone := h.live r hr (hlive (by omega) r hr htoken)
      rw [htoken] at hnone
      exact hnone
    have howned := hrow.kept (kept_markRevoked db [row.token])
    -- one heir more, of a token that had none
    have hheirs : ∀ parent, AuthDb.heirs { db with
        refreshTokens := markRevoked db.refreshTokens [row.token]
        issuing := db.issuing ++ [{ request, parent := row.token, userId := row.userId }] } parent =
          db.heirs parent + if row.token = parent then 1 else 0 := by
      intro parent
      simp only [AuthDb.heirs, List.countP_append, List.countP_singleton, beq_iff_eq]
      omega
    constructor
    · intro parent
      rw [hheirs]
      have honce := h.once parent
      split
      · rename_i hparent
        rw [hparent] at hzero
        omega
      · omega
    · intro r hr hliveAfter
      rw [hheirs]
      have hnot : row.token ≠ r.token := by
        rcases of_mem_markRevoked hr with ⟨r₀, -, -, -, hback⟩
        have hout := (hback hliveAfter).2
        exact fun heq => hout (List.mem_singleton.mpr heq.symm)
      rw [if_neg hnot]
      exact hmarked.live r hr hliveAfter
    · intro e he
      rcases List.mem_append.mp he with hold | hnew
      · exact hmarked.issuing e hold
      · rw [List.mem_singleton.mp hnew]
        exact howned
    · exact hmarked.successors
    · exact hmarked.known
    · exact hmarked.revoked
    · exact hmarked.closed

theorem inv_commitRevokeAll {db : AuthDb} {userId : Nat} {tokens : List String} (h : Inv db)
    (hcover : liveTokens db userId ⊆ tokens) : Inv (commitRevokeAll db userId tokens) := by
  have hmarked := inv_markRevoked h tokens
  have howned : ∀ {token}, token ∈ (db.refreshTokens.rows.filter (·.userId == userId)).map
      (·.token) ↔ db.owned token userId := by
    intro token
    constructor
    · intro hmem
      rcases List.mem_map.mp hmem with ⟨r, hr, htoken⟩
      rcases List.mem_filter.mp hr with ⟨hr, huser⟩
      exact ⟨r, hr, htoken, beq_iff_eq.mp huser⟩
    · rintro ⟨r, hr, rfl, huser⟩
      exact List.mem_map.mpr ⟨r, List.mem_filter.mpr ⟨hr, beq_iff_eq.mpr huser⟩, rfl⟩
  have hkept : Kept db (commitRevokeAll db userId tokens) := kept_markRevoked db tokens
  constructor
  · exact hmarked.once
  · exact hmarked.live
  · exact hmarked.issuing
  · exact hmarked.successors
  · intro snapshot hsnapshot token htoken
    rcases List.mem_append.mp hsnapshot with hold | hnew
    · exact hmarked.known snapshot hold token htoken
    · rw [List.mem_singleton.mp hnew] at htoken
      exact ⟨userId, (howned.mp htoken).kept hkept⟩
  · intro snapshot hsnapshot r hr hmem
    rcases List.mem_append.mp hsnapshot with hold | hnew
    · exact hmarked.revoked snapshot hold r hr hmem
    · rw [List.mem_singleton.mp hnew] at hmem
      by_contra hlive
      rcases of_mem_markRevoked hr with ⟨r₀, hr₀, htoken, -, hback⟩
      rcases hback (by simpa using hlive) with ⟨hlive₀, hout⟩
      -- a live row of the user is among those that the statement has matched
      have huser : r₀.userId = userId := by
        have hself : db.owned r.token r₀.userId := ⟨r₀, hr₀, htoken, rfl⟩
        exact hself.unique (howned.mp hmem)
      apply hout
      apply hcover
      refine List.mem_map.mpr ⟨r₀, List.mem_filter.mpr ⟨hr₀, ?_⟩, htoken⟩
      simp [huser, hlive₀]
  · intro snapshot hsnapshot p hp hmem
    rcases List.mem_append.mp hsnapshot with hold | hnew
    · exact hmarked.closed snapshot hold p hp hmem
    · have hsnap := List.mem_singleton.mp hnew
      rw [hsnap] at hmem ⊢
      rcases h.successors p hp with ⟨user, hchild, hparent⟩
      have huser : user = userId := hparent.unique (howned.mp hmem)
      rw [huser] at hchild
      exact howned.mpr hchild

theorem inv_issueTokenPair {db next : AuthDb} {entry : Issuing} {token : String}
    {expiresAt : Nat} (h : Inv db) (hentry : entry ∈ db.issuing)
    (hout : ∀ tokens ∈ db.revocations, entry.parent ∉ tokens)
    (hissue : issueTokenPair db entry token expiresAt = some next) : Inv next := by
  rcases Option.map_eq_some_iff.mp hissue with ⟨created, hcreate, rfl⟩
  have hcreated := inv_createRefreshToken h hcreate
  have hkept := kept_createRefreshToken hcreate
  rcases createRefreshToken_eq_some hcreate with ⟨-, hrows, hsame⟩
  have hissuing : created.issuing = db.issuing := by rw [hsame]
  have hrevocations : created.revocations = db.revocations := by rw [hsame]
  -- the heir that was on its way has arrived
  have hheirs : ∀ parent, AuthDb.heirs { created with
      issuing := created.issuing.erase entry
      successors := created.successors ++ [(token, entry.parent)] } parent =
        created.heirs parent := by
    intro parent
    have hperm := List.perm_cons_erase (hissuing ▸ hentry)
    have hcount := hperm.countP_eq (·.parent == parent)
    rw [List.countP_cons] at hcount
    simp only [AuthDb.heirs, List.countP_append, List.countP_singleton]
    omega
  constructor
  · intro parent
    rw [hheirs]
    exact hcreated.once parent
  · intro r hr hlive
    rw [hheirs]
    exact hcreated.live r hr hlive
  · intro e he
    exact hcreated.issuing e (List.mem_of_mem_erase he)
  · intro p hp
    rcases List.mem_append.mp hp with hold | hnew
    · exact hcreated.successors p hold
    · rw [List.mem_singleton.mp hnew]
      have hchild : created.owned token entry.userId := by
        refine ⟨{ token, userId := entry.userId, expiresAt, revoked := false }, ?_, rfl, rfl⟩
        rw [hrows]
        exact List.mem_append_right _ (List.mem_singleton.mpr rfl)
      exact ⟨entry.userId, hchild, (h.issuing entry hentry).kept hkept⟩
  · exact hcreated.known
  · exact hcreated.revoked
  · intro tokens htokens p hp hmem
    rcases List.mem_append.mp hp with hold | hnew
    · exact hcreated.closed tokens htokens p hold hmem
    · -- no revocation has covered the parent
      rw [List.mem_singleton.mp hnew] at hmem
      have htokens : tokens ∈ created.revocations := htokens
      rw [hrevocations] at htokens
      exact absurd hmem (hout tokens htokens)

/-! ## Any number of requests -/

/-- A row that an operation has read is in the table, whatever became of it. -/
def Known (db : AuthDb) : Selected → Prop
  | .row row => db.owned row.token row.userId
  | _ => True

theorem Known.kept {db next : AuthDb} {selected : Selected} (h : Known db selected)
    (hkept : Kept db next) : Known next selected := by
  cases selected with
  | row row => exact AuthDb.owned.kept h hkept
  | rows tokens => trivial
  | nothing => trivial

theorem known_of_read {o : AuthOperation} {db : AuthDb} {selected : Selected}
    (h : o.read db = some selected) : Known db selected := by
  cases o with
  | refresh request refreshToken now =>
      rcases Option.map_eq_some_iff.mp h with ⟨row, hrow, rfl⟩
      cases hread : readRefreshToken db refreshToken with
      | error e =>
          rw [hread] at hrow
          cases hrow
      | ok r =>
          rw [hread] at hrow
          have hsame : r = row := Option.some.inj hrow
          subst hsame
          exact ⟨r, (readRefreshToken_ok hread).1, rfl, rfl⟩
  | issue request token expiresAt =>
      rw [← Option.some.inj h]
      trivial
  | revokeAll userId =>
      rw [← Option.some.inj h]
      trivial
  | login userId token expiresAt =>
      rw [← Option.some.inj h]
      trivial

/-- A commit keeps the rows, and the invariant where nothing has disturbed it. -/
theorem inv_write {o : AuthOperation} {db next : AuthDb} {selected : Selected} (h : Inv db)
    (hknown : Known db selected) (hquiet : o.Undisturbed db selected)
    (hwrite : o.write db selected = some next) : Inv next := by
  cases o with
  | refresh request refreshToken now =>
      cases selected with
      | row row =>
          rw [← Option.some.inj hwrite]
          exact inv_commitRefresh h hknown hquiet
      | rows tokens => cases hwrite
      | nothing => cases hwrite
  | issue request token expiresAt =>
      rcases Option.bind_eq_some_iff.mp hwrite with ⟨entry, hentry, hissue⟩
      exact inv_issueTokenPair h (List.mem_of_find?_eq_some hentry) (hquiet entry hentry) hissue
  | revokeAll userId =>
      cases selected with
      | row row => cases hwrite
      | rows tokens =>
          rw [← Option.some.inj hwrite]
          exact inv_commitRevokeAll h hquiet
      | nothing => cases hwrite
  | login userId token expiresAt => exact inv_createRefreshToken h hwrite

theorem kept_write {o : AuthOperation} {db next : AuthDb} {selected : Selected}
    (hwrite : o.write db selected = some next) : Kept db next := by
  cases o with
  | refresh request refreshToken now =>
      cases selected with
      | row row =>
          rw [← Option.some.inj hwrite]
          unfold commitRefresh
          split
          · exact kept_markRevoked db [row.token]
          · exact kept_markRevoked db [row.token]
      | rows tokens => cases hwrite
      | nothing => cases hwrite
  | issue request token expiresAt =>
      rcases Option.bind_eq_some_iff.mp hwrite with ⟨entry, -, hissue⟩
      rcases Option.map_eq_some_iff.mp hissue with ⟨created, hcreate, rfl⟩
      exact fun r hr => kept_createRefreshToken hcreate r hr
  | revokeAll userId =>
      cases selected with
      | row row => cases hwrite
      | rows tokens =>
          rw [← Option.some.inj hwrite]
          exact kept_markRevoked db tokens
      | nothing => cases hwrite
  | login userId token expiresAt => exact kept_createRefreshToken hwrite

structure StateInv (s : State) : Prop where
  db : Inv s.store
  known : ∀ a ∈ s.underway, Known s.store a.plan

theorem step_inv (s : State) (l : Label) (t : State) (hs : StateInv s) (hl : Undisturbed s l)
    (h : sessions.step s l = some t) : StateInv t := by
  rcases Interleaving.Operations.step_cases h with rfl | ⟨party, o, plan, rfl, hread, rfl⟩ |
    ⟨party, a, rest, rfl, hnext, -, rfl⟩ | ⟨party, a, rest, next, rfl, hnext, hwrite, rfl⟩ |
    ⟨o, next, rfl, honce, rfl⟩
  · exact hs
  · refine ⟨hs.db, ?_⟩
    intro a ha
    rcases List.mem_cons.mp ha with rfl | ha
    · exact known_of_read hread
    · exact hs.known a ha
  · exact ⟨hs.db, fun b hb => hs.known b (Interleaving.State.mem_of_mem_rest hnext hb)⟩
  · have hknown := hs.known a (Interleaving.State.mem_of_next hnext)
    have hquiet : a.operation.Undisturbed s.store a.plan := hl a (by rw [hnext]; rfl)
    refine ⟨inv_write hs.db hknown hquiet hwrite, ?_⟩
    intro b hb
    exact (hs.known b (Interleaving.State.mem_of_mem_rest hnext hb)).kept (kept_write hwrite)
  · rcases Option.bind_eq_some_iff.mp honce with ⟨selected, hread, hwrite⟩
    have hquiet : o.Undisturbed s.store selected := hl selected hread
    refine ⟨inv_write hs.db (known_of_read hread) hquiet hwrite, ?_⟩
    intro b hb
    exact (hs.known b hb).kept (kept_write hwrite)

/-- Where refreshes commit over live tokens, revocations cover all rows that are
live at their commit, and successors are inserted only for tokens that no
revocation has covered, every token is rotated once and stays revoked with all
its descendants. -/
theorem rotated_of_undisturbed {refreshTokens : Table RefreshToken RefreshToken.token}
    {run : List Label} {u : State}
    (hquiet : Runs.Along sessions.step Undisturbed (Interleaving.start (.init refreshTokens)) run)
    (h : Runs.exec sessions.step (Interleaving.start (.init refreshTokens)) run = some u) :
    Rotated u.store := by
  have hinit : StateInv (Interleaving.start (.init refreshTokens)) := by
    constructor
    · exact init_inv refreshTokens
    · intro a ha
      cases ha
  exact (Runs.invariant_along step_inv hinit hquiet h).db.rotated

/-- The token of a session. -/
def oneSession : Table RefreshToken RefreshToken.token :=
  ⟨[{ token := "rt-1", userId := 7, expiresAt := 1000, revoked := false }],
    List.nodup_singleton _⟩

/-- A refresh that is over when its user revokes all sessions. -/
theorem refreshedThenRevoked_rotated :
    ∃ u, Runs.exec sessions.step (Interleaving.start (.init oneSession))
      [.read 1 (.refresh 1 "rt-1" 10), .write 1, .atomic (.issue 1 "rt-2" 1010),
        .read 2 (.revokeAll 7), .write 2, .read 3 (.refresh 3 "rt-2" 20)] = some u ∧
      Rotated u.store := by
  have hsome : (Runs.exec sessions.step (Interleaving.start (.init oneSession))
      [.read 1 (.refresh 1 "rt-1" 10), .write 1, .atomic (.issue 1 "rt-2" 1010),
        .read 2 (.revokeAll 7), .write 2, .read 3 (.refresh 3 "rt-2" 20)]).isSome = true := by
    decide +kernel
  rcases Option.isSome_iff_exists.mp hsome with ⟨u, hu⟩
  refine ⟨u, hu, rotated_of_undisturbed ?_ hu⟩
  decide +kernel

/-- Two refreshes of one token that both read it live; and a revocation of all
sessions between the two commits of a refresh. -/
theorem refreshedTwice_notRotated :
    (∃ u, Runs.exec sessions.step (Interleaving.start (.init oneSession))
      [.read 1 (.refresh 1 "rt-1" 10), .read 2 (.refresh 2 "rt-1" 11), .write 1, .write 2,
        .atomic (.issue 1 "rt-2" 1010), .atomic (.issue 2 "rt-3" 1011)] = some u ∧
      ¬u.store.successors.countP (·.2 == "rt-1") ≤ 1) ∧
    ∃ u, Runs.exec sessions.step (Interleaving.start (.init oneSession))
      [.read 1 (.refresh 1 "rt-1" 10), .write 1, .atomic (.revokeAll 7),
        .atomic (.issue 1 "rt-2" 1010)] = some u ∧
      ∃ tokens ∈ u.store.revocations, ∃ ancestor ∈ tokens, ∃ row ∈ u.store.refreshTokens.rows,
        Descends u.store ancestor row.token ∧ row.revoked = false ∧ row.expiresAt = 1010 := by
  constructor
  · have hrun : (Runs.exec sessions.step (Interleaving.start (.init oneSession))
        [.read 1 (.refresh 1 "rt-1" 10), .read 2 (.refresh 2 "rt-1" 11), .write 1, .write 2,
          .atomic (.issue 1 "rt-2" 1010), .atomic (.issue 2 "rt-3" 1011)]).map
            (fun u => u.store.successors.countP (·.2 == "rt-1")) = some 2 := by
      decide +kernel
    rcases Option.map_eq_some_iff.mp hrun with ⟨u, hu, htwo⟩
    refine ⟨u, hu, ?_⟩
    rw [htwo]
    decide
  · have hrun : (Runs.exec sessions.step (Interleaving.start (.init oneSession))
        [.read 1 (.refresh 1 "rt-1" 10), .write 1, .atomic (.revokeAll 7),
          .atomic (.issue 1 "rt-2" 1010)]).map
            (fun u => (u.store.revocations, u.store.successors, u.store.refreshTokens.rows)) =
        some ([["rt-1"]], [("rt-2", "rt-1")],
          [⟨"rt-1", 7, 1000, true⟩, ⟨"rt-2", 7, 1010, false⟩]) := by
      decide +kernel
    rcases Option.map_eq_some_iff.mp hrun with ⟨u, hu, heq⟩
    simp only [Prod.mk.injEq] at heq
    rcases heq with ⟨hrevocations, hsuccessors, hrows⟩
    refine ⟨u, hu, ["rt-1"], ?_, "rt-1", ?_, ⟨"rt-2", 7, 1010, false⟩, ?_, ?_, rfl, rfl⟩
    · rw [hrevocations]
      exact List.mem_singleton.mpr rfl
    · exact List.mem_singleton.mpr rfl
    · rw [hrows]
      simp
    · apply Relation.ReflTransGen.single
      rw [hsuccessors]
      exact List.mem_singleton.mpr rfl

end Plaidify.Accounts
