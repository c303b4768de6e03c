import Plaidify.Envelope.Rotation
import Plaidify.Lib.UnitOfWork

/-!
# Master key rotation and its session

`rotate_master_key` of `src/src/database.py` with the session it works on. The
loop assigns to one user after the other and commits once at the end, so that an
exception on the way leaves the assignments so far in the session: nothing of
them is in the database, and a later commit writes them all.

`allOrNothing_iff` says when a call that raises leaves nothing behind.
-/

namespace Plaidify.Envelope.MasterKey

/-! ## The function -/

/-- `filter(User.encrypted_dek.isnot(None))`. -/
def holders (users : Table User User.id) : List User :=
  users.rows.filter (·.encryptedDek.isSome)

/-- The two `AESGCM` objects. -/
def aesgcms (oldKey newKey : String) : Option (Bytes × Bytes) := do
  let oldKeyBytes ← Bytes.urlsafeB64decode oldKey
  let newKeyBytes ← Bytes.urlsafeB64decode newKey
  let oldAesgcm ← aesgcm oldKeyBytes
  let newAesgcm ← aesgcm newKeyBytes
  return (oldAesgcm, newAesgcm)

section

variable (lib : Cryptography)

/-- The loop: the count, unless a DEK does not unwrap, and the users as the
session has them. -/
def rewrapFrom (oldAesgcm newAesgcm : Bytes) (nonces : Nat → Urandom gcmNonceBytes) (count : Nat) :
    List User → Table User User.id → Option Nat × Table User User.id
  | [], users => (some count, users)
  | user :: rest, users =>
      match rewrapUser lib oldAesgcm newAesgcm nonces user with
      | none => (none, users)
      | some user' => rewrapFrom oldAesgcm newAesgcm nonces (count + 1) rest (users.put user')

/-- `rotate_master_key` in a new session: what it returns, unless it raises, and
the session it leaves. -/
def rotateMasterKey (oldKey newKey : String) (users : Table User User.id)
    (nonces : Nat → Urandom gcmNonceBytes) (committed : Bool) :
    Option Nat × UnitOfWork (Table User User.id) :=
  let db := UnitOfWork.clean users
  match aesgcms oldKey newKey with
  | none => (none, db)
  | some (oldAesgcm, newAesgcm) =>
      let result := rewrapFrom lib oldAesgcm newAesgcm nonces 0 (holders users) users
      let db := db.assign fun _ => result.2
      match result.1 with
      | none => (none, db)
      | some count => (if committed then some count else none, db.commit committed)

/-! ## The property and the condition -/

/-- The DEK in an envelope of this master key. -/
def unwrapUnder (key wrapped : String) : Option Bytes := do
  let keyBytes ← Bytes.urlsafeB64decode key
  let key ← aesgcm keyBytes
  let raw ← Bytes.urlsafeB64decode wrapped
  openBytes lib key raw

/-- A user before and after a rotation. -/
def Rewrapped (oldKey newKey : String) (user user' : User) : Prop :=
  user'.id = user.id ∧
    match user.encryptedDek, user'.encryptedDek with
    | none, none => True
    | some wrapped, some wrapped' => ∃ dek,
        unwrapUnder lib oldKey wrapped = some dek ∧ unwrapUnder lib newKey wrapped' = some dek
    | _, _ => False

/-- A call that raises changes nothing, then or later; one that returns has
rewrapped as many DEKs as it says, which are all. -/
def AllOrNothing (oldKey newKey : String) (users : Table User User.id)
    (nonces : Nat → Urandom gcmNonceBytes) (committed : Bool) : Prop :=
  match rotateMasterKey lib oldKey newKey users nonces committed with
  | (none, db) => ∀ ops, (db.run ops).database = users
  | (some n, db) => n = (holders users).length ∧
      List.Forall₂ (Rewrapped lib oldKey newKey) users.rows db.database.rows

def Unwraps (oldKey : String) (user : User) : Prop :=
  ∃ wrapped dek, user.encryptedDek = some wrapped ∧ unwrapUnder lib oldKey wrapped = some dek

/-- The DEKs before the first one that does not unwrap have been wrapped to the
texts they were. -/
def NoneRewrapped (oldKey newKey : String) (users : Table User User.id)
    (nonces : Nat → Urandom gcmNonceBytes) : Prop :=
  ∀ oldAesgcm newAesgcm, aesgcms oldKey newKey = some (oldAesgcm, newAesgcm) →
    ∀ before user after, holders users = before ++ user :: after →
      (∀ earlier ∈ before, Unwraps lib oldKey earlier) → ¬Unwraps lib oldKey user →
        ∀ earlier ∈ before, rewrapUser lib oldAesgcm newAesgcm nonces earlier = some earlier

/-- AES-GCM gives back what it encrypted. -/
def Lossless : Prop :=
  ∀ key nonce data, aesgcm key = some key → nonce.length = gcmNonceBytes →
    lib.decrypt key nonce (lib.encrypt key nonce data) = some data

end

variable {lib : Cryptography} {oldKey newKey : String} {oldAesgcm newAesgcm : Bytes}
  {nonces : Nat → Urandom gcmNonceBytes} {users : Table User User.id}

/-! ## One user -/

theorem aesgcms_eq_some (h : aesgcms oldKey newKey = some (oldAesgcm, newAesgcm)) :
    ((Bytes.urlsafeB64decode oldKey).bind aesgcm = some oldAesgcm) ∧
      (Bytes.urlsafeB64decode newKey).bind aesgcm = some newAesgcm := by
  unfold aesgcms at h
  simp only [Option.bind_eq_bind, Option.bind_eq_some_iff] at h
  rcases h with ⟨oldBytes, hold, newBytes, hnew, oldKey', holdKey, newKey', hnewKey, heq⟩
  obtain ⟨rfl, rfl⟩ := Prod.mk.inj (Option.some.inj heq)
  rw [hold, hnew]
  exact ⟨holdKey, hnewKey⟩

theorem unwrapUnder_eq {key : String} {gcm : Bytes}
    (h : (Bytes.urlsafeB64decode key).bind aesgcm = some gcm) (wrapped : String) :
    unwrapUnder lib key wrapped = (Bytes.urlsafeB64decode wrapped).bind (openBytes lib gcm) := by
  rcases Option.bind_eq_some_iff.mp h with ⟨bytes, hbytes, hgcm⟩
  simp only [unwrapUnder, hbytes, hgcm, Option.bind_eq_bind, Option.bind_some]

theorem mem_holders {user : User} (h : user ∈ holders users) :
    user ∈ users.rows ∧ ∃ wrapped, user.encryptedDek = some wrapped := by
  rcases List.mem_filter.mp h with ⟨hmem, hsome⟩
  exact ⟨hmem, Option.isSome_iff_exists.mp hsome⟩

/-- A holder is rewrapped exactly if the DEK unwraps. -/
theorem rewrapUser_eq_some_iff (hkeys : aesgcms oldKey newKey = some (oldAesgcm, newAesgcm))
    {user user' : User} (huser : user ∈ holders users) :
    rewrapUser lib oldAesgcm newAesgcm nonces user = some user' ↔
      ∃ wrapped dek, user.encryptedDek = some wrapped ∧
        unwrapUnder lib oldKey wrapped = some dek ∧
        user' = { user with
          encryptedDek := some (sealBytes lib newAesgcm (nonces user.id) dek) } := by
  rcases (mem_holders huser).2 with ⟨wrapped, hwrapped⟩
  have hunwrap := @unwrapUnder_eq lib _ _ (aesgcms_eq_some hkeys).1 wrapped
  simp only [rewrapUser, hwrapped, Option.bind_eq_bind, Option.bind_eq_some_iff]
  constructor
  · rintro ⟨raw, hraw, dek, hdek, heq⟩
    refine ⟨wrapped, dek, rfl, ?_, (Option.some.inj heq).symm⟩
    rw [hunwrap, hraw]
    exact hdek
  · rintro ⟨wrapped', dek, heq, hdek, rfl⟩
    obtain rfl := Option.some.inj heq
    rw [hunwrap] at hdek
    rcases Option.bind_eq_some_iff.mp hdek with ⟨raw, hraw, hopen⟩
    exact ⟨raw, hraw, dek, hopen, rfl⟩

theorem unwraps_iff (hkeys : aesgcms oldKey newKey = some (oldAesgcm, newAesgcm)) {user : User}
    (huser : user ∈ holders users) :
    Unwraps lib oldKey user ↔
      ∃ user', rewrapUser lib oldAesgcm newAesgcm nonces user = some user' := by
  simp only [rewrapUser_eq_some_iff hkeys huser]
  constructor
  · rintro ⟨wrapped, dek, hwrapped, hdek⟩
    exact ⟨_, wrapped, dek, hwrapped, hdek, rfl⟩
  · rintro ⟨user', wrapped, dek, hwrapped, hdek, -⟩
    exact ⟨wrapped, dek, hwrapped, hdek⟩

/-- What is wrapped under the new key unwraps under it. -/
theorem rewrapUser_rewrapped (hlib : Lossless lib)
    (hkeys : aesgcms oldKey newKey = some (oldAesgcm, newAesgcm)) {user user' : User}
    (huser : user ∈ holders users)
    (h : rewrapUser lib oldAesgcm newAesgcm nonces user = some user') :
    Rewrapped lib oldKey newKey user user' := by
  rcases (rewrapUser_eq_some_iff hkeys huser).mp h with ⟨wrapped, dek, hwrapped, hdek, rfl⟩
  have hnonce : (nonces user.id).1.length = gcmNonceBytes := (nonces user.id).2
  have hgcm := (aesgcms_eq_some hkeys).2
  have hvalid : aesgcm newAesgcm = some newAesgcm := by
    rcases Option.bind_eq_some_iff.mp hgcm with ⟨bytes, -, hbytes⟩
    obtain rfl := aesgcm_eq_some hbytes
    exact hbytes
  have hnew : unwrapUnder lib newKey (sealBytes lib newAesgcm (nonces user.id) dek) = some dek := by
    rw [unwrapUnder_eq hgcm]
    show (Bytes.urlsafeB64decode (Encryption.token lib ⟨newAesgcm, nonces user.id, dek⟩)).bind
      (openBytes lib newAesgcm) = some dek
    rw [decode_token, Option.bind_some, openBytes_token hnonce]
    exact hlib newAesgcm _ dek hvalid hnonce
  refine ⟨rfl, ?_⟩
  rw [hwrapped]
  exact ⟨dek, hdek, hnew⟩

/-! ## The loop -/

/-- Either all users of a list are rewrapped, or there is a first one that is not. -/
theorem mapM_cases (f : User → Option User) (us : List User) :
    (∃ rows, us.mapM f = some rows) ∨
      ∃ before user after rows, us = before ++ user :: after ∧ before.mapM f = some rows ∧
        f user = none := by
  induction us with
  | nil => exact .inl ⟨[], rfl⟩
  | cons u us ih =>
      cases hu : f u with
      | none => exact .inr ⟨[], u, us, [], rfl, rfl, hu⟩
      | some u' =>
          rcases ih with ⟨rows, hrows⟩ | ⟨before, user, after, rows, rfl, hrows, hfails⟩
          · exact .inl ⟨u' :: rows, by simp [List.mapM_cons, hu, hrows]⟩
          · refine .inr ⟨u :: before, user, after, u' :: rows, rfl, ?_, hfails⟩
            simp [List.mapM_cons, hu, hrows]

theorem mapM_of_forall {f : User → Option User} {us : List User}
    (h : ∀ u ∈ us, ∃ u', f u = some u') : ∃ rows, us.mapM f = some rows := by
  rcases mapM_cases f us with hrows | ⟨before, user, after, rows, rfl, -, hfails⟩
  · exact hrows
  · rcases h user (by simp) with ⟨u', hu'⟩
    rw [hfails] at hu'
    cases hu'

theorem rewrapFrom_all {us rows : List User} (count : Nat)
    (h : us.mapM (rewrapUser lib oldAesgcm newAesgcm nonces) = some rows) :
    rewrapFrom lib oldAesgcm newAesgcm nonces count us users =
      (some (count + us.length), rows.foldl Table.put users) := by
  induction us generalizing rows users count with
  | nil =>
      obtain rfl : [] = rows := by simpa using h
      rfl
  | cons u us ih =>
      simp only [List.mapM_cons, Option.bind_eq_bind, Option.bind_eq_some_iff] at h
      rcases h with ⟨u', hu', rest, hrest, heq⟩
      obtain rfl := Option.some.inj heq
      rw [rewrapFrom, hu']
      dsimp only
      rw [ih (count + 1) hrest, List.foldl_cons, List.length_cons]
      congr 2
      omega

/-- An exception leaves what was assigned before it. -/
theorem rewrapFrom_raises {before after rows : List User} {user : User} (count : Nat)
    (hbefore : before.mapM (rewrapUser lib oldAesgcm newAesgcm nonces) = some rows)
    (hfails : rewrapUser lib oldAesgcm newAesgcm nonces user = none) :
    rewrapFrom lib oldAesgcm newAesgcm nonces count (before ++ user :: after) users =
      (none, rows.foldl Table.put users) := by
  induction before generalizing rows users count with
  | nil =>
      obtain rfl : [] = rows := by simpa using hbefore
      simp only [List.nil_append, rewrapFrom, hfails, List.foldl_nil]
  | cons u before ih =>
      simp only [List.mapM_cons, Option.bind_eq_bind, Option.bind_eq_some_iff] at hbefore
      rcases hbefore with ⟨u', hu', rest, hrest, heq⟩
      obtain rfl := Option.some.inj heq
      rw [List.cons_append, rewrapFrom, hu']
      dsimp only
      rw [ih (count + 1) hrest, List.foldl_cons]

/-- The new rows have the keys of the old ones. -/
theorem rows_ids {us rows : List User} (hsub : us.Sublist users.rows)
    (h : us.mapM (rewrapUser lib oldAesgcm newAesgcm nonces) = some rows) :
    (rows.map User.id).Nodup ∧ (∀ a ∈ rows, a.id ∈ users.rows.map User.id) ∧
      List.Forall₂ (fun a b => rewrapUser lib oldAesgcm newAesgcm nonces a = some b) us rows := by
  have hrel := Table.forall₂_of_mapM h
  have hids : rows.map User.id = us.map User.id :=
    Table.map_key_of_forall₂ (fun _ _ => rewrapUser_id lib) hrel
  refine ⟨?_, ?_, hrel⟩
  · rw [hids]
    exact users.nodup.sublist (hsub.map User.id)
  · intro a ha
    have hmem : a.id ∈ us.map User.id := by
      rw [← hids]
      exact List.mem_map_of_mem ha
    exact (hsub.map User.id).subset hmem

/-- The session is unchanged exactly if the texts are. -/
theorem foldl_put_rewrapped_iff {us rows : List User} (hsub : us.Sublist users.rows)
    (h : us.mapM (rewrapUser lib oldAesgcm newAesgcm nonces) = some rows) :
    rows.foldl Table.put users = users ↔
      ∀ u ∈ us, rewrapUser lib oldAesgcm newAesgcm nonces u = some u := by
  rcases rows_ids hsub h with ⟨hnodup, hkeys, hrel⟩
  rw [Table.foldl_put_eq_iff hnodup hkeys]
  constructor
  · intro hmem u hu
    rcases Table.mem_right_of_forall₂ hrel hu with ⟨row, hrow, hrewrap⟩
    have heq : row = u :=
      Table.eq_of_key_eq (hmem row hrow) (hsub.subset hu) (rewrapUser_id lib hrewrap)
    rw [hrewrap, heq]
  · intro hsame row hrow
    rcases Table.mem_right_of_forall₂ hrel.flip hrow with ⟨u, hu, hrewrap⟩
    have heq : row = u := Option.some.inj (hrewrap.symm.trans (hsame u hu))
    rw [heq]
    exact hsub.subset hu

theorem holders_sublist (users : Table User User.id) : (holders users).Sublist users.rows :=
  List.filter_sublist

/-- What becomes of a row when all holders are rewrapped. -/
theorem rewrapUser_replacement {rows : List User}
    (h : (holders users).mapM (rewrapUser lib oldAesgcm newAesgcm nonces) = some rows) {user : User}
    (huser : user ∈ users.rows) :
    rewrapUser lib oldAesgcm newAesgcm nonces user =
      some (Table.replacement User.id rows user) := by
  rcases rows_ids (holders_sublist users) h with ⟨hnodup, -, hrel⟩
  cases hdek : user.encryptedDek with
  | some wrapped =>
      have hholder : user ∈ holders users := by
        refine List.mem_filter.mpr ⟨huser, ?_⟩
        rw [hdek]
        rfl
      rcases Table.mem_right_of_forall₂ hrel hholder with ⟨row, hrow, hrewrap⟩
      rw [Table.replacement_of_mem hnodup hrow (rewrapUser_id lib hrewrap)]
      exact hrewrap
  | none =>
      -- no row of the others has the id of this user
      have hother : user.id ∉ rows.map User.id := by
        intro hmem
        rcases List.mem_map.mp hmem with ⟨row, hrow, hid⟩
        rcases Table.mem_right_of_forall₂ hrel.flip hrow with ⟨holder, hholder, hrewrap⟩
        rcases mem_holders hholder with ⟨hin, wrapped, hwrapped⟩
        have heq : holder = user :=
          Table.eq_of_key_eq hin huser ((rewrapUser_id lib hrewrap).symm.trans hid)
        rw [heq, hdek] at hwrapped
        cases hwrapped
      rw [Table.replacement_of_not_mem hother]
      simp only [rewrapUser, hdek]

theorem rewrapped_rows (hlib : Lossless lib)
    (hkeys : aesgcms oldKey newKey = some (oldAesgcm, newAesgcm)) {rows : List User}
    (h : (holders users).mapM (rewrapUser lib oldAesgcm newAesgcm nonces) = some rows) :
    List.Forall₂ (Rewrapped lib oldKey newKey) users.rows (rows.foldl Table.put users).rows := by
  rcases rows_ids (holders_sublist users) h with ⟨hnodup, -, -⟩
  rw [Table.foldl_put_rows hnodup, List.forall₂_map_right_iff, List.forall₂_same]
  intro user huser
  have hrewrap := rewrapUser_replacement h huser
  cases hdek : user.encryptedDek with
  | some wrapped =>
      have hholder : user ∈ holders users := by
        refine List.mem_filter.mpr ⟨huser, ?_⟩
        rw [hdek]
        rfl
      exact rewrapUser_rewrapped hlib hkeys hholder hrewrap
  | none =>
      rw [rewrapUser, hdek] at hrewrap
      rw [← Option.some.inj hrewrap]
      refine ⟨rfl, ?_⟩
      rw [hdek]
      trivial

/-! ## The function as a whole -/

/-- Nothing is committed by a call that raises. -/
theorem raised_database {committed : Bool}
    (h : (rotateMasterKey lib oldKey newKey users nonces committed).1 = none) :
    (rotateMasterKey lib oldKey newKey users nonces committed).2.database = users := by
  unfold rotateMasterKey at h ⊢
  cases hkeys : aesgcms oldKey newKey with
  | none => rfl
  | some keys =>
      rw [hkeys] at h
      dsimp only at h ⊢
      cases hcount : (rewrapFrom lib keys.1 keys.2 nonces 0 (holders users) users).1 with
      | none => rfl
      | some count =>
          rw [hcount] at h
          cases committed with
          | true => cases h
          | false => rfl

/-- The command closes its session, so that it is atomic whatever the DEKs are. -/
theorem command_atomic {committed : Bool}
    (h : (rotateMasterKey lib oldKey newKey users nonces committed).1 = none)
    (ops : List UnitOfWork.Op) :
    ((rotateMasterKey lib oldKey newKey users nonces committed).2.run (.close :: ops)).database =
      users := by
  rw [UnitOfWork.run_close]
  exact raised_database h

/-- The rotation of the documented procedure, which looks at the database only,
is what a call leaves that returns. -/
theorem rotateMasterKey_eq_some {users' : Table User User.id}
    (h : Envelope.rotateMasterKey lib oldKey newKey users nonces = some users') :
    rotateMasterKey lib oldKey newKey users nonces true =
      (some (holders users).length, UnitOfWork.clean users') := by
  have hbind : Envelope.rotateMasterKey lib oldKey newKey users nonces =
      (aesgcms oldKey newKey).bind fun keys =>
        users.rewrite? (rewrapUser lib keys.1 keys.2 nonces) fun _ _ => rewrapUser_id lib := by
    simp only [Envelope.rotateMasterKey, aesgcms, Option.bind_eq_bind, Option.bind_assoc]
    rfl
  rw [hbind, Option.bind_eq_some_iff] at h
  rcases h with ⟨⟨oldAesgcm, newAesgcm⟩, hkeys, hrewrite⟩
  have hold := (Table.rewrite?_eq_some hrewrite).1
  rcases mapM_of_forall (f := rewrapUser lib oldAesgcm newAesgcm nonces)
    fun u hu => (hold u (mem_holders hu).1).imp fun _ hu' => hu'.2 with ⟨rows, hrows⟩
  have hnodup := (rows_ids (holders_sublist users) hrows).1
  have hsame : rows.foldl Table.put users = users' := by
    apply Table.ext_rows
    rw [Table.foldl_put_rows hnodup]
    exact (Table.eq_map_of_forall₂ (Table.rewrite?_rows hrewrite)
      fun user huser => rewrapUser_replacement hrows huser).symm
  have hrewrap : rewrapFrom lib oldAesgcm newAesgcm nonces 0 (holders users) users = _ :=
    rewrapFrom_all 0 hrows
  rw [hsame] at hrewrap
  simp only [rotateMasterKey, hkeys, hrewrap, UnitOfWork.commit, UnitOfWork.assign,
    UnitOfWork.clean, if_true, Option.map_some, Nat.zero_add]

theorem database_users_iff {db : UnitOfWork (Table User User.id)} (h : db.database = users) :
    (∀ ops, (db.run ops).database = users) ↔ db.Settled := by
  rw [← UnitOfWork.database_kept_iff, h]

/-- A loop that raises has been all or nothing exactly if it assigned no new text. -/
theorem raises_iff (hkeys : aesgcms oldKey newKey = some (oldAesgcm, newAesgcm))
    {before after : List User} {user : User} (committed : Bool)
    (hsplit : holders users = before ++ user :: after)
    (hbefore : ∀ earlier ∈ before, Unwraps lib oldKey earlier) (huser : ¬Unwraps lib oldKey user) :
    AllOrNothing lib oldKey newKey users nonces committed ↔
      ∀ u ∈ before, rewrapUser lib oldAesgcm newAesgcm nonces u = some u := by
  have hinitial : before.Sublist (holders users) := by
    rw [hsplit]
    exact List.sublist_append_left before (user :: after)
  have hmem : user ∈ holders users := by
    rw [hsplit]
    exact List.mem_append_right _ List.mem_cons_self
  have hfails : rewrapUser lib oldAesgcm newAesgcm nonces user = none := by
    by_contra hne
    exact huser ((unwraps_iff hkeys hmem).mpr (Option.ne_none_iff_exists'.mp hne))
  rcases mapM_of_forall (f := rewrapUser lib oldAesgcm newAesgcm nonces)
    fun u hu => (unwraps_iff hkeys (hinitial.subset hu)).mp (hbefore u hu) with ⟨rows, hrows⟩
  rw [← foldl_put_rewrapped_iff (hinitial.trans (holders_sublist users)) hrows]
  simp only [AllOrNothing, rotateMasterKey, hkeys, hsplit, rewrapFrom_raises 0 hrows hfails]
  refine (database_users_iff rfl).trans ?_
  simp only [UnitOfWork.Settled, UnitOfWork.assign, UnitOfWork.clean, Option.map_some,
    Option.some.injEq, forall_eq']

/-- A loop that comes to its end is all or nothing, whether or not the commit fails. -/
theorem allOrNothing_of_unwraps (hlib : Lossless lib)
    (hkeys : aesgcms oldKey newKey = some (oldAesgcm, newAesgcm)) (committed : Bool)
    (h : ∀ user ∈ holders users, Unwraps lib oldKey user) :
    AllOrNothing lib oldKey newKey users nonces committed := by
  rcases mapM_of_forall (f := rewrapUser lib oldAesgcm newAesgcm nonces)
    fun u hu => (unwraps_iff hkeys hu).mp (h u hu) with ⟨rows, hrows⟩
  have hrewrap : rewrapFrom lib oldAesgcm newAesgcm nonces 0 (holders users) users = _ :=
    rewrapFrom_all 0 hrows
  cases committed with
  | true =>
      simp only [AllOrNothing, rotateMasterKey, hkeys, hrewrap, UnitOfWork.commit,
        UnitOfWork.assign, UnitOfWork.clean, if_true, Option.map_some, Nat.zero_add]
      exact ⟨trivial, rewrapped_rows hlib hkeys hrows⟩
  | false =>
      simp only [AllOrNothing, rotateMasterKey, hkeys, hrewrap, Bool.false_eq_true, if_false]
      exact (database_users_iff rfl).mpr (UnitOfWork.failed_settled rfl)

/-- A call is all or nothing exactly if no DEK has been wrapped to another text
before the first one that does not unwrap. -/
theorem allOrNothing_iff (hlib : Lossless lib) (oldKey newKey : String)
    (users : Table User User.id) (nonces : Nat → Urandom gcmNonceBytes) (committed : Bool) :
    AllOrNothing lib oldKey newKey users nonces committed ↔
      NoneRewrapped lib oldKey newKey users nonces := by
  cases hkeys : aesgcms oldKey newKey with
  | none =>
      -- the keys are refused before anything is read
      refine iff_of_true ?_ ?_
      · simp only [AllOrNothing, rotateMasterKey, hkeys]
        exact (database_users_iff rfl).mpr (UnitOfWork.clean_settled users)
      · intro oldAesgcm newAesgcm hsome
        rw [hkeys] at hsome
        cases hsome
  | some keys =>
      rcases keys with ⟨oldAesgcm, newAesgcm⟩
      constructor
      · intro h oldAesgcm' newAesgcm' hsome before user after hsplit hbefore huser
        exact (raises_iff hsome committed hsplit hbefore huser).mp h
      · intro h
        rcases mapM_cases (rewrapUser lib oldAesgcm newAesgcm nonces) (holders users) with
          ⟨rows, hrows⟩ | ⟨before, user, after, rows, hsplit, hrows, hfails⟩
        · apply allOrNothing_of_unwraps hlib hkeys committed
          intro user huser
          rcases Table.mem_right_of_forall₂ (Table.forall₂_of_mapM hrows) huser with
            ⟨row, -, hrow⟩
          exact (unwraps_iff hkeys huser).mpr ⟨row, hrow⟩
        · -- the first user that fails
          have hmem : ∀ u, u ∈ before ++ user :: after → u ∈ holders users := by
            intro u hu
            rw [hsplit]
            exact hu
          have hbefore : ∀ u ∈ before, Unwraps lib oldKey u := by
            intro u hu
            rcases Table.mem_right_of_forall₂ (Table.forall₂_of_mapM hrows) hu with
              ⟨row, -, hrow⟩
            exact (unwraps_iff hkeys (hmem u (List.mem_append_left _ hu))).mpr ⟨row, hrow⟩
          have huser : ¬Unwraps lib oldKey user := by
            intro hunwraps
            have hin : user ∈ holders users := hmem user (by simp)
            rcases (unwraps_iff hkeys hin).mp hunwraps with ⟨user', huser'⟩
            rw [hfails] at huser'
            cases huser'
          exact (raises_iff hkeys committed hsplit hbefore huser).mpr
            (h oldAesgcm newAesgcm hkeys before user after hsplit hbefore huser)

/-! ## A DEK that does not unwrap -/

/-- AES-256-GCM on the known answers, and otherwise a cipher that shows its data. -/
def taggedCryptography : Cryptography where
  encrypt key nonce data :=
    (knownAnswers.lookup ⟨key, nonce, data⟩).getD (data ++ List.replicate 16 0)
  decrypt key nonce data :=
    match knownAnswers.find? fun a => a.1.key == key && a.1.nonce == nonce && a.2 == data with
    | some a => some a.1.data
    | none =>
        if data.drop (data.length - 16) = List.replicate 16 0 then
          some (data.take (data.length - 16))
        else none
  fernetDecrypt _ _ := none

theorem taggedCryptography_lossless : Lossless taggedCryptography := by
  intro key nonce data _ _
  have hanswers : ∀ a ∈ knownAnswers,
      (knownAnswers.find? fun b => b.1.key == a.1.key && b.1.nonce == a.1.nonce && b.2 == a.2).map
        (·.1.data) = some a.1.data ∧
      a.2.drop (a.2.length - 16) ≠ List.replicate 16 0 := by
    decide +kernel
  cases hlookup : knownAnswers.lookup ⟨key, nonce, data⟩ with
  | some ciphertext =>
      have hmem : (⟨⟨key, nonce, data⟩, ciphertext⟩ : Encryption × Bytes) ∈ knownAnswers := by
        rcases List.lookup_eq_some_iff.mp hlookup with ⟨before, after, heq, -⟩
        rw [heq]
        exact List.mem_append_right _ List.mem_cons_self
      have hfound := (hanswers _ hmem).1
      rcases Option.map_eq_some_iff.mp hfound with ⟨a, ha, hdata⟩
      simp only [taggedCryptography, hlookup, Option.getD_some, ha, hdata]
  | none =>
      have hlength : (data ++ List.replicate 16 (0 : UInt8)).length - 16 = data.length := by simp
      have hmissing : (knownAnswers.find? fun a => a.1.key == key && a.1.nonce == nonce &&
          a.2 == data ++ List.replicate 16 0) = none := by
        refine List.find?_eq_none.mpr fun a ha hequal => ?_
        simp only [Bool.and_eq_true, beq_iff_eq] at hequal
        -- no known ciphertext ends in this tag
        apply (hanswers a ha).2
        rw [hequal.2, hlength, List.drop_left]
      simp only [taggedCryptography, hlookup, Option.getD_none, hmissing, hlength, List.drop_left,
        List.take_left, if_true]

/-- A DEK under the first key, and one whose ciphertext was lost. -/
def brokenUsers : Table User User.id where
  rows :=
    [⟨1, some (sealBytes taggedCryptography firstKey (nonce 2) dek)⟩, ⟨2, some "AAAA"⟩]
  nodup := by decide

/-- The call raises, and the next commit writes the first user's DEK under the
second key. -/
theorem brokenUsers_not_allOrNothing :
    Lossless taggedCryptography ∧
      ¬AllOrNothing taggedCryptography (keyText firstKey) (keyText secondKey) brokenUsers
        (fun _ => nonce 4) true := by
  refine ⟨taggedCryptography_lossless, ?_⟩
  intro h
  have hraises : (rotateMasterKey taggedCryptography (keyText firstKey) (keyText secondKey)
      brokenUsers (fun _ => nonce 4) true).1 = none := by
    decide +kernel
  have hcommit : ((rotateMasterKey taggedCryptography (keyText firstKey) (keyText secondKey)
      brokenUsers (fun _ => nonce 4) true).2.run [.commit true]).database.rows ≠
        brokenUsers.rows := by
    decide +kernel
  unfold AllOrNothing at h
  rcases hresult : rotateMasterKey taggedCryptography (keyText firstKey) (keyText secondKey)
    brokenUsers (fun _ => nonce 4) true with ⟨count, db⟩
  rw [hresult] at h hraises hcommit
  dsimp only at hraises hcommit
  subst hraises
  exact hcommit (congrArg Table.rows (h [.commit true]))

/-- Three users have a DEK, and the second of four has none. -/
def wrappedUsers : Table User User.id where
  rows :=
    [⟨1, some (sealBytes taggedCryptography firstKey (nonce 2) dek)⟩, ⟨2, none⟩,
      ⟨3, some (sealBytes taggedCryptography firstKey (nonce 3) secondKey)⟩,
      ⟨4, some (sealBytes taggedCryptography firstKey (nonce 5) dek)⟩]
  nodup := by decide

theorem wrappedUsers_allOrNothing :
    (holders wrappedUsers).length = 3 ∧
      AllOrNothing taggedCryptography (keyText firstKey) (keyText secondKey) wrappedUsers
        (fun _ => nonce 4) true := by
  have hunwraps : ∀ user ∈ holders wrappedUsers, ∃ wrapped ∈ user.encryptedDek,
      (unwrapUnder taggedCryptography (keyText firstKey) wrapped).isSome = true := by
    have hall : (holders wrappedUsers).all (fun user => user.encryptedDek.any fun wrapped =>
        (unwrapUnder taggedCryptography (keyText firstKey) wrapped).isSome) = true := by
      decide +kernel
    intro user huser
    have hsome := List.all_eq_true.mp hall user huser
    cases hdek : user.encryptedDek with
    | none =>
        rw [hdek] at hsome
        cases hsome
    | some wrapped =>
        rw [hdek] at hsome
        exact ⟨wrapped, rfl, hsome⟩
  refine ⟨by decide, (allOrNothing_iff taggedCryptography_lossless _ _ wrappedUsers _ true).mpr ?_⟩
  -- no user comes after one whose DEK does not unwrap
  intro oldAesgcm newAesgcm _ before user after hsplit _ huser
  have hmem : user ∈ holders wrappedUsers := by
    rw [hsplit]
    exact List.mem_append_right _ List.mem_cons_self
  rcases hunwraps user hmem with ⟨wrapped, hwrapped, hsome⟩
  rcases Option.isSome_iff_exists.mp hsome with ⟨dek, hdek⟩
  exact absurd ⟨wrapped, dek, hwrapped, hdek⟩ huser

end Plaidify.Envelope.MasterKey
