import Plaidify.Envelope.MasterKey
import Plaidify.Lib.Sweep

/-!
# Re-encryption of access tokens

`re_encrypt_tokens` of `src/src/database.py`, with the loop of the `rotate-key`
command around it and the hourly job of `src/src/app.py`. A token that is
skipped or fails keeps its version, and the next query returns it again in its
place.

To the tokens of an older version a call is a pass over a backlog, so what the
two callers reach is what `Sweep` says of them: `reaches_iff`. What a token
decrypts to never changes.
-/

namespace Plaidify.Envelope.ReEncryption

open MasterKey

/-! ## The functions -/

/-- A row of `access_tokens`, as far as re-encryption goes. -/
structure AccessToken where
  token : String
  userId : Nat
  usernameEncrypted : String
  passwordEncrypted : String
  keyVersion : Int
deriving Repr, DecidableEq

abbrev AccessTokens := Table AccessToken AccessToken.token

/-- What `os.urandom` returns for the username and the password of each token. -/
abbrev Nonces := String → Urandom gcmNonceBytes × Urandom gcmNonceBytes

section

variable (lib : Cryptography) (settings : Settings) (users : Table User User.id)

/-- `get_current_key_version`. -/
def getCurrentKeyVersion : Int := settings.encryptionKeyVersion

/-- The loop's body: the token as the session has it, and whether it counts. -/
def reEncryptToken (nonces : Nonces) (token : AccessToken) : AccessToken × Bool :=
  match users.get? token.userId with
  | none => (token, false)
  | some user =>
      if user.wrapped = none then (token, false)
      else
        match decryptCredentialForUser lib settings user token.usernameEncrypted,
          decryptCredentialForUser lib settings user token.passwordEncrypted with
        | some plainUser, some plainPass =>
            match encryptCredentialForUser lib settings user (nonces token.token).1 plainUser with
            | none => (token, false)
            | some usernameEncrypted =>
                -- assigned before the password is encrypted
                let assigned := { token with usernameEncrypted }
                match encryptCredentialForUser lib settings user (nonces token.token).2
                  plainPass with
                | none => (assigned, false)
                | some passwordEncrypted =>
                    ({ assigned with
                        passwordEncrypted
                        keyVersion := getCurrentKeyVersion settings }, true)
        | _, _ => (token, false)

def stale (token : AccessToken) : Bool :=
  token.keyVersion < getCurrentKeyVersion settings

/-- `filter(AccessToken.key_version < current_version)`. -/
def staleTokens (tokens : AccessTokens) : List AccessToken :=
  tokens.rows.filter (stale settings)

/-- The loop over a batch. -/
def reEncryptFrom (nonces : Nonces) (count : Nat) :
    List AccessToken → AccessTokens → Nat × AccessTokens
  | [], tokens => (count, tokens)
  | token :: rest, tokens =>
      let result := reEncryptToken lib settings users nonces token
      reEncryptFrom nonces (if result.2 then count + 1 else count) rest (tokens.put result.1)

/-- `re_encrypt_tokens`, when its commit succeeds. -/
def reEncryptTokens (batchSize : Nat) (nonces : Nonces) (tokens : AccessTokens) :
    Nat × AccessTokens :=
  reEncryptFrom lib settings users nonces 0 ((staleTokens settings tokens).take batchSize) tokens

/-- The loop of `rotate_key`; `none` when the fuel is short. -/
def rotateKey (batchSize : Nat) (nonces : Nat → Nonces) :
    Nat → Nat → Nat → AccessTokens → Option (Nat × AccessTokens)
  | 0, _, _, _ => none
  | fuel + 1, call, total, tokens =>
      let (count, tokens) := reEncryptTokens lib settings users batchSize (nonces call) tokens
      let total := total + count
      if count < batchSize then some (total, tokens)
      else rotateKey batchSize nonces fuel (call + 1) total tokens

/-- The runs of `_reencrypt_stale_tokens`; one whose commit fails leaves the
database as it was. -/
def reencryptStaleTokens (nonces : Nat → Nonces) : Nat → List Bool → AccessTokens → AccessTokens
  | _, [], tokens => tokens
  | call, committed :: rest, tokens =>
      reencryptStaleTokens nonces (call + 1) rest
        (if committed then (reEncryptTokens lib settings users 100 (nonces call) tokens).2
          else tokens)

/-! ## The property and the condition -/

/-- What a token's username and password decrypt to. -/
def credentials (token : AccessToken) : Option String × Option String :=
  match users.get? token.userId with
  | none => (none, none)
  | some user =>
      (decryptCredentialForUser lib settings user token.usernameEncrypted,
        decryptCredentialForUser lib settings user token.passwordEncrypted)

/-- The token's owner has a DEK, and both ciphertexts decrypt. -/
def decryptable (token : AccessToken) : Bool :=
  ((users.get? token.userId).bind User.wrapped).isSome &&
    (credentials lib settings users token).1.isSome &&
    (credentials lib settings users token).2.isSome

/-- The rows by what must not change. -/
def contents (tokens : AccessTokens) : List (String × Nat × Option String × Option String) :=
  tokens.rows.map fun token => (token.token, token.userId, credentials lib settings users token)

structure Reached (before after : AccessTokens) : Prop where
  versions : ∀ token ∈ after.rows, decryptable lib settings users token = true →
    token.keyVersion = getCurrentKeyVersion settings
  contents : contents lib settings users after = contents lib settings users before

/-- The loop of the command stops, and with every token reached. -/
def CommandReaches (batchSize : Nat) (nonces : Nat → Nonces) (tokens : AccessTokens) : Prop :=
  (∃ fuel total after,
      rotateKey lib settings users batchSize nonces fuel 0 0 tokens = some (total, after)) ∧
    ∀ fuel total after,
      rotateKey lib settings users batchSize nonces fuel 0 0 tokens = some (total, after) →
        Reached lib settings users tokens after

/-- After so many committed runs, and any others, the job has reached every token. -/
def JobReaches (nonces : Nat → Nonces) (tokens : AccessTokens) : Prop :=
  ∃ n, ∀ runs : List Bool, n ≤ runs.count true →
    Reached lib settings users tokens
      (reencryptStaleTokens lib settings users nonces 0 runs tokens)

/-- No token that decrypts is of a newer version. -/
def NoneNewer (tokens : AccessTokens) : Prop :=
  ∀ token ∈ tokens.rows, decryptable lib settings users token = true →
    token.keyVersion ≤ getCurrentKeyVersion settings

end

variable {lib : Cryptography} {settings : Settings} {users : Table User User.id}

/-! ## One token -/

/-- A user whose key decrypted something encrypts with it, and decrypts that again. -/
theorem encrypt_decrypt (hlib : Lossless lib) {user : User} {wrapped ciphertext plaintext : String}
    (hwrapped : user.wrapped = some wrapped)
    (h : decryptCredentialForUser lib settings user ciphertext = some plaintext)
    (nonce : Urandom gcmNonceBytes) (fresh : String) :
    ∃ encrypted, encryptCredentialForUser lib settings user nonce fresh = some encrypted ∧
      decryptCredentialForUser lib settings user encrypted = some fresh := by
  simp only [decryptCredentialForUser, hwrapped, Option.bind_eq_bind, Option.bind_eq_some_iff] at h
  rcases h with ⟨dek, hdek, key, hkey, -⟩
  obtain rfl := aesgcm_eq_some hkey
  refine ⟨sealBytes lib key nonce (Bytes.utf8 fresh), ?_, ?_⟩
  · simp only [encryptCredentialForUser, hwrapped, hdek, hkey, Option.bind_eq_bind,
      Option.bind_some]
    rfl
  · have hopen : openBytes lib key (nonce.1 ++ lib.encrypt key nonce.1 (Bytes.utf8 fresh)) =
        some (Bytes.utf8 fresh) := by
      rw [openBytes_token (e := ⟨key, nonce.1, Bytes.utf8 fresh⟩) nonce.2]
      exact hlib key nonce.1 _ hkey nonce.2
    simp only [decryptCredentialForUser, hwrapped, hdek, hkey, Option.bind_eq_bind,
      Option.bind_some, sealBytes, Bytes.urlsafeB64decode_urlsafeB64encode, hopen,
      Bytes.utf8?_utf8]
    rfl

/-- What a call makes of a token. -/
structure ReEncrypted (lib : Cryptography) (settings : Settings) (users : Table User User.id)
    (token token' : AccessToken) : Prop where
  sameToken : token'.token = token.token
  sameOwner : token'.userId = token.userId
  current : token'.keyVersion = getCurrentKeyVersion settings
  sameCredentials : credentials lib settings users token' = credentials lib settings users token

/-- A token is re-encrypted if it is decryptable, and else left as it is. -/
theorem reEncryptToken_cases (hlib : Lossless lib) (settings : Settings)
    (users : Table User User.id) (nonces : Nonces) (token : AccessToken) :
    (decryptable lib settings users token = true ∧
      (reEncryptToken lib settings users nonces token).2 = true ∧
      ReEncrypted lib settings users token (reEncryptToken lib settings users nonces token).1) ∨
    (decryptable lib settings users token = false ∧
      reEncryptToken lib settings users nonces token = (token, false)) := by
  unfold decryptable credentials reEncryptToken
  cases huser : users.get? token.userId with
  | none => exact .inr ⟨rfl, rfl⟩
  | some user =>
      cases hwrapped : user.wrapped with
      | none => exact .inr ⟨by simp [hwrapped], by simp [hwrapped]⟩
      | some wrapped =>
          cases hname : decryptCredentialForUser lib settings user token.usernameEncrypted with
          | none => exact .inr ⟨by simp [hwrapped, hname], by simp [hwrapped, hname]⟩
          | some plainUser =>
              cases hpass : decryptCredentialForUser lib settings user token.passwordEncrypted with
              | none => exact .inr ⟨by simp [hwrapped, hname, hpass], by simp [hwrapped, hname, hpass]⟩
              | some plainPass =>
                  -- both are encrypted anew, under the key that decrypted them
                  rcases encrypt_decrypt hlib hwrapped hname (nonces token.token).1 plainUser with
                    ⟨username, husername, hname'⟩
                  rcases encrypt_decrypt hlib hwrapped hpass (nonces token.token).2 plainPass with
                    ⟨password, hpassword, hpass'⟩
                  refine .inl ⟨?_, ?_, ?_⟩
                  · simp only [Option.bind_some, hwrapped, Option.isSome_some, hname, hpass,
                      Bool.and_self]
                  · simp only [hwrapped, reduceCtorEq, if_false, hname, hpass, husername, hpassword]
                  · simp only [hwrapped, reduceCtorEq, if_false, hname, hpass, husername, hpassword]
                    refine ⟨rfl, rfl, rfl, ?_⟩
                    simp only [credentials, huser, hname, hpass, hname', hpass']

theorem reEncryptToken_token (hlib : Lossless lib) (nonces : Nonces) (token : AccessToken) :
    (reEncryptToken lib settings users nonces token).1.token = token.token := by
  rcases reEncryptToken_cases hlib settings users nonces token with ⟨-, -, h⟩ | ⟨-, h⟩
  · exact h.sameToken
  · rw [h]

/-- Whether a token is decryptable depends on its owner and its contents only. -/
theorem ReEncrypted.decryptable {token token' : AccessToken}
    (h : ReEncrypted lib settings users token token') :
    decryptable lib settings users token' = decryptable lib settings users token := by
  unfold ReEncryption.decryptable
  rw [h.sameOwner, h.sameCredentials]

/-! ## A batch -/

variable {batch : List AccessToken} {tokens : AccessTokens}

theorem reEncryptFrom_eq (hlib : Lossless lib) (nonces : Nonces) (count : Nat) :
    reEncryptFrom lib settings users nonces count batch tokens =
      (count + batch.countP (decryptable lib settings users),
        (batch.map fun token => (reEncryptToken lib settings users nonces token).1).foldl
          Table.put tokens) := by
  induction batch generalizing count tokens with
  | nil => rfl
  | cons token rest ih =>
      rw [reEncryptFrom, ih, List.countP_cons]
      rcases reEncryptToken_cases hlib settings users nonces token with ⟨hdec, hcounts, -⟩ | ⟨hdec, hsame⟩
      · simp only [hcounts, hdec, if_true, List.map_cons, List.foldl_cons]
        congr 1
        omega
      · simp only [hsame, hdec, Bool.false_eq_true, if_false, List.map_cons, List.foldl_cons,
          Nat.add_zero]

/-- What a batch makes of a row. -/
def afterBatch (lib : Cryptography) (settings : Settings) (users : Table User User.id)
    (nonces : Nonces) (batch : List AccessToken) (token : AccessToken) : AccessToken :=
  if token ∈ batch then (reEncryptToken lib settings users nonces token).1 else token

theorem rows_afterBatch (hlib : Lossless lib) (nonces : Nonces)
    (hsub : batch.Sublist tokens.rows) :
    ((batch.map fun token => (reEncryptToken lib settings users nonces token).1).foldl
      Table.put tokens).rows =
        tokens.rows.map (afterBatch lib settings users nonces batch) := by
  have hkeys : (batch.map fun token => (reEncryptToken lib settings users nonces token).1).map
      AccessToken.token = batch.map AccessToken.token := by
    rw [List.map_map]
    exact List.map_congr_left fun token _ => reEncryptToken_token hlib nonces token
  have hnodup : ((batch.map fun token =>
      (reEncryptToken lib settings users nonces token).1).map AccessToken.token).Nodup := by
    rw [hkeys]
    exact tokens.nodup.sublist (hsub.map _)
  rw [Table.foldl_put_rows hnodup]
  refine List.map_congr_left fun token htoken => ?_
  unfold afterBatch
  by_cases hmem : token ∈ batch
  · rw [if_pos hmem]
    exact Table.replacement_of_mem hnodup
      (List.mem_map_of_mem (f := fun token =>
        (reEncryptToken lib settings users nonces token).1) hmem)
      (reEncryptToken_token hlib nonces token)
  · rw [if_neg hmem]
    apply Table.replacement_of_not_mem
    rw [hkeys]
    intro hkey
    rcases List.mem_map.mp hkey with ⟨other, hother, heq⟩
    rw [Table.eq_of_key_eq (hsub.subset hother) htoken heq] at hother
    exact hmem hother

/-- A row of an older version that can be re-encrypted, or one that stays. -/
theorem afterBatch_cases (hlib : Lossless lib) (settings : Settings) (users : Table User User.id)
    (nonces : Nonces) (tokens : AccessTokens) (size : Nat) (token : AccessToken) :
    (token ∈ (staleTokens settings tokens).take size ∧
      decryptable lib settings users token = true ∧
      token.keyVersion < getCurrentKeyVersion settings ∧
      ReEncrypted lib settings users token (afterBatch lib settings users nonces
        ((staleTokens settings tokens).take size) token)) ∨
    (¬(token ∈ (staleTokens settings tokens).take size ∧
      decryptable lib settings users token = true) ∧
      afterBatch lib settings users nonces ((staleTokens settings tokens).take size) token =
        token) := by
  unfold afterBatch
  by_cases hmem : token ∈ (staleTokens settings tokens).take size
  · rw [if_pos hmem]
    rcases reEncryptToken_cases hlib settings users nonces token with ⟨hdec, -, h⟩ | ⟨hdec, h⟩
    · have hstale := (List.mem_filter.mp (List.mem_of_mem_take hmem)).2
      exact .inl ⟨hmem, hdec, of_decide_eq_true hstale, h⟩
    · refine .inr ⟨?_, by rw [h]⟩
      rintro ⟨-, htrue⟩
      rw [hdec] at htrue
      cases htrue
  · rw [if_neg hmem]
    exact .inr ⟨fun h => hmem h.1, rfl⟩

theorem batch_sublist (size : Nat) :
    ((staleTokens settings tokens).take size).Sublist tokens.rows :=
  (List.take_sublist _ _).trans List.filter_sublist

theorem rows_reEncryptTokens (hlib : Lossless lib) (size : Nat) (nonces : Nonces) :
    (reEncryptTokens lib settings users size nonces tokens).2.rows =
      tokens.rows.map (afterBatch lib settings users nonces
        ((staleTokens settings tokens).take size)) := by
  unfold reEncryptTokens
  rw [reEncryptFrom_eq hlib]
  exact rows_afterBatch hlib nonces (batch_sublist size)

theorem staleTokens_nodup (settings : Settings) (tokens : AccessTokens) :
    (staleTokens settings tokens).Nodup :=
  (List.Nodup.of_map _ tokens.nodup).filter _

/-- The token is not re-encrypted by a call on this batch. -/
def stays (lib : Cryptography) (settings : Settings) (users : Table User User.id)
    (batch : List AccessToken) (token : AccessToken) : Bool :=
  !(decide (token ∈ batch) && decryptable lib settings users token)

theorem stays_eq_false {token : AccessToken} :
    stays lib settings users batch token = false ↔
      token ∈ batch ∧ decryptable lib settings users token = true := by
  simp [stays]

/-- What is still of an older version after a call is what stayed. -/
theorem stale_afterBatch (hlib : Lossless lib) (nonces : Nonces) (size : Nat)
    (token : AccessToken) :
    stale settings (afterBatch lib settings users nonces ((staleTokens settings tokens).take size)
        token) =
      (stays lib settings users ((staleTokens settings tokens).take size) token &&
        stale settings token) := by
  rcases afterBatch_cases hlib settings users nonces tokens size token with
    ⟨hmem, hdec, -, h⟩ | ⟨hnot, h⟩
  · rw [stays_eq_false.mpr ⟨hmem, hdec⟩, Bool.false_and, stale, h.current]
    exact decide_eq_false (lt_irrefl _)
  · have hstays : stays lib settings users ((staleTokens settings tokens).take size) token =
        true := by
      by_contra hfalse
      exact hnot (stays_eq_false.mp (Bool.eq_false_iff.mpr hfalse))
    rw [h, hstays, Bool.true_and]

/-- To the tokens of an older version a call is a pass. -/
theorem reEncryptTokens_stale (hlib : Lossless lib) (size : Nat) (nonces : Nonces) :
    staleTokens settings (reEncryptTokens lib settings users size nonces tokens).2 =
      Sweep.pass (decryptable lib settings users) size (staleTokens settings tokens) := by
  have hdisjoint := List.disjoint_take_drop (staleTokens_nodup settings tokens) (le_refl size)
  have hstale : stale settings ∘ afterBatch lib settings users nonces
      ((staleTokens settings tokens).take size) = fun token =>
        stays lib settings users ((staleTokens settings tokens).take size) token &&
          stale settings token :=
    funext fun token => stale_afterBatch hlib nonces size token
  have hsame : ∀ token ∈ tokens.rows.filter fun token =>
      stays lib settings users ((staleTokens settings tokens).take size) token &&
        stale settings token,
      afterBatch lib settings users nonces ((staleTokens settings tokens).take size) token =
        id token := by
    intro token htoken
    have hstays := (Bool.and_eq_true_iff.mp (List.mem_filter.mp htoken).2).1
    rcases afterBatch_cases hlib settings users nonces tokens size token with
      ⟨hmem, hdec, -, -⟩ | ⟨-, h⟩
    · rw [stays_eq_false.mpr ⟨hmem, hdec⟩] at hstays
      cases hstays
    · exact h
  -- in the batch the others stay, behind it everything
  have hfirst : ∀ token ∈ (staleTokens settings tokens).take size,
      stays lib settings users ((staleTokens settings tokens).take size) token =
        !decryptable lib settings users token := by
    intro token htoken
    rw [stays, decide_eq_true htoken, Bool.true_and]
  have hrest : ∀ token ∈ (staleTokens settings tokens).drop size,
      stays lib settings users ((staleTokens settings tokens).take size) token = true := by
    intro token htoken
    rw [stays, decide_eq_false fun hmem => hdisjoint hmem htoken, Bool.false_and, Bool.not_false]
  calc staleTokens settings (reEncryptTokens lib settings users size nonces tokens).2
    _ = tokens.rows.filter fun token =>
          stays lib settings users ((staleTokens settings tokens).take size) token &&
            stale settings token := by
        rw [staleTokens, rows_reEncryptTokens hlib, List.filter_map, hstale,
          List.map_congr_left hsame, List.map_id]
    _ = (staleTokens settings tokens).filter
          (stays lib settings users ((staleTokens settings tokens).take size)) := by
        rw [staleTokens, List.filter_filter]
    _ = ((staleTokens settings tokens).take size ++ (staleTokens settings tokens).drop size).filter
          (stays lib settings users ((staleTokens settings tokens).take size)) := by
        rw [List.take_append_drop]
    _ = Sweep.pass (decryptable lib settings users) size (staleTokens settings tokens) := by
        rw [List.filter_append, List.filter_congr hfirst, List.filter_eq_self.mpr hrest,
          Sweep.pass]

theorem reEncryptTokens_count (hlib : Lossless lib) (size : Nat) (nonces : Nonces) :
    (reEncryptTokens lib settings users size nonces tokens).1 =
      Sweep.done (decryptable lib settings users) size (staleTokens settings tokens) := by
  unfold reEncryptTokens
  rw [reEncryptFrom_eq hlib]
  exact Nat.zero_add _

/-- A call changes no contents, and makes no token newer. -/
theorem reEncryptTokens_keeps (hlib : Lossless lib) (size : Nat) (nonces : Nonces) :
    contents lib settings users (reEncryptTokens lib settings users size nonces tokens).2 =
        contents lib settings users tokens ∧
      (NoneNewer lib settings users (reEncryptTokens lib settings users size nonces tokens).2 ↔
        NoneNewer lib settings users tokens) := by
  refine ⟨?_, ?_⟩
  · unfold contents
    rw [rows_reEncryptTokens hlib, List.map_map]
    refine List.map_congr_left fun token _ => ?_
    rcases afterBatch_cases hlib settings users nonces tokens size token with ⟨-, -, -, h⟩ | ⟨-, h⟩
    · simp only [Function.comp_apply, h.sameToken, h.sameOwner, h.sameCredentials]
    · simp only [Function.comp_apply, h]
  · unfold NoneNewer
    rw [rows_reEncryptTokens hlib, List.forall_mem_map]
    refine forall₂_congr fun token _ => ?_
    rcases afterBatch_cases hlib settings users nonces tokens size token with ⟨-, hdec, hstale, h⟩ | ⟨-, h⟩
    · -- it was older, and is current now
      rw [h.decryptable, h.current]
      exact iff_of_true (fun _ => le_refl _) fun _ => le_of_lt hstale
    · rw [h]

/-! ## The two callers -/

/-- The loop of the command is a sweep until a short batch. -/
theorem rotateKey_stale (hlib : Lossless lib) (size : Nat) (nonces : Nat → Nonces)
    (fuel call total : Nat) (tokens : AccessTokens) :
    (rotateKey lib settings users size nonces fuel call total tokens).map
        (fun result => staleTokens settings result.2) =
      Sweep.untilShort (decryptable lib settings users) size fuel (staleTokens settings tokens) := by
  induction fuel generalizing call total tokens with
  | zero => rfl
  | succ fuel ih =>
      rw [rotateKey, Sweep.untilShort, ← reEncryptTokens_count hlib size (nonces call),
        ← reEncryptTokens_stale hlib size (nonces call)]
      dsimp only
      by_cases hshort : (reEncryptTokens lib settings users size (nonces call) tokens).1 < size
      · rw [if_pos hshort, if_pos hshort]
        rfl
      · rw [if_neg hshort, if_neg hshort]
        exact ih (call + 1) _ _

theorem rotateKey_keeps (hlib : Lossless lib) {size : Nat} {nonces : Nat → Nonces}
    {fuel call total total' : Nat} {tokens after : AccessTokens}
    (h : rotateKey lib settings users size nonces fuel call total tokens = some (total', after)) :
    contents lib settings users after = contents lib settings users tokens ∧
      (NoneNewer lib settings users after ↔ NoneNewer lib settings users tokens) := by
  induction fuel generalizing call total tokens with
  | zero => cases h
  | succ fuel ih =>
      rw [rotateKey] at h
      dsimp only at h
      rcases @reEncryptTokens_keeps lib settings users tokens hlib size (nonces call) with ⟨hcontents, hnewer⟩
      by_cases hshort : (reEncryptTokens lib settings users size (nonces call) tokens).1 < size
      · rw [if_pos hshort] at h
        obtain ⟨-, rfl⟩ := Prod.mk.inj (Option.some.inj h)
        exact ⟨hcontents, hnewer⟩
      · rw [if_neg hshort] at h
        rcases ih h with ⟨hrest, hrestNewer⟩
        exact ⟨hrest.trans hcontents, hrestNewer.trans hnewer⟩

/-- The runs of the job are passes at will. -/
theorem reencryptStaleTokens_stale (hlib : Lossless lib) (nonces : Nat → Nonces) (call : Nat)
    (runs : List Bool) (tokens : AccessTokens) :
    staleTokens settings (reencryptStaleTokens lib settings users nonces call runs tokens) =
      Sweep.sweeps (decryptable lib settings users) 100 (staleTokens settings tokens) runs := by
  induction runs generalizing call tokens with
  | nil => rfl
  | cons committed runs ih =>
      rw [reencryptStaleTokens, ih]
      cases committed with
      | false => rfl
      | true =>
          rw [if_pos rfl, reEncryptTokens_stale hlib]
          rfl

theorem reencryptStaleTokens_keeps (hlib : Lossless lib) (nonces : Nat → Nonces) (call : Nat)
    (runs : List Bool) (tokens : AccessTokens) :
    contents lib settings users
        (reencryptStaleTokens lib settings users nonces call runs tokens) =
      contents lib settings users tokens ∧
      (NoneNewer lib settings users
          (reencryptStaleTokens lib settings users nonces call runs tokens) ↔
        NoneNewer lib settings users tokens) := by
  induction runs generalizing call tokens with
  | nil => exact ⟨rfl, Iff.rfl⟩
  | cons committed runs ih =>
      rw [reencryptStaleTokens]
      cases committed with
      | false => exact ih (call + 1) tokens
      | true =>
          rcases reEncryptTokens_keeps hlib 100 (nonces call) with ⟨hcontents, hnewer⟩
          rcases ih (call + 1) (reEncryptTokens lib settings users 100 (nonces call) tokens).2 with
            ⟨hrest, hrestNewer⟩
          exact ⟨hrest.trans hcontents, hrestNewer.trans hnewer⟩

/-- Every token is reached when none that decrypts is of another version. -/
theorem reached_iff {before after : AccessTokens}
    (hcontents : contents lib settings users after = contents lib settings users before)
    (hnewer : NoneNewer lib settings users after ↔ NoneNewer lib settings users before) :
    Reached lib settings users before after ↔
      NoneNewer lib settings users before ∧
        Sweep.NoneReady (decryptable lib settings users) (staleTokens settings after) := by
  rw [← hnewer]
  constructor
  · intro h
    refine ⟨fun token htoken hdec => le_of_eq (h.versions token htoken hdec), ?_⟩
    intro token htoken
    rcases List.mem_filter.mp htoken with ⟨hmem, hstale⟩
    have hlt : token.keyVersion < getCurrentKeyVersion settings := of_decide_eq_true hstale
    by_contra hne
    have hversion := h.versions token hmem (by simpa using hne)
    omega
  · rintro ⟨hnone, hready⟩
    refine ⟨fun token htoken hdec => ?_, hcontents⟩
    have hle := hnone token htoken hdec
    by_contra hne
    have hlt : token.keyVersion < getCurrentKeyVersion settings := by omega
    have hstale : token ∈ staleTokens settings after :=
      List.mem_filter.mpr ⟨htoken, decide_eq_true hlt⟩
    rw [hready token hstale] at hdec
    cases hdec

/-- The command reaches every token exactly if none that decrypts is newer, and no
batch with a token that cannot be re-encrypted comes before one with a token
that can. The job does exactly if none that decrypts is newer or has a hundred
of the others before it. -/
theorem reaches_iff (hlib : Lossless lib) (settings : Settings) (users : Table User User.id)
    (nonces : Nat → Nonces) (tokens : AccessTokens) {size : Nat} (hsize : 0 < size) :
    (CommandReaches lib settings users size nonces tokens ↔
      NoneNewer lib settings users tokens ∧
        Sweep.ReadyBefore (decryptable lib settings users) size (staleTokens settings tokens)) ∧
    (JobReaches lib settings users nonces tokens ↔
      NoneNewer lib settings users tokens ∧
        Sweep.FewBefore (decryptable lib settings users) 100 (staleTokens settings tokens)) := by
  constructor
  · have hreached : ∀ fuel total after,
        rotateKey lib settings users size nonces fuel 0 0 tokens = some (total, after) →
          (Reached lib settings users tokens after ↔ NoneNewer lib settings users tokens ∧
            Sweep.ReadyBefore (decryptable lib settings users) size
              (staleTokens settings tokens)) := by
      intro fuel total after h
      rcases rotateKey_keeps hlib h with ⟨hcontents, hnewer⟩
      have hsweep := @rotateKey_stale lib settings users hlib size nonces fuel 0 0 tokens
      rw [h] at hsweep
      rw [reached_iff hcontents hnewer, Sweep.untilShort_ready_iff hsize hsweep.symm]
    have hstops : ∃ fuel total after,
        rotateKey lib settings users size nonces fuel 0 0 tokens = some (total, after) := by
      rcases @Sweep.untilShort_stops _ (decryptable lib settings users) size hsize
        (staleTokens settings tokens) with ⟨fuel, left, hleft⟩
      rw [← rotateKey_stale hlib size nonces fuel 0 0 tokens] at hleft
      rcases Option.map_eq_some_iff.mp hleft with ⟨⟨total, after⟩, h, -⟩
      exact ⟨fuel, total, after, h⟩
    constructor
    · rintro ⟨⟨fuel, total, after, h⟩, hall⟩
      exact (hreached fuel total after h).mp (hall fuel total after h)
    · intro hcondition
      refine ⟨hstops, fun fuel total after h => ?_⟩
      exact (hreached fuel total after h).mpr hcondition
  · have hreached : ∀ runs, Reached lib settings users tokens
        (reencryptStaleTokens lib settings users nonces 0 runs tokens) ↔
          NoneNewer lib settings users tokens ∧
            Sweep.NoneReady (decryptable lib settings users)
              (Sweep.sweeps (decryptable lib settings users) 100 (staleTokens settings tokens)
                runs) := by
      intro runs
      rcases @reencryptStaleTokens_keeps lib settings users hlib nonces 0 runs tokens with ⟨hcontents, hnewer⟩
      rw [reached_iff hcontents hnewer, reencryptStaleTokens_stale hlib]
    unfold JobReaches
    simp only [hreached]
    rw [← Sweep.sweeps_ready_iff]
    constructor
    · rintro ⟨n, hn⟩
      have hmany := hn (List.replicate n true) (by simp)
      exact ⟨hmany.1, n, fun runs henough => (hn runs henough).2⟩
    · rintro ⟨hnone, n, hn⟩
      exact ⟨n, fun runs henough => ⟨hnone, hn runs henough⟩⟩

/-! ## A token that cannot be re-encrypted -/

def rotatedSettings : Settings where
  encryptionKey := keyText firstKey
  encryptionKeyVersion := 2

/-- The first user has a DEK, the second has none. -/
def twoUsers : Table User User.id where
  rows := [⟨1, some (sealBytes taggedCryptography firstKey (nonce 2) dek)⟩, ⟨2, none⟩]
  nodup := by decide

/-- A token of the first user. -/
def bankToken : AccessToken where
  token := "bank"
  userId := 1
  usernameEncrypted := sealBytes taggedCryptography dek (nonce 5) (Bytes.utf8 "hunter2")
  passwordEncrypted := sealBytes taggedCryptography dek (nonce 5) (Bytes.utf8 "hunter2")
  keyVersion := 1

/-- A token of the second user comes first. -/
def legacyFirst : AccessTokens where
  rows := [{ bankToken with token := "legacy", userId := 2 }, bankToken]
  nodup := by decide

/-- With batches of one the loop stops at the first token. -/
theorem legacyFirst_not_reached :
    ¬CommandReaches taggedCryptography rotatedSettings twoUsers 1 (fun _ _ => (nonce 5, nonce 5))
      legacyFirst := by
  rintro ⟨-, hall⟩
  have hrun : (rotateKey taggedCryptography rotatedSettings twoUsers 1
      (fun _ _ => (nonce 5, nonce 5)) 1 0 0 legacyFirst).map (fun result => result.2.rows) =
        some legacyFirst.rows := by
    decide +kernel
  rcases Option.map_eq_some_iff.mp hrun with ⟨⟨total, after⟩, hstops, hrows⟩
  have hmem : bankToken ∈ after.rows := by
    rw [show after.rows = legacyFirst.rows from hrows]
    decide
  have hversion := (hall 1 total after hstops).versions bankToken hmem (by decide +kernel)
  exact absurd hversion (by decide)

/-- A token of the second user comes last, behind a full batch and in a batch with a
token of the first. -/
def legacyLast : AccessTokens where
  rows := [bankToken, { bankToken with token := "card" }, { bankToken with token := "loan" },
    { bankToken with token := "legacy", userId := 2 }]
  nodup := by decide

theorem legacyLast_reached :
    CommandReaches taggedCryptography rotatedSettings twoUsers 2 (fun _ _ => (nonce 5, nonce 5))
        legacyLast ∧
      JobReaches taggedCryptography rotatedSettings twoUsers (fun _ _ => (nonce 5, nonce 5))
        legacyLast := by
  have hiff := reaches_iff taggedCryptography_lossless rotatedSettings twoUsers
    (fun _ _ => (nonce 5, nonce 5)) legacyLast Nat.two_pos
  have hstale : staleTokens rotatedSettings legacyLast = legacyLast.rows := by decide
  have hready : legacyLast.rows.map (decryptable taggedCryptography rotatedSettings twoUsers) =
      [true, true, true, false] := by
    decide +kernel
  have hnewer : NoneNewer taggedCryptography rotatedSettings twoUsers legacyLast := by
    have hversions : ∀ token ∈ legacyLast.rows, token.keyVersion = 1 := by decide
    intro token htoken _
    rw [hversions token htoken]
    decide
  refine ⟨hiff.1.mpr ⟨hnewer, ?_⟩, hiff.2.mpr ⟨hnewer, ?_⟩⟩
  · intro i j x y hi hj hy hlt
    rw [hstale] at hi hj
    have hat : ∀ (k : Nat) (token : AccessToken), legacyLast.rows[k]? = some token →
        [true, true, true, false][k]? =
          some (decryptable taggedCryptography rotatedSettings twoUsers token) := by
      intro k token hk
      rw [← hready, List.getElem?_map, hk]
      rfl
    -- the last token is the only one that is not ready, and no batch comes after its own
    have hlast : j ≠ 3 := by
      rintro rfl
      have hnot := Option.some.inj (hat 3 y hj)
      rw [hy] at hnot
      cases hnot
    have hlength : j < 4 := (List.getElem?_eq_some_iff.mp hj).1
    have hfirst : i = 0 ∨ i = 1 := by omega
    rcases hfirst with rfl | rfl
    · exact (Option.some.inj (hat 0 x hi)).symm
    · exact (Option.some.inj (hat 1 x hi)).symm
  · intro before token after hsplit _
    have hlength : legacyLast.rows.length = 4 := rfl
    rw [← hstale, hsplit, List.length_append, List.length_cons] at hlength
    have hfew : before.countP
        (fun token => !decryptable taggedCryptography rotatedSettings twoUsers token) ≤
          before.length := List.countP_le_length
    omega

end Plaidify.Envelope.ReEncryption
