import Plaidify.Envelope.Credentials
import Plaidify.Lib.Runs

/-!
# What master key rotation leaves readable

The state holds the settings, the users and every secret that was stored. A
rotation is the documented procedure: `rotate_master_key`, then the new key in
`ENCRYPTION_KEY`, the old one in `ENCRYPTION_KEY_PREVIOUS`, and the version
bumped.

`rotate_master_key` re-wraps the users' data encryption keys and nothing else,
and `unwrap_dek` alone looks at the previous key, so what was encrypted under
the master key itself is lost: `secrets_readable_iff`.
-/

namespace Plaidify.Envelope

/-! ## Histories -/

/-- A call of `AESGCM(key).encrypt(nonce, data, None)`. -/
structure Encryption where
  key : Bytes
  nonce : Bytes
  data : Bytes
deriving Repr, DecidableEq

/-- Who stored a secret. -/
inductive Holder where
  | user (userId : Nat)
  | webhook
deriving Repr, DecidableEq

structure Secret where
  holder : Holder
  plaintext : String
  ciphertext : String
  /-- History variable: the key it was encrypted under. -/
  key : Bytes
deriving Repr, DecidableEq

structure State where
  settings : Settings
  users : Table User User.id
  secrets : List Secret
  /-- History variable: every encryption so far. -/
  made : List Encryption
  /-- History variable: every key so far. -/
  keys : List Bytes

inductive Label where
  | register (userId : Nat)
  | ensureUserDek (userId : Nat) (dek : Urandom 32) (nonce : Urandom gcmNonceBytes)
  | encryptCredential (userId : Nat) (plaintext : String) (nonce : Urandom gcmNonceBytes)
  | encryptWebhookSecret (secret : String) (nonce : Urandom gcmNonceBytes)
  | rotate (newKey : Urandom 32) (nonces : Nat → Urandom gcmNonceBytes)

/-- `base64.urlsafe_b64encode(os.urandom(32)).decode()`. -/
def keyText (key : Urandom 32) : String :=
  Bytes.urlsafeB64encode key

section

variable (lib : Cryptography)

def Encryption.token (e : Encryption) : String :=
  sealBytes lib e.key e.nonce e.data

/-- The user's data encryption key, if there is one. -/
def userDek (settings : Settings) (user : User) : Option Bytes :=
  user.wrapped.bind (unwrapDek lib settings)

/-- The key that `encrypt_credential_for_user` takes. -/
def credentialKey (settings : Settings) (user : User) : Option Bytes :=
  match user.wrapped with
  | some wrapped => unwrapDek lib settings wrapped
  | none => getEncryptionKey settings

/-- The state after an operation, its history variables aside. -/
def operate (s : State) : Label → Option State
  | .register userId => do
      let users ← s.users.insert? { id := userId }
      return { s with users }
  | .ensureUserDek userId dek nonce => do
      let user ← s.users.get? userId
      let users ← ensureUserDek lib s.settings s.users user dek nonce
      return { s with users }
  | .encryptCredential userId plaintext nonce => do
      let user ← s.users.get? userId
      let ciphertext ← encryptCredentialForUser lib s.settings user nonce plaintext
      let key ← credentialKey lib s.settings user
      return { s with secrets := s.secrets ++ [⟨.user userId, plaintext, ciphertext, key⟩] }
  | .encryptWebhookSecret secret nonce => do
      let ciphertext ← encryptWebhookSecret lib s.settings nonce secret
      let key ← getEncryptionKey s.settings
      return { s with secrets := s.secrets ++ [⟨.webhook, secret, ciphertext, key⟩] }
  | .rotate newKey nonces => do
      let users ← rotateMasterKey lib s.settings.encryptionKey (keyText newKey) s.users nonces
      return { s with
        users
        settings :=
          { encryptionKey := keyText newKey
            encryptionKeyPrevious := some s.settings.encryptionKey
            encryptionKeyVersion := s.settings.encryptionKeyVersion + 1 } }

/-- The encryptions of an operation. -/
def encryptions (s : State) : Label → List Encryption
  | .register _ => []
  | .ensureUserDek userId dek nonce =>
      match (s.users.get? userId).bind User.wrapped with
      | some _ => []
      | none => (getEncryptionKey s.settings).toList.map fun key => ⟨key, nonce, dek⟩
  | .encryptCredential userId plaintext nonce =>
      ((s.users.get? userId).bind (credentialKey lib s.settings)).toList.map fun key =>
        ⟨key, nonce, Bytes.utf8 plaintext⟩
  | .encryptWebhookSecret secret nonce =>
      (getEncryptionKey s.settings).toList.map fun key => ⟨key, nonce, Bytes.utf8 secret⟩
  | .rotate newKey nonces =>
      s.users.rows.filterMap fun user =>
        (user.encryptedDek.bind (unwrapKeySync lib s.settings)).map fun dek =>
          ⟨newKey, nonces user.id, dek⟩

/-- The keys that an operation brings. -/
def newKeys : Label → List Bytes
  | .ensureUserDek _ dek _ => [dek]
  | .rotate newKey _ => [newKey]
  | _ => []

def step (s : State) (l : Label) : Option State :=
  (operate lib s l).map fun t =>
    { t with made := s.made ++ encryptions lib s l, keys := s.keys ++ newKeys l }

/-- No users, no secrets. -/
def start (key : Urandom 32) : State where
  settings := { encryptionKey := keyText key }
  users := Table.empty
  secrets := []
  made := []
  keys := [key]

def run (key : Urandom 32) (tr : List Label) : Option State :=
  Runs.exec (step lib) (start key) tr

/-! ## The property and the condition -/

/-- What a stored secret is read back as. -/
def Secret.read (s : State) (secret : Secret) : Option String :=
  match secret.holder with
  | .user userId =>
      (s.users.get? userId).bind fun user =>
        decryptCredentialForUser lib s.settings user secret.ciphertext
  | .webhook => some (decryptWebhookSecret lib s.settings secret.ciphertext)

/-- Every stored secret is read back as it was. -/
def Readable (s : State) : Prop :=
  ∀ secret ∈ s.secrets, secret.read lib s = some secret.plaintext

/-- The data encryption key of the secret's holder, if there is one. -/
def Secret.holderDek (s : State) (secret : Secret) : Option Bytes :=
  match secret.holder with
  | .user userId => (s.users.get? userId).bind (userDek lib s.settings)
  | .webhook => none

/-- The condition on a step: a rotation to another master key finds no secret
that is encrypted under the master key itself. -/
def NoneUnderMaster (s : State) : Label → Prop
  | .rotate newKey _ =>
      ∀ secret ∈ s.secrets, secret.key = newKey ∨ secret.holderDek lib s = some secret.key
  | _ => True

instance (s : State) : (l : Label) → Decidable (NoneUnderMaster lib s l)
  | .rotate newKey _ => inferInstanceAs (Decidable (∀ secret ∈ s.secrets,
      secret.key = newKey ∨ secret.holderDek lib s = some secret.key))
  | .register _ => isTrue trivial
  | .ensureUserDek _ _ _ => isTrue trivial
  | .encryptCredential _ _ _ => isTrue trivial
  | .encryptWebhookSecret _ _ => isTrue trivial

/-- AES-GCM on the encryptions that were made and with the keys there are, and
Fernet on what it did not produce. -/
structure Sound (made : List Encryption) (keys : List Bytes) : Prop where
  /-- The tag has 16 bytes. -/
  length : ∀ e ∈ made, (lib.encrypt e.key e.nonce e.data).length = e.data.length + 16
  sameKey : ∀ e ∈ made, lib.decrypt e.key e.nonce (lib.encrypt e.key e.nonce e.data) = some e.data
  otherKey : ∀ e ∈ made, ∀ key ∈ keys, key ≠ e.key →
    lib.decrypt key e.nonce (lib.encrypt e.key e.nonce e.data) = none
  fernet : ∀ e ∈ made, ∀ key : Urandom 32, key.1 ∈ keys →
    lib.fernetDecrypt (keyText key) (e.token lib) = none

end

variable {lib : Cryptography} {made : List Encryption} {keys : List Bytes}

theorem Sound.mono {made' : List Encryption} {keys' : List Bytes} (h : Sound lib made keys)
    (hmade : made' ⊆ made) (hkeys : keys' ⊆ keys) : Sound lib made' keys' where
  length e he := h.length e (hmade he)
  sameKey e he := h.sameKey e (hmade he)
  otherKey e he key hkey := h.otherKey e (hmade he) key (hkeys hkey)
  fernet e he key hkey := h.fernet e (hmade he) key (hkeys hkey)

/-! ## What the functions do to one ciphertext -/

theorem getEncryptionKey_keyText {settings : Settings} {master : Urandom 32}
    (h : settings.encryptionKey = keyText master) : getEncryptionKey settings = some master.1 := by
  simp [getEncryptionKey, h, keyText, Bytes.urlsafeB64decode_urlsafeB64encode, master.2]

theorem aesgcm_urandom (key : Urandom 32) : aesgcm key.1 = some key.1 := by
  simp [aesgcm, key.2]

/-- A token as bytes, and the two halves of them. -/
theorem decode_token (lib : Cryptography) (e : Encryption) :
    Bytes.urlsafeB64decode (e.token lib) = some (e.nonce ++ lib.encrypt e.key e.nonce e.data) :=
  Bytes.urlsafeB64decode_urlsafeB64encode _

theorem openBytes_token {e : Encryption} (hnonce : e.nonce.length = gcmNonceBytes) (key : Bytes) :
    openBytes lib key (e.nonce ++ lib.encrypt e.key e.nonce e.data) =
      lib.decrypt key e.nonce (lib.encrypt e.key e.nonce e.data) := by
  rw [openBytes, ← hnonce, List.take_left, List.drop_left]

theorem token_ne_empty (lib : Cryptography) {e : Encryption} (hnonce : e.nonce.length = gcmNonceBytes) :
    e.token lib ≠ "" := by
  intro h
  have hlength := Bytes.length_le_urlsafeB64encode (e.nonce ++ lib.encrypt e.key e.nonce e.data)
  rw [show Bytes.urlsafeB64encode (e.nonce ++ lib.encrypt e.key e.nonce e.data) = "" from h,
    List.length_append, hnonce] at hlength
  simp [gcmNonceBytes] at hlength

/-- Opening with a key that is known gives the data back or nothing. -/
theorem open_of_sound (hsound : Sound lib made keys) {e : Encryption} (he : e ∈ made)
    (hnonce : e.nonce.length = gcmNonceBytes) {key : Bytes} (hkey : key ∈ keys) :
    openBytes lib key (e.nonce ++ lib.encrypt e.key e.nonce e.data) =
      if key = e.key then some e.data else none := by
  rw [openBytes_token hnonce]
  by_cases h : key = e.key
  · rw [if_pos h, h]
    exact hsound.sameKey e he
  · rw [if_neg h]
    exact hsound.otherKey e he key hkey h

/-- `decrypt_credential` goes by the current master key alone. -/
theorem decryptCredential_token (hsound : Sound lib made keys) {e : Encryption} (he : e ∈ made)
    (hnonce : e.nonce.length = gcmNonceBytes) {plaintext : String}
    (hdata : e.data = Bytes.utf8 plaintext) {settings : Settings} {master : Urandom 32}
    (hsettings : settings.encryptionKey = keyText master) (hmaster : master.1 ∈ keys) :
    decryptCredential lib settings (e.token lib) =
      if master.1 = e.key then some plaintext else none := by
  have hlength : gcmNonceBytes < (e.nonce ++ lib.encrypt e.key e.nonce e.data).length := by
    rw [List.length_append, hnonce, hsound.length e he]
    omega
  simp only [decryptCredential, decode_token lib, Option.bind_eq_bind, Option.bind_some, if_pos hlength,
    getEncryptionKey_keyText hsettings, aesgcm_urandom, open_of_sound hsound he hnonce hmaster,
    hsettings, hsound.fernet e he master hmaster]
  by_cases h : master.1 = e.key
  · simp [h, hdata, Bytes.utf8?_utf8]
  · simp [h]

/-- A ciphertext is longer than what it holds. -/
theorem ciphertext_ne_plaintext (hsound : Sound lib made keys) {e : Encryption} (he : e ∈ made)
    (hnonce : e.nonce.length = gcmNonceBytes) {plaintext : String}
    (hdata : e.data = Bytes.utf8 plaintext) : e.token lib ≠ plaintext := by
  intro h
  have htext := Bytes.length_le_utf8 plaintext
  have htoken := Bytes.length_le_urlsafeB64encode (e.nonce ++ lib.encrypt e.key e.nonce e.data)
  rw [show Bytes.urlsafeB64encode (e.nonce ++ lib.encrypt e.key e.nonce e.data) = plaintext from h,
    List.length_append, hsound.length e he, hdata] at htoken
  omega

/-- What is wrapped under the current master key is unwrapped. -/
theorem unwrapDek_token (hsound : Sound lib made keys) {e : Encryption} (he : e ∈ made)
    (hnonce : e.nonce.length = gcmNonceBytes) {settings : Settings} {master : Urandom 32}
    (hsettings : settings.encryptionKey = keyText master) (hkey : e.key = master.1) :
    unwrapKeySync lib settings (e.token lib) = some e.data ∧
      unwrapDek lib settings (e.token lib) = some e.data := by
  have hsync : unwrapKeySync lib settings (e.token lib) = some e.data := by
    simp only [unwrapKeySync, decode_token lib, Option.bind_eq_bind, Option.bind_some,
      getEncryptionKey_keyText hsettings, aesgcm_urandom, openBytes_token hnonce]
    rw [← hkey]
    exact hsound.sameKey e he
  refine ⟨hsync, ?_⟩
  rw [unwrapDek, hsync]
  rfl

/-! ## The invariant -/

/-- The user has no data encryption key, or one wrapped under the current
master key. -/
def UserOk (lib : Cryptography) (s : State) (master : Urandom 32) (user : User) : Prop :=
  user.encryptedDek = none ∨
    ∃ (dek : Urandom 32) (nonce : Urandom gcmNonceBytes),
      user.encryptedDek = some (Encryption.token lib ⟨master, nonce, dek⟩) ∧
        ⟨master, nonce, dek⟩ ∈ s.made ∧ dek.1 ∈ s.keys

/-- The ciphertext is what the history variables say, and its holder exists. -/
structure SecretOk (lib : Cryptography) (s : State) (secret : Secret) : Prop where
  sealed : ∃ nonce : Urandom gcmNonceBytes,
    secret.ciphertext = Encryption.token lib ⟨secret.key, nonce, Bytes.utf8 secret.plaintext⟩ ∧
      ⟨secret.key, nonce, Bytes.utf8 secret.plaintext⟩ ∈ s.made
  holder : ∀ userId, secret.holder = .user userId → s.users.get? userId ≠ none

structure Inv (lib : Cryptography) (s : State) (master : Urandom 32) : Prop where
  settings : s.settings.encryptionKey = keyText master
  known : master.1 ∈ s.keys
  users : ∀ user ∈ s.users.rows, UserOk lib s master user
  secrets : ∀ secret ∈ s.secrets, SecretOk lib s secret

theorem init_inv (key : Urandom 32) : Inv lib (start key) key where
  settings := rfl
  known := List.mem_singleton_self _
  users := by simp [start]
  secrets := by simp [start]

theorem userDek_token {settings : Settings} {master : Urandom 32} {dek : Bytes}
    {nonce : Urandom gcmNonceBytes} {user : User} (hsound : Sound lib made keys)
    (hmade : ⟨master, nonce, dek⟩ ∈ made) (hsettings : settings.encryptionKey = keyText master)
    (h : user.encryptedDek = some (Encryption.token lib ⟨master, nonce, dek⟩)) :
    user.wrapped = user.encryptedDek ∧ userDek lib settings user = some dek := by
  have hwrapped : user.wrapped = user.encryptedDek := by
    have hne := token_ne_empty lib (e := ⟨master, nonce, dek⟩) nonce.2
    simp [User.wrapped, h, Option.filter, hne]
  refine ⟨hwrapped, ?_⟩
  rw [userDek, hwrapped, h, Option.bind_some]
  exact (unwrapDek_token hsound hmade nonce.2 hsettings rfl).2

/-- What the code finds in a user's row. -/
theorem UserOk.dek {s : State} {master : Urandom 32} {user : User}
    (hsound : Sound lib s.made s.keys) (hsettings : s.settings.encryptionKey = keyText master)
    (h : UserOk lib s master user) :
    (user.encryptedDek = none ∧ user.wrapped = none ∧ userDek lib s.settings user = none) ∨
      ∃ (dek : Urandom 32) (wrapped : String), user.encryptedDek = some wrapped ∧
        user.wrapped = some wrapped ∧ unwrapKeySync lib s.settings wrapped = some dek.1 ∧
        unwrapDek lib s.settings wrapped = some dek.1 ∧ dek.1 ∈ s.keys := by
  rcases h with hnone | ⟨dek, nonce, hwrapped, hmade, hkey⟩
  · exact .inl ⟨hnone, by simp [User.wrapped, hnone], by simp [userDek, User.wrapped, hnone]⟩
  · obtain ⟨hsync, hunwrap⟩ := unwrapDek_token hsound hmade nonce.2 hsettings rfl
    obtain ⟨hfilter, -⟩ := userDek_token hsound hmade hsettings hwrapped
    exact .inr ⟨dek, _, hwrapped, hfilter.trans hwrapped, hsync, hunwrap, hkey⟩

/-- A secret is read back exactly when it is under the master key of the
moment or under its holder's own key. -/
theorem read_iff {s : State} {master : Urandom 32} (hsound : Sound lib s.made s.keys)
    (hinv : Inv lib s master) {secret : Secret} (hmem : secret ∈ s.secrets) :
    secret.read lib s = some secret.plaintext ↔
      secret.key = master.1 ∨ secret.holderDek lib s = some secret.key := by
  obtain ⟨⟨nonce, hcipher, hmade⟩, hholder⟩ := hinv.secrets secret hmem
  have hmaster := decryptCredential_token hsound hmade nonce.2 rfl hinv.settings hinv.known
  rw [← hcipher] at hmaster
  have hmaster' : decryptCredential lib s.settings secret.ciphertext = some secret.plaintext ↔
      secret.key = master.1 := by
    rw [hmaster]
    by_cases h : master.1 = secret.key
    · simp [h]
    · simp [h, Ne.symm h]
  cases hkind : secret.holder with
  | webhook =>
      have hdek : secret.holderDek lib s = none := by
        rw [Secret.holderDek, hkind]
      have hread : secret.read lib s =
          some ((decryptCredential lib s.settings secret.ciphertext).getD secret.ciphertext) := by
        rw [Secret.read, hkind]
        rfl
      have hne := ciphertext_ne_plaintext hsound hmade nonce.2 rfl
      rw [← hcipher] at hne
      rw [hdek, hread, hmaster]
      -- where decryption fails, the ciphertext itself is returned
      by_cases h : master.1 = secret.key
      · simp [h]
      · simp [h, Ne.symm h, hne]
  | user userId =>
      obtain ⟨user, hget⟩ := Option.ne_none_iff_exists'.mp (hholder userId hkind)
      have hdekEq : secret.holderDek lib s = userDek lib s.settings user := by
        rw [Secret.holderDek, hkind]
        simp only [hget, Option.bind_some]
      have hread : secret.read lib s =
          decryptCredentialForUser lib s.settings user secret.ciphertext := by
        rw [Secret.read, hkind]
        simp only [hget, Option.bind_some]
      rw [hread, hdekEq]
      rcases (hinv.users user (Table.get?_mem hget).1).dek hsound hinv.settings with
        ⟨-, hnone, hdek⟩ | ⟨dek, wrapped, -, hwrapped, -, hunwrap, hkey⟩
      · rw [hdek, decryptCredentialForUser, hnone]
        simpa using hmaster'
      · have hopen := open_of_sound hsound hmade nonce.2 hkey
        have hdek : userDek lib s.settings user = some dek.1 := by
          rw [userDek, hwrapped, Option.bind_some, hunwrap]
        have hraw := decode_token lib ⟨secret.key, nonce, Bytes.utf8 secret.plaintext⟩
        rw [← hcipher] at hraw
        rw [hdek, decryptCredentialForUser, hwrapped]
        simp only [hunwrap, aesgcm_urandom, hraw, hopen, Option.bind_eq_bind, Option.bind_some]
        by_cases h : dek.1 = secret.key
        · simp [h, Bytes.utf8?_utf8]
        · simpa [h] using hmaster'

/-! ## Steps -/

theorem step_eq_some {s t : State} {l : Label} (h : step lib s l = some t) :
    ∃ t₀, operate lib s l = some t₀ ∧
      t = { t₀ with made := s.made ++ encryptions lib s l, keys := s.keys ++ newKeys l } := by
  obtain ⟨t₀, hop, ht⟩ := Option.map_eq_some_iff.mp h
  exact ⟨t₀, hop, ht.symm⟩

/-- The history variables only grow. -/
def Grows (s t : State) : Prop :=
  s.made ⊆ t.made ∧ s.keys ⊆ t.keys

theorem Grows.refl (s : State) : Grows s s := ⟨List.Subset.refl _, List.Subset.refl _⟩

theorem Grows.trans {s t u : State} (h₁ : Grows s t) (h₂ : Grows t u) : Grows s u :=
  ⟨List.Subset.trans h₁.1 h₂.1, List.Subset.trans h₁.2 h₂.2⟩

theorem step_grows {s t : State} {l : Label} (h : step lib s l = some t) : Grows s t := by
  obtain ⟨t₀, -, rfl⟩ := step_eq_some h
  exact ⟨List.subset_append_left _ _, List.subset_append_left _ _⟩

theorem UserOk.mono {s t : State} {master : Urandom 32} {user : User} (hgrows : Grows s t)
    (h : UserOk lib s master user) : UserOk lib t master user := by
  rcases h with hnone | ⟨dek, nonce, hwrapped, hmade, hkey⟩
  · exact .inl hnone
  · exact .inr ⟨dek, nonce, hwrapped, hgrows.1 hmade, hgrows.2 hkey⟩

/-- The users are still there, with the data encryption keys they had. -/
def KeepsDeks (lib : Cryptography) (s t : State) : Prop :=
  ∀ userId user, s.users.get? userId = some user →
    ∃ user', t.users.get? userId = some user' ∧
      ∀ dek, userDek lib s.settings user = some dek → userDek lib t.settings user' = some dek

theorem SecretOk.mono {s t : State} {secret : Secret} (hgrows : Grows s t)
    (hkeeps : KeepsDeks lib s t) (h : SecretOk lib s secret) : SecretOk lib t secret := by
  obtain ⟨nonce, hcipher, hmade⟩ := h.sealed
  refine ⟨⟨nonce, hcipher, hgrows.1 hmade⟩, ?_⟩
  intro userId hkind
  obtain ⟨user, hget⟩ := Option.ne_none_iff_exists'.mp (h.holder userId hkind)
  obtain ⟨user', hget', -⟩ := hkeeps userId user hget
  rw [hget']
  exact Option.some_ne_none user'

theorem KeepsDeks.holderDek {s t : State} (h : KeepsDeks lib s t) {secret : Secret} {dek : Bytes}
    (hdek : secret.holderDek lib s = some dek) : secret.holderDek lib t = some dek := by
  unfold Secret.holderDek at hdek ⊢
  split at hdek
  · rename_i userId _
    obtain ⟨user, hget, huser⟩ := Option.bind_eq_some_iff.mp hdek
    obtain ⟨user', hget', hkeeps⟩ := h userId user hget
    simp only [hget', Option.bind_some]
    exact hkeeps dek huser
  · exact absurd hdek (by simp)

/-- A step that leaves the settings and the users as they are. -/
theorem keepsDeks_of_eq {s t : State} (hsettings : t.settings = s.settings)
    (husers : t.users = s.users) : KeepsDeks lib s t := by
  intro userId user hget
  refine ⟨user, by rw [husers]; exact hget, ?_⟩
  intro dek hdek
  rw [hsettings]
  exact hdek

/-- What a step leaves, rotations aside: the same master key, and every secret
that was not there before is under it or under its holder's own key. -/
structure Stored (lib : Cryptography) (s t : State) (master : Urandom 32) : Prop where
  inv : Inv lib t master
  deks : KeepsDeks lib s t
  secrets : ∀ secret ∈ t.secrets, secret ∈ s.secrets ∨
    secret.key = master.1 ∨ secret.holderDek lib t = some secret.key

theorem stored_of {s t : State} {master : Urandom 32} (hinv : Inv lib s master)
    (hgrows : Grows s t) (hsettings : t.settings = s.settings)
    (husers : ∀ user ∈ t.users.rows, UserOk lib t master user) (hdeks : KeepsDeks lib s t)
    (hsecrets : ∀ secret ∈ t.secrets, secret ∈ s.secrets ∨ SecretOk lib t secret ∧
      (secret.key = master.1 ∨ secret.holderDek lib t = some secret.key)) :
    Stored lib s t master := by
  refine ⟨⟨by rw [hsettings]; exact hinv.settings, hgrows.2 hinv.known, husers, ?_⟩, hdeks, ?_⟩
  · intro secret hsecret
    rcases hsecrets secret hsecret with hold | ⟨hok, -⟩
    · exact (hinv.secrets secret hold).mono hgrows hdeks
    · exact hok
  · intro secret hsecret
    exact (hsecrets secret hsecret).imp_right And.right

theorem register_step {s t : State} {master : Urandom 32} {userId : Nat}
    (hinv : Inv lib s master) (h : step lib s (.register userId) = some t) :
    Stored lib s t master := by
  have hgrows := step_grows h
  obtain ⟨t₀, hop, rfl⟩ := step_eq_some h
  simp only [operate, Option.bind_eq_bind, Option.bind_eq_some_iff] at hop
  obtain ⟨users, hinsert, hop⟩ := hop
  obtain rfl := Option.some.inj hop
  refine stored_of hinv hgrows rfl ?_ ?_ fun secret hsecret => .inl hsecret
  · intro user huser
    rw [(Table.insert?_eq_some hinsert).2] at huser
    rcases List.mem_append.mp huser with hold | hnew
    · exact (hinv.users user hold).mono hgrows
    · rw [List.mem_singleton.mp hnew]
      exact .inl rfl
  · intro otherId user hget
    exact ⟨user, Table.get?_insert hinsert hget, fun _ hdek => hdek⟩

theorem getEncryptionKey_bind {settings : Settings} {master : Urandom 32} {α : Type}
    (h : settings.encryptionKey = keyText master) (f : Bytes → Option α) :
    ((getEncryptionKey settings).bind fun key => (aesgcm key).bind f) = f master.1 := by
  rw [getEncryptionKey_keyText h, Option.bind_some, aesgcm_urandom, Option.bind_some]

theorem ensureUserDek_step {s t : State} {master : Urandom 32} {userId : Nat} {dek : Urandom 32}
    {nonce : Urandom gcmNonceBytes} (hinv : Inv lib s master)
    (h : step lib s (.ensureUserDek userId dek nonce) = some t) : Stored lib s t master := by
  have hgrows := step_grows h
  obtain ⟨t₀, hop, rfl⟩ := step_eq_some h
  simp only [operate, Option.bind_eq_bind, Option.bind_eq_some_iff] at hop
  obtain ⟨user, hget, users, hensure, hop⟩ := hop
  obtain rfl := Option.some.inj hop
  obtain rfl : user.id = userId := (Table.get?_mem hget).2
  unfold ensureUserDek at hensure
  split at hensure
  · -- the user has a key already
    obtain rfl := Option.some.inj hensure
    exact stored_of hinv hgrows rfl (fun other hother => (hinv.users other hother).mono hgrows)
      (keepsDeks_of_eq rfl rfl) fun secret hsecret => .inl hsecret
  · rename_i hnone
    have hwrap : wrapDek lib s.settings nonce dek =
        some (Encryption.token lib ⟨master, nonce, dek⟩) :=
      getEncryptionKey_bind hinv.settings _
    rw [hwrap] at hensure
    obtain rfl := Option.some.inj hensure
    have hmade : encryptions lib s (.ensureUserDek user.id dek nonce) =
        [⟨master, nonce, dek⟩] := by
      simp [encryptions, hget, hnone, getEncryptionKey_keyText hinv.settings]
    refine stored_of hinv hgrows rfl ?_ ?_ fun secret hsecret => .inl hsecret
    · intro other hother
      rcases Table.mem_put hother with rfl | ⟨hold, -⟩
      · refine .inr ⟨dek, nonce, rfl, ?_, ?_⟩
        · rw [hmade]
          exact List.mem_append_right _ (List.mem_singleton_self _)
        · exact List.mem_append_right _ (List.mem_singleton_self _)
      · exact (hinv.users other hold).mono hgrows
    · intro otherId other hother
      by_cases hsame : otherId = user.id
      · -- the user itself had no key to keep
        subst hsame
        obtain rfl := Option.some.inj (hget.symm.trans hother)
        refine ⟨_, Table.get?_put hget, fun k hk => ?_⟩
        rw [userDek, hnone] at hk
        exact absurd hk (by simp)
      · exact ⟨other, Table.get?_put_of_ne hsame hother, fun _ hk => hk⟩

theorem aesgcm_eq_some {k key : Bytes} (h : aesgcm k = some key) : key = k := by
  unfold aesgcm at h
  split at h
  · exact (Option.some.inj h).symm
  · exact absurd h (by simp)

/-- A credential is encrypted under the key that `credentialKey` names. -/
theorem encryptCredentialForUser_eq {settings : Settings} {user : User}
    {nonce : Urandom gcmNonceBytes} {plaintext ciphertext : String} {key : Bytes}
    (h : encryptCredentialForUser lib settings user nonce plaintext = some ciphertext)
    (hkey : credentialKey lib settings user = some key) :
    ciphertext = Encryption.token lib ⟨key, nonce, Bytes.utf8 plaintext⟩ := by
  unfold encryptCredentialForUser at h
  unfold credentialKey at hkey
  split at h
  · rename_i hwrapped
    simp only [hwrapped] at hkey
    simp only [hkey, Option.bind_eq_bind, Option.bind_some, Option.bind_eq_some_iff] at h
    obtain ⟨k, hk, h⟩ := h
    rw [aesgcm_eq_some hk] at h
    exact (Option.some.inj h).symm
  · rename_i hwrapped
    simp only [hwrapped] at hkey
    simp only [encryptCredential, hkey, Option.bind_eq_bind, Option.bind_some,
      Option.bind_eq_some_iff] at h
    obtain ⟨k, hk, h⟩ := h
    rw [aesgcm_eq_some hk] at h
    exact (Option.some.inj h).symm

theorem encryptCredential_step {s t : State} {master : Urandom 32} {userId : Nat}
    {plaintext : String} {nonce : Urandom gcmNonceBytes} (hinv : Inv lib s master)
    (h : step lib s (.encryptCredential userId plaintext nonce) = some t) :
    Stored lib s t master := by
  have hgrows := step_grows h
  obtain ⟨t₀, hop, rfl⟩ := step_eq_some h
  simp only [operate, Option.bind_eq_bind, Option.bind_eq_some_iff] at hop
  obtain ⟨user, hget, ciphertext, hencrypt, key, hkey, hop⟩ := hop
  obtain rfl := Option.some.inj hop
  have hmade : encryptions lib s (.encryptCredential userId plaintext nonce) =
      [⟨key, nonce, Bytes.utf8 plaintext⟩] := by
    simp [encryptions, hget, hkey]
  have hcipher := encryptCredentialForUser_eq hencrypt hkey
  refine stored_of hinv hgrows rfl (fun other hother => (hinv.users other hother).mono hgrows)
    (keepsDeks_of_eq rfl rfl) ?_
  intro secret hsecret
  rcases List.mem_append.mp hsecret with hold | hnew
  · exact .inl hold
  · obtain rfl := List.mem_singleton.mp hnew
    refine .inr ⟨⟨⟨nonce, hcipher, ?_⟩, ?_⟩, ?_⟩
    · rw [hmade]
      exact List.mem_append_right _ (List.mem_singleton_self _)
    · intro otherId hkind
      obtain rfl := Holder.user.inj hkind
      rw [hget]
      exact Option.some_ne_none user
    · -- without a key of the user's own it is the master key
      unfold credentialKey at hkey
      split at hkey
      · rename_i hwrapped
        right
        simp only [Secret.holderDek, hget, Option.bind_some, userDek, hwrapped, hkey]
      · left
        exact Option.some.inj (hkey.symm.trans (getEncryptionKey_keyText hinv.settings))

theorem encryptWebhookSecret_step {s t : State} {master : Urandom 32} {plaintext : String}
    {nonce : Urandom gcmNonceBytes} (hinv : Inv lib s master)
    (h : step lib s (.encryptWebhookSecret plaintext nonce) = some t) :
    Stored lib s t master := by
  have hgrows := step_grows h
  obtain ⟨t₀, hop, rfl⟩ := step_eq_some h
  simp only [operate, Option.bind_eq_bind, Option.bind_eq_some_iff] at hop
  obtain ⟨ciphertext, hencrypt, key, hkey, hop⟩ := hop
  obtain rfl := Option.some.inj hop
  obtain rfl := Option.some.inj (hkey.symm.trans (getEncryptionKey_keyText hinv.settings))
  have hmade : encryptions lib s (.encryptWebhookSecret plaintext nonce) =
      [⟨master, nonce, Bytes.utf8 plaintext⟩] := by
    simp [encryptions, hkey]
  have hcipher : some ciphertext =
      some (Encryption.token lib ⟨master, nonce, Bytes.utf8 plaintext⟩) :=
    hencrypt.symm.trans (getEncryptionKey_bind hinv.settings _)
  refine stored_of hinv hgrows rfl (fun other hother => (hinv.users other hother).mono hgrows)
    (keepsDeks_of_eq rfl rfl) ?_
  intro secret hsecret
  rcases List.mem_append.mp hsecret with hold | hnew
  · exact .inl hold
  · obtain rfl := List.mem_singleton.mp hnew
    refine .inr ⟨⟨⟨nonce, Option.some.inj hcipher, ?_⟩, ?_⟩, .inl rfl⟩
    · rw [hmade]
      exact List.mem_append_right _ (List.mem_singleton_self _)
    · intro otherId hkind
      exact absurd hkind (by simp)

/-! ## Rotation -/

/-- What one user's row becomes. -/
theorem rewrapUser_ok {s : State} {master newKey : Urandom 32}
    {nonces : Nat → Urandom gcmNonceBytes} {user user' : User}
    (hsound : Sound lib s.made s.keys) (hsettings : s.settings.encryptionKey = keyText master)
    (hok : UserOk lib s master user)
    (h : rewrapUser lib master newKey nonces user = some user') :
    (user'.encryptedDek = none ∧ userDek lib s.settings user = none) ∨
      ∃ dek : Urandom 32, user'.encryptedDek =
          some (Encryption.token lib ⟨newKey, nonces user.id, dek⟩) ∧
        user.encryptedDek.bind (unwrapKeySync lib s.settings) = some dek.1 ∧
        userDek lib s.settings user = some dek.1 ∧ dek.1 ∈ s.keys := by
  rcases hok.dek hsound hsettings with
    ⟨hnone, -, hdek⟩ | ⟨dek, wrapped, hencrypted, hwrapped, hsync, hunwrap, hkey⟩
  · simp only [rewrapUser, hnone] at h
    obtain rfl := Option.some.inj h
    exact .inl ⟨hnone, hdek⟩
  · refine .inr ⟨dek, ?_, ?_, ?_, hkey⟩
    · simp only [rewrapUser, hencrypted, Option.bind_eq_bind, Option.bind_eq_some_iff] at h
      obtain ⟨raw, hraw, dek', hopen, h⟩ := h
      -- unwrapping reads the same bytes with the same key
      have hsame : some dek' = some dek.1 := by
        rw [← hsync, unwrapKeySync, hraw]
        exact hopen.symm.trans
          (getEncryptionKey_bind hsettings fun key => openBytes lib key raw).symm
      obtain rfl := Option.some.inj h
      rw [Option.some.inj hsame]
      rfl
    · rw [hencrypted, Option.bind_some, hsync]
    · rw [userDek, hwrapped, Option.bind_some, hunwrap]

theorem rotate_eq_some {s t : State} {master newKey : Urandom 32}
    {nonces : Nat → Urandom gcmNonceBytes} (hsettings : s.settings.encryptionKey = keyText master)
    (h : step lib s (.rotate newKey nonces) = some t) :
    t.settings.encryptionKey = keyText newKey ∧
      s.users.rewrite? (rewrapUser lib master newKey nonces) (fun _ _ => rewrapUser_id lib) =
        some t.users ∧
      t.secrets = s.secrets ∧ t.made = s.made ++ encryptions lib s (.rotate newKey nonces) ∧
      t.keys = s.keys ++ [newKey.1] := by
  obtain ⟨t₀, hop, rfl⟩ := step_eq_some h
  simp only [operate, Option.bind_eq_bind, Option.bind_eq_some_iff] at hop
  obtain ⟨users, hrotate, hop⟩ := hop
  obtain rfl := Option.some.inj hop
  refine ⟨rfl, ?_, rfl, rfl, rfl⟩
  rw [← hrotate]
  simp [rotateMasterKey, hsettings, keyText, Bytes.urlsafeB64decode_urlsafeB64encode,
    aesgcm_urandom]

/-- A rotation leaves the secrets and their holders' keys, under a new master
key. -/
theorem rotate_step {s t : State} {master newKey : Urandom 32}
    {nonces : Nat → Urandom gcmNonceBytes} (hinv : Inv lib s master)
    (hsound : Sound lib t.made t.keys) (h : step lib s (.rotate newKey nonces) = some t) :
    Inv lib t newKey ∧ t.secrets = s.secrets ∧
      ∀ secret ∈ s.secrets, secret.holderDek lib t = secret.holderDek lib s := by
  have hgrows := step_grows h
  have hsoundBefore : Sound lib s.made s.keys := hsound.mono hgrows.1 hgrows.2
  obtain ⟨hsettings, hrewrite, hsecrets, hmade, hkeys⟩ := rotate_eq_some hinv.settings h
  -- every row keeps its key, wrapped anew
  have hrow : ∀ user ∈ s.users.rows, ∀ user',
      rewrapUser lib master newKey nonces user = some user' →
        UserOk lib t newKey user' ∧ userDek lib t.settings user' = userDek lib s.settings user := by
    intro user huser user' hrewrap
    rcases rewrapUser_ok hsoundBefore hinv.settings (hinv.users user huser) hrewrap with
      ⟨hnone, hdek⟩ | ⟨dek, hwrapped, hsync, hdek, hkey⟩
    · exact ⟨.inl hnone, by rw [hdek]; simp [userDek, User.wrapped, hnone]⟩
    · have hmem : ⟨newKey, nonces user.id, dek⟩ ∈ t.made := by
        rw [hmade]
        refine List.mem_append_right _ (List.mem_filterMap.mpr ⟨user, huser, ?_⟩)
        rw [hsync]
        rfl
      obtain ⟨-, hdek'⟩ := userDek_token hsound hmem hsettings hwrapped
      exact ⟨.inr ⟨dek, nonces user.id, hwrapped, hmem, hgrows.2 hkey⟩, hdek'.trans hdek.symm⟩
  have hget : ∀ userId user, s.users.get? userId = some user → ∃ user',
      t.users.get? userId = some user' ∧
        userDek lib t.settings user' = userDek lib s.settings user := by
    intro userId user hget
    obtain ⟨user', hrewrap, hget'⟩ := Table.get?_rewrite hrewrite hget
    exact ⟨user', hget', (hrow user (Table.get?_mem hget).1 user' hrewrap).2⟩
  have hdeks : KeepsDeks lib s t := by
    intro userId user huser
    obtain ⟨user', hget', hdek⟩ := hget userId user huser
    exact ⟨user', hget', fun k hk => hdek.trans hk⟩
  refine ⟨⟨hsettings, ?_, ?_, ?_⟩, hsecrets, ?_⟩
  · rw [hkeys]
    exact List.mem_append_right _ (List.mem_singleton_self _)
  · intro user' huser'
    obtain ⟨user, huser, hrewrap⟩ := (Table.rewrite?_eq_some hrewrite).2 user' huser'
    exact (hrow user huser user' hrewrap).1
  · intro secret hsecret
    rw [hsecrets] at hsecret
    exact (hinv.secrets secret hsecret).mono hgrows hdeks
  · intro secret hsecret
    cases hkind : secret.holder with
    | webhook => simp only [Secret.holderDek, hkind]
    | user userId =>
        obtain ⟨user, huser⟩ :=
          Option.ne_none_iff_exists'.mp ((hinv.secrets secret hsecret).holder userId hkind)
        obtain ⟨user', hget', hdek⟩ := hget userId user huser
        simp only [Secret.holderDek, hkind, huser, hget', Option.bind_some, hdek]

/-! ## Every history -/

theorem readable_iff {s : State} {master : Urandom 32} (hsound : Sound lib s.made s.keys)
    (hinv : Inv lib s master) :
    Readable lib s ↔
      ∀ secret ∈ s.secrets, secret.key = master.1 ∨ secret.holderDek lib s = some secret.key :=
  forall₂_congr fun _ hmem => read_iff hsound hinv hmem

/-- A step keeps the invariant, and keeps every secret readable exactly when it
meets the condition. -/
theorem step_readable_iff {s t : State} {l : Label} {master : Urandom 32}
    (hinv : Inv lib s master) (hsound : Sound lib t.made t.keys) (hread : Readable lib s)
    (h : step lib s l = some t) : Readable lib t ↔ NoneUnderMaster lib s l := by
  have hgrows := step_grows h
  have hkeys := (readable_iff (hsound.mono hgrows.1 hgrows.2) hinv).mp hread
  -- outside rotations the old secrets stay where they are
  have hstored : Stored lib s t master → Readable lib t := by
    intro hstored
    refine (readable_iff hsound hstored.inv).mpr ?_
    intro secret hsecret
    rcases hstored.secrets secret hsecret with hold | hnew
    · exact (hkeys secret hold).imp_right hstored.deks.holderDek
    · exact hnew
  cases l with
  | register userId => exact iff_of_true (hstored (register_step hinv h)) trivial
  | ensureUserDek userId dek nonce =>
      exact iff_of_true (hstored (ensureUserDek_step hinv h)) trivial
  | encryptCredential userId plaintext nonce =>
      exact iff_of_true (hstored (encryptCredential_step hinv h)) trivial
  | encryptWebhookSecret secret nonce =>
      exact iff_of_true (hstored (encryptWebhookSecret_step hinv h)) trivial
  | rotate newKey nonces =>
      obtain ⟨hinv', hsecrets, hdeks⟩ := rotate_step hinv hsound h
      rw [readable_iff hsound hinv', hsecrets]
      exact forall₂_congr fun secret hmem => by rw [hdeks secret hmem]

theorem step_inv {s t : State} {l : Label} {master : Urandom 32} (hinv : Inv lib s master)
    (hsound : Sound lib t.made t.keys) (h : step lib s l = some t) :
    ∃ master', Inv lib t master' := by
  cases l with
  | register userId => exact ⟨master, (register_step hinv h).inv⟩
  | ensureUserDek userId dek nonce => exact ⟨master, (ensureUserDek_step hinv h).inv⟩
  | encryptCredential userId plaintext nonce => exact ⟨master, (encryptCredential_step hinv h).inv⟩
  | encryptWebhookSecret secret nonce => exact ⟨master, (encryptWebhookSecret_step hinv h).inv⟩
  | rotate newKey nonces => exact ⟨newKey, (rotate_step hinv hsound h).1⟩

/-- In every state of a history every stored secret is read back as it was,
exactly when every rotation of the history found none that was encrypted under
a master key other than the new one. -/
theorem secrets_readable_iff {key : Urandom 32} {tr : List Label} {u : State}
    (h : run lib key tr = some u) (hsound : Sound lib u.made u.keys) :
    (∀ before after t, tr = before ++ after → run lib key before = some t → Readable lib t) ↔
      Runs.Along (step lib) (NoneUnderMaster lib) (start key) tr := by
  have hends : Runs.Along (step lib) (fun s l => ∀ t, step lib s l = some t → Grows t u)
      (start key) tr :=
    Runs.along_relation Grows.refl (fun _ _ _ => Grows.trans) (fun _ _ _ => step_grows) h
  refine Runs.always_iff_along_of (I := fun s => ∃ master, Inv lib s master) ?_ ?_
    ⟨key, init_inv key⟩ (by simp [Readable, start]) hends h
  · rintro s l t ⟨master, hinv⟩ hgrows hl
    exact step_inv hinv (hsound.mono (hgrows t hl).1 (hgrows t hl).2) hl
  · rintro s l t ⟨master, hinv⟩ hgrows hread hl
    exact step_readable_iff hinv (hsound.mono (hgrows t hl).1 (hgrows t hl).2) hread hl

/-! ## A lost password and a kept one -/

def firstKey : Urandom 32 := ⟨List.replicate 32 1, rfl⟩

def secondKey : Urandom 32 := ⟨List.replicate 32 2, rfl⟩

def dek : Urandom 32 := ⟨List.replicate 32 3, rfl⟩

def nonce (n : UInt8) : Urandom gcmNonceBytes := ⟨List.replicate gcmNonceBytes n, rfl⟩

/-- AES-256-GCM on what the two histories below encrypt. -/
def knownAnswers : List (Encryption × Bytes) :=
  [
    (⟨firstKey, nonce 1, Bytes.utf8 "hunter2"⟩,
      [218, 12, 212, 238, 12, 133, 55, 254, 242, 255, 22, 165, 1, 193, 64, 119, 242, 212, 188, 146,
      173, 144, 144]),
    (⟨firstKey, nonce 2, dek⟩,
      [4, 213, 202, 74, 73, 84, 194, 254, 208, 207, 191, 203, 95, 164, 193, 177, 161, 182, 210,
      236, 232, 178, 142, 114, 222, 132, 227, 248, 123, 248, 119, 124, 177, 34, 214, 188, 249,
      188, 102, 91, 50, 231, 241, 64, 165, 111, 223, 163]),
    (⟨firstKey, nonce 3, Bytes.utf8 "whsec_test"⟩,
      [143, 9, 103, 255, 156, 219, 67, 12, 222, 136, 161, 192, 55, 72, 228, 195, 60, 244, 190, 100,
      174, 159, 35, 100, 145, 18]),
    (⟨secondKey, nonce 4, dek⟩,
      [7, 79, 210, 13, 253, 72, 147, 89, 158, 93, 212, 227, 181, 64, 26, 165, 24, 177, 218, 202,
      129, 40, 152, 120, 189, 193, 59, 218, 200, 184, 10, 218, 78, 106, 170, 120, 77, 166, 37,
      225, 11, 112, 1, 100, 229, 86, 71, 244]),
    (⟨dek, nonce 5, Bytes.utf8 "hunter2"⟩,
      [126, 87, 177, 16, 215, 174, 37, 217, 19, 159, 42, 151, 64, 59, 106, 203, 75, 167, 142, 216,
      170, 218, 65])
  ]

/-- The package, as far as the known answers go. -/
def knownCryptography : Cryptography where
  encrypt key nonce data := (knownAnswers.lookup ⟨key, nonce, data⟩).getD []
  decrypt key nonce data :=
    (knownAnswers.find? fun a => a.1.key == key && a.1.nonce == nonce && a.2 == data).map
      (·.1.data)
  fernetDecrypt _ _ := none

/-- What the two histories encrypt, and their keys. -/
theorem knownCryptography_sound :
    Sound knownCryptography (knownAnswers.map Prod.fst) [firstKey, secondKey, dek] where
  length := by decide +kernel
  sameKey := by decide +kernel
  otherKey := by decide +kernel
  fernet _ _ _ _ := rfl

/-- A password stored before its user had a key, and a webhook secret; then
the master key is rotated. -/
def storedUnderMaster : List Label :=
  [.register 7, .encryptCredential 7 "hunter2" (nonce 1), .ensureUserDek 7 dek (nonce 2),
    .encryptWebhookSecret "whsec_test" (nonce 3), .rotate secondKey fun _ => nonce 4]

/-- What these two histories leave. -/
def leaves (tr : List Label) (reads : List (String × Option String)) : Bool :=
  (run knownCryptography firstKey tr).any fun u =>
    u.made.all (fun e => (knownAnswers.map Prod.fst).contains e) &&
      u.keys.all (fun key => [firstKey.1, secondKey.1, dek.1].contains key) &&
      u.secrets.map (fun secret => (secret.plaintext, secret.read knownCryptography u)) == reads

theorem leaves_eq_true {tr : List Label} {reads : List (String × Option String)}
    (h : leaves tr reads = true) :
    ∃ u, run knownCryptography firstKey tr = some u ∧ Sound knownCryptography u.made u.keys ∧
      u.secrets.map (fun secret => (secret.plaintext, secret.read knownCryptography u)) =
        reads := by
  obtain ⟨u, hrun, hcheck⟩ := (Option.any_eq_true _ _).mp h
  simp only [Bool.and_eq_true, List.all_eq_true, List.contains_iff_mem, beq_iff_eq] at hcheck
  obtain ⟨⟨hmade, hkeys⟩, hreads⟩ := hcheck
  exact ⟨u, hrun, knownCryptography_sound.mono hmade hkeys, hreads⟩

/-- The password cannot be decrypted any more, and the webhook secret comes
back as its own ciphertext. -/
theorem storedUnderMaster_lost :
    ∃ u, run knownCryptography firstKey storedUnderMaster = some u ∧
      Sound knownCryptography u.made u.keys ∧
      u.secrets.map (fun secret => (secret.plaintext, secret.read knownCryptography u)) =
        [("hunter2", none),
          ("whsec_test", some "AwMDAwMDAwMDAwMDjwln_5zbQwzeiKHAN0jkwzz0vmSunyNkkRI=")] ∧
      ¬ Readable knownCryptography u := by
  have hleaves : leaves storedUnderMaster [("hunter2", none),
      ("whsec_test", some "AwMDAwMDAwMDAwMDjwln_5zbQwzeiKHAN0jkwzz0vmSunyNkkRI=")] = true := by
    decide +kernel
  obtain ⟨u, hrun, hsound, hreads⟩ := leaves_eq_true hleaves
  refine ⟨u, hrun, hsound, hreads, ?_⟩
  intro hreadable
  have hmem : ("hunter2", none) ∈ u.secrets.map fun secret =>
      (secret.plaintext, secret.read knownCryptography u) := by
    rw [hreads]
    exact List.mem_cons_self
  obtain ⟨secret, hsecret, heq⟩ := List.mem_map.mp hmem
  obtain ⟨-, hnone⟩ := Prod.mk.inj heq
  exact absurd ((hreadable secret hsecret).symm.trans hnone) (by simp)

/-- The same password stored after its user has a key. -/
def storedUnderDek : List Label :=
  [.register 7, .ensureUserDek 7 dek (nonce 2), .encryptCredential 7 "hunter2" (nonce 5),
    .rotate secondKey fun _ => nonce 4]

theorem storedUnderDek_readable :
    ∃ u, run knownCryptography firstKey storedUnderDek = some u ∧
      u.secrets.map (·.plaintext) = ["hunter2"] ∧ Readable knownCryptography u := by
  have hleaves : leaves storedUnderDek [("hunter2", some "hunter2")] = true := by
    decide +kernel
  obtain ⟨u, hrun, hsound, hreads⟩ := leaves_eq_true hleaves
  refine ⟨u, hrun, ?_, (secrets_readable_iff hrun hsound).mpr ?_ storedUnderDek [] u (by simp) hrun⟩
  · have hplain := congrArg (List.map Prod.fst) hreads
    simpa [Function.comp_def] using hplain
  · decide +kernel

end Plaidify.Envelope
