import Plaidify.Lib.Base64
import Plaidify.Lib.Table

/-!
# Envelope encryption

The encryption functions of `src/src/database.py` with the local provider of
`src/src/kms.py`, and the two webhook functions of
`src/src/routers/webhooks.py`. A function that raises returns `none`.

AES-GCM and Fernet come from the `cryptography` package and are parameters.
What `os.urandom` returns is an argument.
-/

namespace Plaidify.Envelope

/-- What `os.urandom(n)` returns. -/
abbrev Urandom (n : Nat) := { bytes : Bytes // bytes.length = n }

/-- The `cryptography` package. -/
structure Cryptography where
  /-- `AESGCM(key).encrypt(nonce, data, None)`. -/
  encrypt : (key nonce data : Bytes) → Bytes
  /-- `AESGCM(key).decrypt(nonce, data, None)`. -/
  decrypt : (key nonce data : Bytes) → Option Bytes
  /-- `Fernet(key).decrypt(token.encode()).decode()`. -/
  fernetDecrypt : (key token : String) → Option String

structure Settings where
  encryptionKey : String
  encryptionKeyPrevious : Option String := none
  encryptionKeyVersion : Nat := 1

/-- A row of `users`. -/
structure User where
  id : Nat
  encryptedDek : Option String := none
deriving Repr, DecidableEq

/-- `if user.encrypted_dek:`. -/
def User.wrapped (user : User) : Option String :=
  user.encryptedDek.filter (· ≠ "")

/-! ## The master key -/

def gcmNonceBytes : Nat := 12

/-- `_get_encryption_key`. -/
def getEncryptionKey (settings : Settings) : Option Bytes := do
  let keyBytes ← Bytes.urlsafeB64decode settings.encryptionKey
  if keyBytes.length ≠ 32 ∧ keyBytes.length ≠ 44 then none
  -- a key of the old Fernet format is refused
  else if keyBytes.length = 44 then none
  else some keyBytes

/-- `AESGCM(key)`, which checks the length of the key. -/
def aesgcm (key : Bytes) : Option Bytes :=
  if key.length = 16 ∨ key.length = 24 ∨ key.length = 32 then some key else none

section

variable (lib : Cryptography)

/-- `nonce‖ciphertext‖tag` in base64url. -/
def sealBytes (key nonce data : Bytes) : String :=
  Bytes.urlsafeB64encode (nonce ++ lib.encrypt key nonce data)

/-- Decrypt `nonce‖ciphertext‖tag`. -/
def openBytes (key raw : Bytes) : Option Bytes :=
  lib.decrypt key (raw.take gcmNonceBytes) (raw.drop gcmNonceBytes)

/-- `encrypt_credential`. -/
def encryptCredential (settings : Settings) (nonce : Urandom gcmNonceBytes) (plaintext : String) :
    Option String := do
  let key ← getEncryptionKey settings
  let key ← aesgcm key
  return sealBytes lib key nonce (Bytes.utf8 plaintext)

/-- `decrypt_credential`. -/
def decryptCredential (settings : Settings) (ciphertext : String) : Option String := do
  let raw ← Bytes.urlsafeB64decode ciphertext
  let plaintext := if gcmNonceBytes < raw.length then do
      let key ← getEncryptionKey settings
      let key ← aesgcm key
      let data ← openBytes lib key raw
      Bytes.utf8? data
    else none
  -- legacy Fernet fallback
  plaintext <|> lib.fernetDecrypt settings.encryptionKey ciphertext

/-! ## Data encryption keys -/

/-- `wrap_dek`. -/
def wrapDek (settings : Settings) (nonce : Urandom gcmNonceBytes) (dek : Bytes) :
    Option String := do
  let key ← getEncryptionKey settings
  let key ← aesgcm key
  return sealBytes lib key nonce dek

/-- `LocalKMSProvider.unwrap_key_sync`. -/
def unwrapKeySync (settings : Settings) (wrappedDek : String) : Option Bytes := do
  let raw ← Bytes.urlsafeB64decode wrappedDek
  let key ← getEncryptionKey settings
  let key ← aesgcm key
  openBytes lib key raw

/-- `unwrap_dek`, which alone tries the previous master key. -/
def unwrapDek (settings : Settings) (wrappedDek : String) : Option Bytes :=
  unwrapKeySync lib settings wrappedDek <|> do
    let prev ← settings.encryptionKeyPrevious.filter (· ≠ "")
    let raw ← Bytes.urlsafeB64decode wrappedDek
    let prevBytes ← Bytes.urlsafeB64decode prev
    let key ← aesgcm prevBytes
    openBytes lib key raw

/-- `encrypt_credential_for_user`. -/
def encryptCredentialForUser (settings : Settings) (user : User) (nonce : Urandom gcmNonceBytes)
    (plaintext : String) : Option String :=
  match user.wrapped with
  | some wrapped => do
      let dek ← unwrapDek lib settings wrapped
      let key ← aesgcm dek
      return sealBytes lib key nonce (Bytes.utf8 plaintext)
  | none => encryptCredential lib settings nonce plaintext

/-- `decrypt_credential_for_user`. -/
def decryptCredentialForUser (settings : Settings) (user : User) (ciphertext : String) :
    Option String :=
  match user.wrapped with
  | some wrapped => do
      let dek ← unwrapDek lib settings wrapped
      let key ← aesgcm dek
      let raw ← Bytes.urlsafeB64decode ciphertext
      (openBytes lib key raw).bind Bytes.utf8? <|> decryptCredential lib settings ciphertext
  | none => decryptCredential lib settings ciphertext

/-- `ensure_user_dek`, with the user's row in the table. -/
def ensureUserDek (settings : Settings) (users : Table User User.id) (user : User)
    (dek : Urandom 32) (nonce : Urandom gcmNonceBytes) : Option (Table User User.id) :=
  match user.wrapped with
  | some _ => some users
  | none => do
      let wrapped ← wrapDek lib settings nonce dek
      return users.put { user with encryptedDek := some wrapped }

/-! ## Rotation -/

/-- One user in the loop of `rotate_master_key`. -/
def rewrapUser (oldKey newKey : Bytes) (nonces : Nat → Urandom gcmNonceBytes) (user : User) :
    Option User :=
  match user.encryptedDek with
  | none => some user
  | some wrapped => do
      let raw ← Bytes.urlsafeB64decode wrapped
      let dek ← openBytes lib oldKey raw
      return { user with encryptedDek := some (sealBytes lib newKey (nonces user.id) dek) }

theorem rewrapUser_id {oldKey newKey : Bytes} {nonces : Nat → Urandom gcmNonceBytes}
    {user user' : User} (h : rewrapUser lib oldKey newKey nonces user = some user') :
    user'.id = user.id := by
  unfold rewrapUser at h
  split at h
  · rw [← Option.some.inj h]
  · simp only [Option.bind_eq_bind, Option.bind_eq_some_iff] at h
    obtain ⟨raw, -, dek, -, h⟩ := h
    rw [← Option.some.inj h]

/-- `rotate_master_key`; an exception leaves the table as it was. -/
def rotateMasterKey (oldKey newKey : String) (users : Table User User.id)
    (nonces : Nat → Urandom gcmNonceBytes) : Option (Table User User.id) := do
  let oldKeyBytes ← Bytes.urlsafeB64decode oldKey
  let newKeyBytes ← Bytes.urlsafeB64decode newKey
  let oldAesgcm ← aesgcm oldKeyBytes
  let newAesgcm ← aesgcm newKeyBytes
  users.rewrite? (rewrapUser lib oldAesgcm newAesgcm nonces) fun _ _ => rewrapUser_id lib

/-! ## Webhook secrets -/

/-- `_encrypt_webhook_secret`. -/
def encryptWebhookSecret (settings : Settings) (nonce : Urandom gcmNonceBytes) (secret : String) :
    Option String :=
  encryptCredential lib settings nonce secret

/-- `_decrypt_webhook_secret`: what cannot be decrypted is taken for a secret
stored in plain text. -/
def decryptWebhookSecret (settings : Settings) (storedSecret : String) : String :=
  (decryptCredential lib settings storedSecret).getD storedSecret

end

end Plaidify.Envelope
