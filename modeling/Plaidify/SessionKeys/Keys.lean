import Plaidify.Lib.Base64
import Plaidify.Lib.Keyspace
import Plaidify.Lib.Runs
import Plaidify.Lib.Table
import Plaidify.Principals.Auth

/-!
# Ephemeral session keys

The key store of `src/src/crypto.py` and `resolve_credentials` of
`src/src/dependencies.py`. A private key is kept in Redis, or in the memory of
the process where Redis is out of reach when the key is made. How Redis does is
part of every call: whether a client is obtained, and how its command ends.

Times are in milliseconds.
-/

namespace Plaidify.SessionKeys

open Principals (HttpError)

/-- `_KEY_TTL_SECONDS`. -/
def keyTtl : Nat := 600 * 1000

/-! ## Redis, as a call finds it -/

/-- What `_get_redis` returns. -/
inductive Client where
  | connected
  /-- `None`: no `redis_url`, or no connection. -/
  | unavailable
  /-- The `RuntimeError` of a production deployment without a connection. -/
  | required
deriving Repr, DecidableEq

/-- How the command of a call ends. -/
inductive Reply where
  | done
  /-- It raises, and nothing has happened. -/
  | failed
  /-- It raises, although Redis has carried it out. -/
  | lost
deriving Repr, DecidableEq

structure Answer where
  client : Client
  reply : Reply
deriving Repr, DecidableEq

namespace Answer

/-- Redis carries out the command. -/
def executes (a : Answer) : Bool := a.client == .connected && a.reply != .failed

/-- The command returns. -/
def replies (a : Answer) : Bool := a.client == .connected && a.reply == .done

end Answer

/-! ## The keys -/

structure PrivateKey where
  /-- The number of keys made before this one. -/
  serial : Nat
  /-- History variable. -/
  generatedAt : Nat
deriving Repr, DecidableEq

/-- An entry of `_key_store`. -/
structure StoredKey where
  linkToken : String
  key : PrivateKey
  createdAt : Nat
deriving Repr, DecidableEq

/-- A call of `decrypt_with_session_key` that has succeeded. -/
structure Opened where
  linkToken : String
  key : PrivateKey
  time : Nat
  /-- The number of keys made before the last `destroy_session_key` of the token. -/
  destroyed : Nat
deriving Repr, DecidableEq

structure State where
  now : Nat
  redis : Keyspace String PrivateKey
  keyStore : Table StoredKey StoredKey.linkToken
  generated : Nat
  /-- History variable: the number of keys that had been made when the key of a
  token was last to be destroyed. -/
  destroyed : String → Nat
  /-- History variable. -/
  opened : List Opened

/-- A `ValueError` with its text, or the `RuntimeError` of `_get_redis`. -/
inductive KeyError where
  | value (text : String)
  | runtime
deriving Repr, DecidableEq

/-- `generate_keypair`. -/
def generateKeypair (s : State) (a : Answer) (linkToken : String) : State :=
  let key : PrivateKey := ⟨s.generated, s.now⟩
  if a.client = .required then s
  else
    -- where only the reply is lost, both stores have the key
    { s with
      generated := s.generated + 1
      redis := if a.executes then s.redis.set linkToken key (s.now + keyTtl) else s.redis
      keyStore := if a.replies then s.keyStore else s.keyStore.set ⟨linkToken, key, s.now⟩ }

/-- The key that Redis answers with. -/
def redisKey (s : State) (a : Answer) (linkToken : String) : Option PrivateKey :=
  if a.replies then s.redis.get s.now linkToken else none

/-- `_get_private_key`. -/
def getPrivateKey (s : State) (a : Answer) (linkToken : String) :
    Except KeyError (Option PrivateKey) :=
  if a.client = .required then .error .runtime
  else
    match redisKey s a linkToken with
    | some key => .ok (some key)
    -- the age of the entry is not looked at
    | none => .ok ((s.keyStore.get? linkToken).map (·.key))

/-- `destroy_session_key`. In production without a connection it raises before
it gets to the memory. -/
def destroySessionKey (s : State) (a : Answer) (linkToken : String) : State :=
  let called :=
    { s with destroyed := fun token => if token = linkToken then s.generated else s.destroyed token }
  if a.client = .required then called
  else
    -- the exception of the DEL is swallowed
    { called with
      redis := if a.executes then s.redis.delete linkToken else s.redis
      keyStore := s.keyStore.delete (·.linkToken == linkToken) }

/-- `cleanup_expired_keys`, with the number of keys that it purges. -/
def cleanupExpiredKeys (s : State) : Nat × State :=
  let old : StoredKey → Bool := fun e => decide (e.createdAt + keyTtl < s.now)
  (s.keyStore.rows.countP old, { s with keyStore := s.keyStore.delete old })

section

/- RSA-OAEP with the private key of this number, and `bytes.decode`; `none`
where either raises. -/
variable (rsa : Nat → Bytes → Option String)

/-- `decrypt_with_session_key`. -/
def decryptWithSessionKey (s : State) (a : Answer) (linkToken : String) (ciphertext : Bytes) :
    Except KeyError String × State :=
  match getPrivateKey s a linkToken with
  | .error e => (.error e, s)
  | .ok none =>
      (.error (.value "No ephemeral key found for link_token (expired or invalid)"), s)
  | .ok (some key) =>
      match rsa key.serial ciphertext with
      | none => (.error (.value "Failed to decrypt credentials with ephemeral key"), s)
      | some text =>
          (.ok text,
            { s with opened := s.opened ++ [⟨linkToken, key, s.now, s.destroyed linkToken⟩] })

/-! ## Resolving the credentials of a request -/

/-- The fields of a `ConnectRequest` with credentials. -/
structure Credentials where
  linkToken : Option String
  encryptedUsername : Option String
  encryptedPassword : Option String
  username : Option String
  password : Option String

/-- A field that is present and not empty. -/
def given (field : Option String) : Option String :=
  field.filter (· ≠ "")

/-- What `resolve_credentials` makes of the exceptions of its calls. -/
def KeyError.response : KeyError → HttpError
  | .value text => ⟨400, text⟩
  | .runtime => ⟨400, "Failed to decrypt credentials."⟩

/- `base64.b64decode`, with the text of its `ValueError`. -/
variable (b64decode : String → Except String Bytes)

/-- The branch of `resolve_credentials` for encrypted fields, with the answers
of Redis to its three calls. -/
def resolveEncrypted (s : State) (a₁ a₂ a₃ : Answer) (linkToken encUser encPass : String) :
    Except HttpError (String × String) × State :=
  match b64decode encUser, b64decode encPass with
  | .error text, _ => (.error ⟨400, text⟩, s)
  | _, .error text => (.error ⟨400, text⟩, s)
  | .ok encUser, .ok encPass =>
      match decryptWithSessionKey rsa s a₁ linkToken encUser with
      | (.error e, s) => (.error e.response, s)
      | (.ok username, s) =>
          match decryptWithSessionKey rsa s a₂ linkToken encPass with
          | (.error e, s) => (.error e.response, s)
          | (.ok password, s) =>
              let t := destroySessionKey s a₃ linkToken
              if a₃.client = .required then (.error KeyError.runtime.response, t)
              else (.ok (username, password), t)

/-- `resolve_credentials`. -/
def resolveCredentials (s : State) (a₁ a₂ a₃ : Answer) (body : Credentials) :
    Except HttpError (String × String) × State :=
  match given body.encryptedUsername, given body.encryptedPassword, given body.linkToken with
  | some encUser, some encPass, some linkToken =>
      resolveEncrypted rsa b64decode s a₁ a₂ a₃ linkToken encUser encPass
  | _, _, _ =>
      match given body.username, given body.password with
      | some username, some password => (.ok (username, password), s)
      | _, _ =>
          (.error ⟨422, "Provide either (username + password) or " ++
            "(encrypted_username + encrypted_password + link_token)."⟩, s)

/-! ## Histories -/

inductive Label where
  | wait (time : Nat)
  | generate (answer : Answer) (linkToken : String)
  | decrypt (answer : Answer) (linkToken : String) (ciphertext : Bytes)
  | destroy (answer : Answer) (linkToken : String)
  | cleanup
deriving DecidableEq

def step (s : State) : Label → Option State
  | .wait time => some { s with now := s.now + time }
  | .generate answer linkToken => some (generateKeypair s answer linkToken)
  | .decrypt answer linkToken ciphertext =>
      some (decryptWithSessionKey rsa s answer linkToken ciphertext).2
  | .destroy answer linkToken => some (destroySessionKey s answer linkToken)
  | .cleanup => some (cleanupExpiredKeys s).2

/-- Before the first key is made. -/
def start (now : Nat) : State :=
  ⟨now, Keyspace.empty, Table.empty, 0, fun _ => 0, []⟩

end

/-- What has been decrypted was decrypted with a key made at most 600 seconds
before, and after every call that was to destroy the token's key. -/
def DiesOnUseAndAge (s : State) : Prop :=
  ∀ o ∈ s.opened, o.time ≤ o.key.generatedAt + keyTtl ∧ o.destroyed ≤ o.key.serial

/-- A read finds the key in Redis, or finds none in memory that is too old. -/
def Cleaned (s : State) (a : Answer) (linkToken : String) : Prop :=
  redisKey s a linkToken ≠ none ∨
    ∀ e ∈ s.keyStore.get? linkToken, s.now ≤ e.createdAt + keyTtl

/-- A call that is to destroy a key reaches the stores that have one. -/
def Reached (s : State) (a : Answer) (linkToken : String) : Prop :=
  (s.redis.get s.now linkToken = none ∨ a.executes = true) ∧
    (s.keyStore.get? linkToken = none ∨ a.client ≠ .required)

/-- What the calls of a history are to meet. -/
def Served (s : State) : Label → Prop
  | .decrypt answer linkToken _ => Cleaned s answer linkToken
  | .destroy answer linkToken => Reached s answer linkToken
  | _ => True

instance decidableServed (s : State) : (l : Label) → Decidable (Served s l)
  | .wait _ => isTrue trivial
  | .generate _ _ => isTrue trivial
  | .decrypt answer linkToken _ =>
      inferInstanceAs (Decidable (redisKey s answer linkToken ≠ none ∨
        ∀ e ∈ s.keyStore.get? linkToken, s.now ≤ e.createdAt + keyTtl))
  | .destroy answer linkToken =>
      inferInstanceAs (Decidable ((s.redis.get s.now linkToken = none ∨ answer.executes = true) ∧
        (s.keyStore.get? linkToken = none ∨ answer.client ≠ .required)))
  | .cleanup => isTrue trivial

end Plaidify.SessionKeys
