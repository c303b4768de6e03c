import Plaidify.AccessJobs.Jobs
import Plaidify.Envelope.Rotation
import Plaidify.Lib.JsonSorted
import Plaidify.Lib.Keyspace

/-!
# Dispatch payloads

A job that is dispatched leaves the arguments of its executor in Redis, as JSON text with
its keys in order and the two credentials encrypted under the master key. The worker, a
process with a master key of its own, reads them back. It gets what was dispatched exactly
when no argument has a name or a value that the encryption takes for its own, and the
master key is still the same if there are credentials.
-/

namespace Plaidify.AccessJobs

open Envelope (Cryptography Encryption Urandom gcmNonceBytes keyText Sound)

/-! ## Storing -/

/-- One round of the loop of `_encrypt_dispatch_kwargs`. What is no text has no `encode`. -/
def encryptField (encryptCredential : String → Option String) (fieldName : String)
    (kwargs : Dict) : Option Dict :=
  match dictPop kwargs fieldName with
  | (none, kwargs) | (some .null, kwargs) => some kwargs
  | (some (.str value), kwargs) =>
      (encryptCredential value).map fun token =>
        Json.dictInsert kwargs (fieldName ++ "_encrypted", .str token)
  | _ => none

/-- `_dispatch_payload_key`. -/
def dispatchPayloadKey (jobId : String) : String :=
  "plaidify:access_job_payload:" ++ jobId

section

variable (lib : Cryptography)

/-- `_encrypt_dispatch_kwargs`, with the nonce of each field. -/
def encryptDispatchKwargs (settings : Envelope.Settings) (nonce : String → Urandom gcmNonceBytes)
    (kwargs : Dict) : Option Dict := do
  let kwargs ← encryptField (Envelope.encryptCredential lib settings (nonce "username")) "username"
    kwargs
  encryptField (Envelope.encryptCredential lib settings (nonce "password")) "password" kwargs

/-- What is stored for a job. `queuedAt` is the text of `time.time()`. -/
def dispatchPayload (jobId executorName queuedAt : String) (kwargs : Dict) : Dict :=
  [("job_id", .str jobId), ("executor", .str executorName), ("executor_kwargs", .obj kwargs),
    ("queued_at", .float queuedAt)]

/-- `_store_dispatch_payload`. -/
def storeDispatchPayload (settings : Envelope.Settings) (nonce : String → Urandom gcmNonceBytes)
    (redis : Keyspace String String) (now : Nat) (jobId executorName queuedAt : String)
    (executorKwargs : Dict) : Option (Keyspace String String) := do
  let kwargs ← encryptDispatchKwargs lib settings nonce executorKwargs
  return redis.set (dispatchPayloadKey jobId)
    (Json.dumpsSorted (.obj (dispatchPayload jobId executorName queuedAt kwargs)))
    (now + payloadTtl)

/-! ## Reading -/

/-- `_load_dispatch_payload`, with what the worker takes from the payload. -/
def readDispatchPayload (floatRepr : String → String) (redis : Keyspace String String) (now : Nat)
    (jobId : String) : Option Payload := do
  let raw ← (redis.get now (dispatchPayloadKey jobId)).filter (· ≠ "")
  match ← Json.loads floatRepr raw with
  | .obj payload =>
      match payload.lookup "executor", payload.lookup "executor_kwargs" with
      | some (.str executor), some (.obj executorKwargs) => some ⟨executor, executorKwargs⟩
      | _, _ => none
  | _ => none

/-- `decrypt_credential` on what a payload has, with the text of the exception. -/
def workerDecrypt (settings : Envelope.Settings) (errorText : Json → String) (value : Json) :
    Except String String :=
  match value with
  | .str token =>
      match Envelope.decryptCredential lib settings token with
      | some clear => .ok clear
      | none => .error (errorText value)
  | _ => .error (errorText value)

/-- Two dictionaries have the same keys with values that Python finds equal. -/
def SameItems (d d' : Dict) : Prop :=
  ∀ key, (d.lookup key).map Json.sortKeys = (d'.lookup key).map Json.sortKeys

/-- A worker reads the payload of the job, and calls this executor with these arguments. -/
def Receives (floatRepr : String → String) (settings : Envelope.Settings)
    (errorText : Json → String) (redis : Keyspace String String) (now : Nat)
    (jobId executorName : String) (kwargs : Dict) : Prop :=
  ∃ payload kwargs', readDispatchPayload floatRepr redis now jobId = some payload ∧
    payload.executor = executorName ∧
    decryptDispatchKwargs (workerDecrypt lib settings errorText) payload.executorKwargs =
      .ok kwargs' ∧
    SameItems kwargs' kwargs

end

/-! ## The condition -/

def credentialFields : List String := ["username", "password"]

/-- The credentials are texts or not there, and no argument has the name of an encrypted
one. -/
def PlainKwargs (kwargs : Dict) : Prop :=
  ∀ fieldName ∈ credentialFields,
    (∀ value ∈ kwargs.lookup fieldName, ∃ text, value = .str text) ∧
      kwargs.lookup (fieldName ++ "_encrypted") = none

/-- One of the credentials is there. -/
def HasCredentials (kwargs : Dict) : Prop :=
  ∃ fieldName ∈ credentialFields, kwargs.lookup fieldName ≠ none

/-- The encryptions of the credentials. -/
def credentialEncryptions (master : Urandom 32) (nonce : String → Urandom gcmNonceBytes)
    (kwargs : Dict) : List Encryption :=
  credentialFields.filterMap fun fieldName =>
    match kwargs.lookup fieldName with
    | some (.str text) => some ⟨master, nonce fieldName, Bytes.utf8 text⟩
    | _ => none

/-! ## Dictionaries -/

theorem lookup_filter_ne (d : Dict) (key name : String) :
    (d.filter fun m => m.1 != key).lookup name = if name = key then none else d.lookup name := by
  induction d with
  | nil => simp
  | cons m d ih =>
    obtain ⟨k, v⟩ := m
    by_cases hk : k = key
    · subst hk
      rw [List.filter_cons_of_neg (by simp), ih, List.lookup_cons]
      by_cases hname : name = k
      · rw [if_pos hname, if_pos hname]
      · rw [if_neg hname, if_neg hname, beq_false_of_ne hname]
    · rw [List.filter_cons_of_pos (by simpa using hk), List.lookup_cons, List.lookup_cons, ih]
      by_cases hname : name = key
      · rw [if_pos hname, if_pos hname, hname, beq_false_of_ne (Ne.symm hk)]
      · rw [if_neg hname, if_neg hname]

theorem lookup_dictInsert (d : Dict) (m : String × Json) (name : String) :
    (Json.dictInsert d m).lookup name = if name = m.1 then some m.2 else d.lookup name := by
  by_cases hname : name = m.1
  · subst hname
    rw [if_pos rfl]
    by_cases hmem : d.lookup m.1 = none
    · have hnew : m.1 ∉ d.map Prod.fst := by
        intro hin
        obtain ⟨item, hitem, heq⟩ := List.mem_map.mp hin
        exact bne_iff_ne.mp (List.lookup_eq_none_iff.mp hmem item hitem) heq.symm
      rw [Json.dictInsert, if_neg hnew, List.lookup_append, hmem, Option.none_or]
      exact List.lookup_cons_self
    · exact Json.lookup_dictInsert_self hmem
  · rw [if_neg hname]
    exact Json.lookup_dictInsert_of_ne hname

theorem SameItems.symm {d d' : Dict} (h : SameItems d d') : SameItems d' d :=
  fun key => (h key).symm

theorem SameItems.none_iff {d d' : Dict} (h : SameItems d d') (key : String) :
    d.lookup key = none ↔ d'.lookup key = none := by
  have hkey := h key
  constructor
  · intro hnone
    rw [hnone] at hkey
    exact Option.map_eq_none_iff.mp hkey.symm
  · intro hnone
    rw [hnone] at hkey
    exact Option.map_eq_none_iff.mp hkey

/-- A text is the same as nothing else. -/
theorem SameItems.text {d d' : Dict} (h : SameItems d d') {key text : String}
    (htext : d.lookup key = some (.str text)) : d'.lookup key = some (.str text) := by
  have hkey := h key
  rw [htext, Option.map_some, Json.sortKeys_eq_str.mpr rfl] at hkey
  obtain ⟨value, hvalue, hsort⟩ := Option.map_eq_some_iff.mp hkey.symm
  rw [hvalue, Json.sortKeys_eq_str.mp hsort]

/-! ## One field -/

/-- The names of a field, encrypted or not. -/
def OfField (fieldName name : String) : Prop :=
  name = fieldName ∨ name = fieldName ++ "_encrypted"

/-- What the encryption did to a field. -/
def Encrypted (encryptCredential : String → Option String) (fieldName : String)
    (kwargs kwargs₁ : Dict) : Prop :=
  (∃ text token, kwargs.lookup fieldName = some (.str text) ∧
    encryptCredential text = some token ∧
    kwargs₁.lookup (fieldName ++ "_encrypted") = some (.str token)) ∨
  ((kwargs.lookup fieldName = none ∨ kwargs.lookup fieldName = some .null) ∧
    kwargs₁.lookup (fieldName ++ "_encrypted") = kwargs.lookup (fieldName ++ "_encrypted"))

/-- What the decryption did to a field. -/
def Decrypted (decryptCredential : Json → Except String String) (fieldName : String)
    (kwargs₂ kwargs' : Dict) : Prop :=
  kwargs'.lookup (fieldName ++ "_encrypted") = none ∧
  ((∃ value text, kwargs₂.lookup (fieldName ++ "_encrypted") = some value ∧
    decryptCredential value = .ok text ∧ kwargs'.lookup fieldName = some (.str text)) ∨
  (kwargs₂.lookup (fieldName ++ "_encrypted") = none ∨
      kwargs₂.lookup (fieldName ++ "_encrypted") = some .null) ∧
    kwargs'.lookup fieldName = kwargs₂.lookup fieldName)

theorem suffixed_ne (fieldName : String) : fieldName ++ "_encrypted" ≠ fieldName := by
  intro h
  have hlength := congrArg (fun s => s.toList.length) h
  simp at hlength

theorem encryptField_spec {encryptCredential : String → Option String} {fieldName : String}
    {kwargs kwargs₁ : Dict}
    (h : encryptField encryptCredential fieldName kwargs = some kwargs₁) :
    (kwargs₁.lookup fieldName = none ∧ Encrypted encryptCredential fieldName kwargs kwargs₁) ∧
      ∀ name, ¬ OfField fieldName name → kwargs₁.lookup name = kwargs.lookup name := by
  have hpopped : ∀ name, name ≠ fieldName →
      (kwargs.filter fun m => m.1 != fieldName).lookup name = kwargs.lookup name := by
    intro name hname
    rw [lookup_filter_ne, if_neg hname]
  have hself : (kwargs.filter fun m => m.1 != fieldName).lookup fieldName = none := by
    rw [lookup_filter_ne, if_pos rfl]
  unfold encryptField dictPop at h
  split at h
  · next hpop =>
    obtain ⟨hlookup, rfl⟩ := Prod.mk.inj hpop
    rw [← Option.some.inj h]
    exact ⟨⟨hself, .inr ⟨.inl hlookup, hpopped _ (suffixed_ne fieldName)⟩⟩,
      fun name hname => hpopped name fun heq => hname (.inl heq)⟩
  · next hpop =>
    obtain ⟨hlookup, rfl⟩ := Prod.mk.inj hpop
    rw [← Option.some.inj h]
    exact ⟨⟨hself, .inr ⟨.inr hlookup, hpopped _ (suffixed_ne fieldName)⟩⟩,
      fun name hname => hpopped name fun heq => hname (.inl heq)⟩
  · next text rest hpop =>
    obtain ⟨hlookup, rfl⟩ := Prod.mk.inj hpop
    obtain ⟨token, htoken, rfl⟩ := Option.map_eq_some_iff.mp h
    refine ⟨⟨?_, .inl ⟨text, token, hlookup, htoken, ?_⟩⟩, fun name hname => ?_⟩
    · rw [lookup_dictInsert, if_neg (suffixed_ne fieldName).symm, hself]
    · rw [lookup_dictInsert, if_pos rfl]
    · rw [lookup_dictInsert, if_neg fun heq => hname (.inr heq)]
      exact hpopped name fun heq => hname (.inl heq)
  · cases h

theorem decryptField_spec {decryptCredential : Json → Except String String} {fieldName : String}
    {kwargs kwargs' : Dict} (h : decryptField decryptCredential fieldName kwargs = .ok kwargs') :
    Decrypted decryptCredential fieldName kwargs kwargs' ∧
      ∀ name, ¬ OfField fieldName name → kwargs'.lookup name = kwargs.lookup name := by
  have hpopped : ∀ name, name ≠ fieldName ++ "_encrypted" →
      (kwargs.filter fun m => m.1 != fieldName ++ "_encrypted").lookup name =
        kwargs.lookup name := by
    intro name hname
    rw [lookup_filter_ne, if_neg hname]
  have hself : (kwargs.filter fun m => m.1 != fieldName ++ "_encrypted").lookup
      (fieldName ++ "_encrypted") = none := by
    rw [lookup_filter_ne, if_pos rfl]
  unfold decryptField dictPop at h
  split at h
  · next hpop =>
    obtain ⟨hlookup, rfl⟩ := Prod.mk.inj hpop
    rw [← Except.ok.inj h]
    exact ⟨⟨hself, .inr ⟨.inl hlookup, hpopped _ (suffixed_ne fieldName).symm⟩⟩,
      fun name hname => hpopped name fun heq => hname (.inr heq)⟩
  · next hpop =>
    obtain ⟨hlookup, rfl⟩ := Prod.mk.inj hpop
    rw [← Except.ok.inj h]
    exact ⟨⟨hself, .inr ⟨.inr hlookup, hpopped _ (suffixed_ne fieldName).symm⟩⟩,
      fun name hname => hpopped name fun heq => hname (.inr heq)⟩
  · next value rest _ hpop =>
    obtain ⟨hlookup, rfl⟩ := Prod.mk.inj hpop
    cases hclear : decryptCredential value with
    | error message =>
      rw [hclear] at h
      cases h
    | ok text =>
      rw [hclear] at h
      rw [← Except.ok.inj h]
      refine ⟨⟨?_, .inl ⟨value, text, hlookup, hclear, ?_⟩⟩, fun name hname => ?_⟩
      · rw [lookup_dictInsert, if_neg (suffixed_ne fieldName), hself]
      · rw [lookup_dictInsert, if_pos rfl]
      · rw [lookup_dictInsert, if_neg fun heq => hname (.inl heq)]
        exact hpopped name fun heq => hname (.inr heq)

theorem exists_decryptField {decryptCredential : Json → Except String String} {fieldName : String}
    {kwargs : Dict} (h : ∀ value ∈ kwargs.lookup (fieldName ++ "_encrypted"),
      ∃ text, decryptCredential value = .ok text) :
    ∃ kwargs', decryptField decryptCredential fieldName kwargs = .ok kwargs' := by
  unfold decryptField dictPop
  cases hlookup : kwargs.lookup (fieldName ++ "_encrypted") with
  | none => exact ⟨_, rfl⟩
  | some value =>
    obtain ⟨text, htext⟩ := h value hlookup
    cases value with
    | null => exact ⟨_, rfl⟩
    | bool _ | int _ | float _ | str _ | arr _ | obj _ =>
      dsimp only
      rw [htext]
      exact ⟨_, rfl⟩

/-! ## Both fields -/

section

variable {lib : Cryptography} {settings settings' : Envelope.Settings}
  {nonce : String → Urandom gcmNonceBytes} {floatRepr : String → String} {kwargs kwargs₁ : Dict}

theorem writable_encryptField {encryptCredential : String → Option String} {fieldName : String}
    (hkwargs : Json.Writable floatRepr (.obj kwargs))
    (h : encryptField encryptCredential fieldName kwargs = some kwargs₁) :
    Json.Writable floatRepr (.obj kwargs₁) := by
  have hpopped : Json.Writable floatRepr (.obj (kwargs.filter fun m => m.1 != fieldName)) := by
    simp only [Json.Writable, Json.writableMembers_iff] at hkwargs ⊢
    exact ⟨hkwargs.1.sublist (List.filter_sublist.map _),
      fun m hm => hkwargs.2 m (List.mem_filter.mp hm).1⟩
  unfold encryptField dictPop at h
  split at h
  · next hpop =>
    obtain ⟨-, rfl⟩ := Prod.mk.inj hpop
    exact Option.some.inj h ▸ hpopped
  · next hpop =>
    obtain ⟨-, rfl⟩ := Prod.mk.inj hpop
    exact Option.some.inj h ▸ hpopped
  · next hpop =>
    obtain ⟨-, rfl⟩ := Prod.mk.inj hpop
    obtain ⟨token, -, rfl⟩ := Option.map_eq_some_iff.mp h
    exact Json.Writable.dictInsert hpopped trivial
  · cases h

theorem writable_encryptDispatchKwargs (hkwargs : Json.Writable floatRepr (.obj kwargs))
    (h : encryptDispatchKwargs lib settings nonce kwargs = some kwargs₁) :
    Json.Writable floatRepr (.obj kwargs₁) := by
  obtain ⟨kwargs₀, hfirst, hsecond⟩ := Option.bind_eq_some_iff.mp h
  exact writable_encryptField (writable_encryptField hkwargs hfirst) hsecond

/-- A worker reads the executor and the arguments as they were encrypted. -/
theorem readDispatchPayload_stored {redis redis' : Keyspace String String} {now later : Nat}
    {jobId executorName queuedAt : String} (hkwargs : Json.Writable floatRepr (.obj kwargs))
    (hqueued : Json.Writable floatRepr (.float queuedAt)) (hlater : later ≤ now + payloadTtl)
    (hstored : storeDispatchPayload lib settings nonce redis now jobId executorName queuedAt
      kwargs = some redis') :
    ∃ kwargs₁ kwargs₂, encryptDispatchKwargs lib settings nonce kwargs = some kwargs₁ ∧
      readDispatchPayload floatRepr redis' later jobId = some ⟨executorName, kwargs₂⟩ ∧
      SameItems kwargs₁ kwargs₂ := by
  obtain ⟨kwargs₁, hencrypt, hset⟩ := Option.bind_eq_some_iff.mp hstored
  have hkwargs₁ := writable_encryptDispatchKwargs hkwargs hencrypt
  have hpayload : Json.Writable floatRepr
      (.obj (dispatchPayload jobId executorName queuedAt kwargs₁)) :=
    ⟨by simp [dispatchPayload], trivial, trivial, hkwargs₁, hqueued, trivial⟩
  have hget : redis'.get later (dispatchPayloadKey jobId) =
      some (Json.dumpsSorted (.obj (dispatchPayload jobId executorName queuedAt kwargs₁))) := by
    rw [← Option.some.inj hset]
    exact Keyspace.get_eq_some.mpr ⟨_, Keyspace.entry_set_self .., hlater, rfl⟩
  have hloads := Json.loads_dumpsSorted hpayload
  -- what is read is a dictionary with the same items
  have hsame := Json.same_sortKeys (.obj (dispatchPayload jobId executorName queuedAt kwargs₁))
  obtain ⟨members, hmembers⟩ := Json.exists_obj_of_sortKeys hsame.symm
  rw [hmembers] at hloads hsame
  have hitems : SameItems (dispatchPayload jobId executorName queuedAt kwargs₁) members :=
    hsame.lookup hpayload.1
  have hexecutor : members.lookup "executor" = some (.str executorName) := hitems.text rfl
  obtain ⟨value, hvalue, hsort⟩ := Option.map_eq_some_iff.mp (hitems "executor_kwargs").symm
  obtain ⟨kwargs₂, rfl⟩ := Json.exists_obj_of_sortKeys hsort
  refine ⟨kwargs₁, kwargs₂, hencrypt, ?_, Json.Same.lookup hsort.symm hkwargs₁.1⟩
  unfold readDispatchPayload
  rw [hget, Option.filter_some, if_pos (by simpa using Json.dumpsSorted_obj_ne_empty _)]
  simp only [Option.bind_eq_bind, Option.bind_some, hloads, hexecutor, hvalue]

/-- The two fields have no name in common. -/
theorem not_ofField {fieldName other name : String} (hfield : fieldName ∈ credentialFields)
    (hother : other ∈ credentialFields) (hne : fieldName ≠ other) (hname : OfField other name) :
    ¬ OfField fieldName name := by
  have hall : ∀ fieldName ∈ credentialFields, ∀ other ∈ credentialFields, fieldName ≠ other →
      ∀ name ∈ [other, other ++ "_encrypted"], name ∉ [fieldName, fieldName ++ "_encrypted"] := by
    decide
  have hmem : ∀ fieldName,
      OfField fieldName name ↔ name ∈ [fieldName, fieldName ++ "_encrypted"] := by
    intro fieldName
    rw [OfField, List.mem_cons, List.mem_singleton]
  rw [hmem] at hname ⊢
  exact hall _ hfield _ hother hne name hname

theorem encryptDispatchKwargs_spec
    (h : encryptDispatchKwargs lib settings nonce kwargs = some kwargs₁) :
    (∀ fieldName ∈ credentialFields, kwargs₁.lookup fieldName = none ∧
      Encrypted (Envelope.encryptCredential lib settings (nonce fieldName)) fieldName kwargs
        kwargs₁) ∧
    ∀ name, (∀ fieldName ∈ credentialFields, ¬ OfField fieldName name) →
      kwargs₁.lookup name = kwargs.lookup name := by
  obtain ⟨kwargs₀, hfirst, hsecond⟩ := Option.bind_eq_some_iff.mp h
  obtain ⟨⟨hnone, husername⟩, hothers⟩ := encryptField_spec hfirst
  obtain ⟨⟨hnone', hpassword⟩, hothers'⟩ := encryptField_spec hsecond
  have hkept := fun name hname => hothers' name
    (not_ofField (by decide : "password" ∈ credentialFields)
      (by decide : "username" ∈ credentialFields) (by decide) hname)
  have hkept' := fun name hname => hothers name
    (not_ofField (by decide : "username" ∈ credentialFields)
      (by decide : "password" ∈ credentialFields) (by decide) hname)
  refine ⟨?_, fun name hname => ?_⟩
  · intro fieldName hfield
    simp only [credentialFields, List.mem_cons, List.not_mem_nil, or_false] at hfield
    rcases hfield with rfl | rfl
    · refine ⟨(hkept _ (.inl rfl)).trans hnone, ?_⟩
      unfold Encrypted at husername ⊢
      rw [hkept _ (.inr rfl)]
      exact husername
    · refine ⟨hnone', ?_⟩
      unfold Encrypted at hpassword ⊢
      rw [← hkept' _ (.inl rfl), ← hkept' _ (.inr rfl)]
      exact hpassword
  · rw [hothers' name (hname _ (by decide)), hothers name (hname _ (by decide))]

theorem decryptDispatchKwargs_spec {decryptCredential : Json → Except String String}
    {kwargs₂ kwargs' : Dict} (h : decryptDispatchKwargs decryptCredential kwargs₂ = .ok kwargs') :
    (∀ fieldName ∈ credentialFields, Decrypted decryptCredential fieldName kwargs₂ kwargs') ∧
    ∀ name, (∀ fieldName ∈ credentialFields, ¬ OfField fieldName name) →
      kwargs'.lookup name = kwargs₂.lookup name := by
  unfold decryptDispatchKwargs at h
  cases hfirst : decryptField decryptCredential "username" kwargs₂ with
  | error message =>
    rw [hfirst] at h
    cases h
  | ok kwargs₃ =>
    rw [hfirst] at h
    have hsecond : decryptField decryptCredential "password" kwargs₃ = .ok kwargs' := h
    obtain ⟨husername, hothers⟩ := decryptField_spec hfirst
    obtain ⟨hpassword, hothers'⟩ := decryptField_spec hsecond
    have hkept := fun name hname => hothers' name
      (not_ofField (by decide : "password" ∈ credentialFields)
        (by decide : "username" ∈ credentialFields) (by decide) hname)
    have hkept' := fun name hname => hothers name
      (not_ofField (by decide : "username" ∈ credentialFields)
        (by decide : "password" ∈ credentialFields) (by decide) hname)
    refine ⟨?_, fun name hname => ?_⟩
    · intro fieldName hfield
      simp only [credentialFields, List.mem_cons, List.not_mem_nil, or_false] at hfield
      rcases hfield with rfl | rfl
      · unfold Decrypted at husername ⊢
        rw [hkept _ (.inl rfl), hkept _ (.inr rfl)]
        exact husername
      · unfold Decrypted at hpassword ⊢
        rw [← hkept' _ (.inl rfl), ← hkept' _ (.inr rfl)]
        exact hpassword
    · rw [hothers' name (hname _ (by decide)), hothers name (hname _ (by decide))]

theorem exists_decryptDispatchKwargs {decryptCredential : Json → Except String String}
    {kwargs₂ : Dict} (h : ∀ fieldName ∈ credentialFields,
      ∀ value ∈ kwargs₂.lookup (fieldName ++ "_encrypted"), ∃ text,
        decryptCredential value = .ok text) :
    ∃ kwargs', decryptDispatchKwargs decryptCredential kwargs₂ = .ok kwargs' := by
  obtain ⟨kwargs₃, hfirst⟩ := exists_decryptField (h "username" (by decide))
  obtain ⟨-, hothers⟩ := decryptField_spec hfirst
  have hkept := hothers _ (not_ofField (by decide : "username" ∈ credentialFields)
    (by decide : "password" ∈ credentialFields) (by decide) (.inr rfl))
  have hpassword := h "password" (by decide)
  rw [← hkept] at hpassword
  obtain ⟨kwargs', hsecond⟩ := exists_decryptField hpassword
  refine ⟨kwargs', ?_⟩
  unfold decryptDispatchKwargs
  rw [hfirst]
  exact hsecond

/-! ## What the worker gets -/

theorem encryptCredential_token {master : Urandom 32}
    (hkey : settings.encryptionKey = keyText master) (n : Urandom gcmNonceBytes) (text : String) :
    Envelope.encryptCredential lib settings n text =
      some (Encryption.token lib ⟨master, n, Bytes.utf8 text⟩) := by
  unfold Envelope.encryptCredential
  rw [Envelope.getEncryptionKey_keyText hkey, Option.bind_eq_bind, Option.bind_some,
    Envelope.aesgcm_urandom]
  rfl

/-- The worker decrypts the token of a credential exactly when it has its master key. -/
theorem workerDecrypt_token {master master' : Urandom 32} {errorText : Json → String}
    {fieldName text clear : String} (hfield : fieldName ∈ credentialFields)
    (htext : kwargs.lookup fieldName = some (.str text))
    (hsound : Sound lib (credentialEncryptions master nonce kwargs) [master.1, master'.1])
    (hworker : settings'.encryptionKey = keyText master') :
    workerDecrypt lib settings' errorText
        (.str (Encryption.token lib ⟨master, nonce fieldName, Bytes.utf8 text⟩)) = .ok clear ↔
      master' = master ∧ clear = text := by
  have hmade : (⟨master, nonce fieldName, Bytes.utf8 text⟩ : Encryption) ∈
      credentialEncryptions master nonce kwargs := by
    refine List.mem_filterMap.mpr ⟨fieldName, hfield, ?_⟩
    rw [htext]
  have htoken := Envelope.decryptCredential_token hsound hmade (nonce fieldName).2 rfl hworker
    (List.mem_cons_of_mem _ (List.mem_singleton_self _))
  unfold workerDecrypt
  dsimp only
  rw [htoken]
  by_cases hmaster : master' = master
  · subst hmaster
    rw [if_pos rfl]
    simp [eq_comm]
  · rw [if_neg fun heq => hmaster (Subtype.ext heq)]
    simp [hmaster]

/-- The worker calls the executor that was dispatched with the arguments that were
dispatched, exactly when the credentials are texts or not there, no argument has the name
of an encrypted one, and the master key is the same if there are credentials. -/
theorem receives_iff {master master' : Urandom 32} {errorText : Json → String}
    {redis redis' : Keyspace String String} {now later : Nat}
    {jobId executorName queuedAt : String} (hkwargs : Json.Writable floatRepr (.obj kwargs))
    (hqueued : Json.Writable floatRepr (.float queuedAt))
    (hsettings : settings.encryptionKey = keyText master)
    (hworker : settings'.encryptionKey = keyText master')
    (hsound : Sound lib (credentialEncryptions master nonce kwargs) [master.1, master'.1])
    (hstored : storeDispatchPayload lib settings nonce redis now jobId executorName queuedAt
      kwargs = some redis') (hlater : later ≤ now + payloadTtl) :
    Receives lib floatRepr settings' errorText redis' later jobId executorName kwargs ↔
      PlainKwargs kwargs ∧ (HasCredentials kwargs → master' = master) := by
  obtain ⟨kwargs₁, kwargs₂, hencrypt, hread, hitems⟩ :=
    readDispatchPayload_stored hkwargs hqueued hlater hstored
  obtain ⟨hfields, hothers⟩ := encryptDispatchKwargs_spec hencrypt
  constructor
  · rintro ⟨payload, kwargs', hpayload, -, hdecrypt, hsame⟩
    obtain rfl := Option.some.inj (hread.symm.trans hpayload)
    obtain ⟨hfields', -⟩ := decryptDispatchKwargs_spec hdecrypt
    -- a plain name that the worker drops again was none of the caller's
    have hplain : ∀ fieldName ∈ credentialFields,
        kwargs.lookup (fieldName ++ "_encrypted") = none := fun fieldName hfield =>
      (hsame.none_iff _).mp (hfields' fieldName hfield).1
    -- the worker gives back a credential only if it opens the token that was stored
    have hvalue : ∀ fieldName ∈ credentialFields, kwargs.lookup fieldName = none ∨
        (∃ text, kwargs.lookup fieldName = some (.str text)) ∧ master' = master := by
      intro fieldName hfield
      obtain ⟨hgone, hencrypted⟩ := hfields fieldName hfield
      obtain ⟨-, hdecrypted⟩ := hfields' fieldName hfield
      rcases hencrypted with ⟨text, token, htext, htoken, hlookup⟩ | ⟨-, hlookup⟩
      · -- it was encrypted, and the worker decrypts what it finds
        right
        rw [encryptCredential_token hsettings] at htoken
        rcases hdecrypted with ⟨value, clear, hvalue, hclear, -⟩ | ⟨hnone, -⟩
        · obtain rfl := Option.some.inj ((hitems.text hlookup).symm.trans hvalue)
          rw [← Option.some.inj htoken] at hclear
          exact ⟨⟨text, htext⟩, ((workerDecrypt_token hfield htext hsound hworker).mp hclear).1⟩
        · rw [hitems.text hlookup] at hnone
          rcases hnone with hnone | hnone <;> cases hnone
      · -- there was nothing to encrypt
        left
        have hnone : kwargs₂.lookup (fieldName ++ "_encrypted") = none :=
          (hitems.none_iff _).mp (hlookup.trans (hplain fieldName hfield))
        rcases hdecrypted with ⟨value, clear, hvalue, -, -⟩ | ⟨-, hlookup'⟩
        · rw [hnone] at hvalue
          cases hvalue
        · exact (hsame.none_iff _).mp (hlookup'.trans ((hitems.none_iff _).mp hgone))
    refine ⟨fun fieldName hfield => ⟨fun value hmem => ?_, hplain fieldName hfield⟩, ?_⟩
    · rcases hvalue fieldName hfield with hnone | ⟨⟨text, htext⟩, -⟩
      · rw [hnone] at hmem
        cases hmem
      · exact ⟨text, Option.some.inj (hmem.symm.trans htext)⟩
    · rintro ⟨fieldName, hfield, hne⟩
      exact ((hvalue fieldName hfield).resolve_left hne).2
  · rintro ⟨hplain, hmaster⟩
    -- each credential is a token that the worker opens, or was never there
    have hvalue : ∀ fieldName ∈ credentialFields,
        (kwargs.lookup fieldName = none ∧ kwargs₂.lookup (fieldName ++ "_encrypted") = none) ∨
        ∃ text token, kwargs.lookup fieldName = some (.str text) ∧
          kwargs₂.lookup (fieldName ++ "_encrypted") = some (.str token) ∧
          workerDecrypt lib settings' errorText (.str token) = .ok text := by
      intro fieldName hfield
      obtain ⟨hgone, hencrypted⟩ := hfields fieldName hfield
      obtain ⟨htexts, hnone⟩ := hplain fieldName hfield
      rcases hencrypted with ⟨text, token, htext, htoken, hlookup⟩ | ⟨hempty, hlookup⟩
      · refine .inr ⟨text, token, htext, hitems.text hlookup, ?_⟩
        rw [encryptCredential_token hsettings] at htoken
        rw [← Option.some.inj htoken]
        have hhas : HasCredentials kwargs := ⟨fieldName, hfield, by rw [htext]; simp⟩
        exact (workerDecrypt_token hfield htext hsound hworker).mpr ⟨hmaster hhas, rfl⟩
      · refine .inl ⟨?_, (hitems.none_iff _).mp (hlookup.trans hnone)⟩
        rcases hempty with hempty | hnull
        · exact hempty
        · obtain ⟨text, htext⟩ := htexts .null hnull
          cases htext
    obtain ⟨kwargs', hdecrypt⟩ : ∃ kwargs',
        decryptDispatchKwargs (workerDecrypt lib settings' errorText) kwargs₂ = .ok kwargs' := by
      refine exists_decryptDispatchKwargs fun fieldName hfield value hmem => ?_
      rcases hvalue fieldName hfield with ⟨-, hnone⟩ | ⟨text, token, -, htoken, hclear⟩
      · rw [hnone] at hmem
        cases hmem
      · obtain rfl := Option.some.inj (htoken.symm.trans hmem)
        exact ⟨text, hclear⟩
    obtain ⟨hfields', hothers'⟩ := decryptDispatchKwargs_spec hdecrypt
    refine ⟨_, kwargs', hread, rfl, hdecrypt, fun name => ?_⟩
    -- a name is that of a credential, its encrypted form, or another
    by_cases hname : ∃ fieldName ∈ credentialFields, OfField fieldName name
    · obtain ⟨fieldName, hfield, rfl | rfl⟩ := hname
      · obtain ⟨-, hdecrypted⟩ := hfields' name hfield
        refine congrArg _ ?_
        -- the field is missing in both, or it is the text that the token holds
        rcases hvalue name hfield with ⟨hnone, hnone'⟩ | ⟨text, token, htext, htoken, hclear⟩
        · rcases hdecrypted with ⟨value, clear, hvalue, -, -⟩ | ⟨-, hlookup⟩
          · rw [hnone'] at hvalue
            cases hvalue
          · rw [hlookup, hnone]
            exact (hitems.none_iff _).mp (hfields name hfield).1
        · rcases hdecrypted with ⟨value, clear, hvalue, hclear', hlookup⟩ | ⟨hnone, -⟩
          · obtain rfl := Option.some.inj (htoken.symm.trans hvalue)
            rw [hlookup, htext, Except.ok.inj (hclear'.symm.trans hclear)]
          · rw [htoken] at hnone
            rcases hnone with hnone | hnone <;> cases hnone
      · rw [(hfields' fieldName hfield).1, (hplain fieldName hfield).2]
    · -- all other arguments go through as they are
      have hother : ∀ fieldName ∈ credentialFields, ¬ OfField fieldName name :=
        fun fieldName hfield hof => hname ⟨fieldName, hfield, hof⟩
      rw [hothers' name hother, ← hitems name, hothers name hother]

end

/-- The arguments of a job with a password. -/
def pinKwargs : Dict :=
  [("site", .str "bank"), ("password", .str "hunter2"), ("extract_fields", .null)]

/-- What is in Redis after the dispatch. -/
def pinStored : Option (Keyspace String String) :=
  storeDispatchPayload Envelope.knownCryptography { encryptionKey := keyText Envelope.firstKey }
    (fun _ => Envelope.nonce 1) Keyspace.empty 0 "job" "connect" "170.5" pinKwargs

/-- A worker with the same master key gets them, one with another does not. -/
theorem pinKwargs_received : ∃ redis', pinStored = some redis' ∧
    Receives Envelope.knownCryptography id { encryptionKey := keyText Envelope.firstKey }
      (fun _ => "") redis' 1000 "job" "connect" pinKwargs ∧
    ¬ Receives Envelope.knownCryptography id { encryptionKey := keyText Envelope.secondKey }
      (fun _ => "") redis' 1000 "job" "connect" pinKwargs := by
  have hkwargs : Json.Writable id (.obj pinKwargs) :=
    ⟨by decide, trivial, trivial, trivial, trivial⟩
  have hqueued : Json.Writable id (.float "170.5") :=
    ⟨⟨[], ['1', '7', '0'], ['.', '5'], [], rfl, .inl rfl, .inr ⟨'1', _, rfl, by decide, by simp⟩,
      .inr ⟨'5', _, rfl, by simp⟩, .inl rfl, by simp⟩, rfl⟩
  have hsound : Sound Envelope.knownCryptography
      (credentialEncryptions Envelope.firstKey (fun _ => Envelope.nonce 1) pinKwargs)
      [Envelope.firstKey.1, Envelope.secondKey.1] :=
    Envelope.knownCryptography_sound.mono (by decide +kernel) (by decide +kernel)
  have hsound' : Sound Envelope.knownCryptography
      (credentialEncryptions Envelope.firstKey (fun _ => Envelope.nonce 1) pinKwargs)
      [Envelope.firstKey.1, Envelope.firstKey.1] :=
    hsound.mono (List.Subset.refl _) (by simp)
  have hstored : pinStored.isSome = true := by
    unfold pinStored storeDispatchPayload encryptDispatchKwargs
    decide +kernel
  obtain ⟨redis', hredis⟩ := Option.isSome_iff_exists.mp hstored
  have hplain : PlainKwargs pinKwargs := by
    intro fieldName hfield
    simp only [credentialFields, List.mem_cons, List.not_mem_nil, or_false] at hfield
    rcases hfield with rfl | rfl
    · exact ⟨fun value hvalue => (by cases hvalue), by decide⟩
    · exact ⟨fun value hvalue => ⟨"hunter2", (Option.some.inj hvalue).symm⟩, by decide⟩
  refine ⟨redis', hredis, ?_, ?_⟩
  · exact (receives_iff hkwargs hqueued rfl rfl hsound' hredis (by decide)).mpr
      ⟨hplain, fun _ => rfl⟩
  · intro hreceives
    have hmaster := ((receives_iff hkwargs hqueued rfl rfl hsound hredis (by decide)).mp
      hreceives).2 ⟨"password", by decide, by decide⟩
    exact absurd (congrArg Subtype.val hmaster) (by decide)

end Plaidify.AccessJobs
