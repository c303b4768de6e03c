import Plaidify.SessionKeys.Keys

/-!
# How long a session key lives

A key that Redis holds runs out by itself, and one in memory only by
`cleanup_expired_keys`; a destruction that does not reach Redis leaves the key
there. Where the calls of a history are `Served`, a credential is decrypted only
with a key that is young and was not to be destroyed before.
-/

namespace Plaidify.SessionKeys

/-! ## The invariant -/

/-- The keys that are kept are the newest of their tokens, and none that was used or
destroyed. -/
structure Inv (s : State) : Prop where
  /-- Redis drops a key 600 seconds after it was made. -/
  deadline : ∀ token e, s.redis.entry token = some e → e.expiresAt = e.value.generatedAt + keyTtl
  redis : ∀ token key, s.redis.get s.now token = some key → s.destroyed token ≤ key.serial
  memory : ∀ e ∈ s.keyStore.rows,
    e.createdAt = e.key.generatedAt ∧ s.destroyed e.linkToken ≤ e.key.serial
  counted : ∀ token, s.destroyed token ≤ s.generated
  opened : DiesOnUseAndAge s

/-- Without a key nothing is kept. -/
theorem init_inv (now : Nat) : Inv (start now) where
  deadline := by
    intro token e he
    cases he
  redis := by
    intro token key hkey
    cases hkey
  memory := by
    intro e he
    cases he
  counted _ := Nat.le_refl 0
  opened := by
    intro o ho
    cases ho

/-! ## What a call finds -/

/-- A key that Redis answers with is young. -/
theorem redisKey_young {s : State} (hs : Inv s) {a : Answer} {token : String} {key : PrivateKey}
    (h : redisKey s a token = some key) :
    s.now ≤ key.generatedAt + keyTtl ∧ s.destroyed token ≤ key.serial := by
  unfold redisKey at h
  split at h
  · rcases Keyspace.get_eq_some.mp h with ⟨e, he, hnow, rfl⟩
    have hdeadline := hs.deadline token e he
    exact ⟨by omega, hs.redis token e.value h⟩
  · cases h

/-- A key that is found is the one in Redis or, where that has none, in memory. -/
theorem getPrivateKey_found {s : State} {a : Answer} {token : String} {key : PrivateKey}
    (h : getPrivateKey s a token = .ok (some key)) :
    redisKey s a token = some key ∨
      redisKey s a token = none ∧ ∃ e, s.keyStore.get? token = some e ∧ e.key = key := by
  unfold getPrivateKey at h
  split at h
  · cases h
  · split at h
    · rename_i hredis
      obtain rfl := Option.some.inj (Except.ok.inj h)
      exact .inl hredis
    · rename_i hredis
      have hmem := Except.ok.inj h
      rcases Option.map_eq_some_iff.mp hmem with ⟨e, he, hkey⟩
      exact .inr ⟨hredis, e, he, hkey⟩

/-- A call that succeeds notes the key that it has found; any other leaves the
state as it is. -/
theorem decrypt_cases (rsa : Nat → Bytes → Option String) (s : State) (a : Answer) (token : String)
    (ciphertext : Bytes) :
    (∃ e, decryptWithSessionKey rsa s a token ciphertext = (.error e, s)) ∨
      ∃ key text, getPrivateKey s a token = .ok (some key) ∧
        decryptWithSessionKey rsa s a token ciphertext =
          (.ok text, { s with opened := s.opened ++ [⟨token, key, s.now, s.destroyed token⟩] }) := by
  unfold decryptWithSessionKey
  split
  · exact .inl ⟨_, rfl⟩
  · exact .inl ⟨_, rfl⟩
  · rename_i key hkey
    split
    · exact .inl ⟨_, rfl⟩
    · rename_i text htext
      exact .inr ⟨key, text, hkey, rfl⟩

/-! ## What the calls keep -/

/-- Time alone brings no key back. -/
theorem wait_inv {s : State} (hs : Inv s) (time : Nat) : Inv { s with now := s.now + time } where
  deadline := hs.deadline
  redis := by
    intro token key hkey
    -- a key that is still there was there before
    exact hs.redis token key (Keyspace.get_earlier (Nat.le_add_right _ _) hkey)
  memory := hs.memory
  counted := hs.counted
  opened := hs.opened

/-- A new key takes the place of the one before. -/
theorem generate_inv {s : State} (hs : Inv s) (a : Answer) (token : String) :
    Inv (generateKeypair s a token) := by
  unfold generateKeypair
  dsimp only
  split
  · exact hs
  have hcounted := hs.counted
  refine ⟨?_, ?_, ?_, ?_, hs.opened⟩
  · intro token' e he
    dsimp only at he
    split at he
    · by_cases htoken : token' = token
      · subst htoken
        rw [Keyspace.entry_set_self] at he
        obtain rfl := Option.some.inj he
        rfl
      · rw [Keyspace.entry_set_of_ne _ htoken] at he
        exact hs.deadline token' e he
    · exact hs.deadline token' e he
  · intro token' key hkey
    dsimp only at hkey ⊢
    split at hkey
    · rcases Keyspace.get_of_get_set hkey with ⟨-, -, rfl⟩ | ⟨-, hold⟩
      · exact hcounted token'
      · exact hs.redis token' key hold
    · exact hs.redis token' key hkey
  · intro e he
    dsimp only at he ⊢
    split at he
    · exact hs.memory e he
    · rcases Table.mem_set he with rfl | hold
      · exact ⟨rfl, hcounted token⟩
      · exact hs.memory e hold
  · intro token'
    have hle := hcounted token'
    dsimp only
    omega

/-- A decryption uses up its key, if the key is removed wherever it is. -/
theorem decrypt_inv (rsa : Nat → Bytes → Option String) {s : State} (hs : Inv s) {a : Answer}
    {token : String} (hclean : Cleaned s a token) (ciphertext : Bytes) :
    Inv (decryptWithSessionKey rsa s a token ciphertext).2 := by
  rcases decrypt_cases rsa s a token ciphertext with ⟨e, heq⟩ | ⟨key, text, hkey, heq⟩
  · rw [heq]
    exact hs
  rw [heq]
  have hyoung : s.now ≤ key.generatedAt + keyTtl ∧ s.destroyed token ≤ key.serial := by
    rcases getPrivateKey_found hkey with hredis | ⟨hredis, e, he, rfl⟩
    · exact redisKey_young hs hredis
    · -- the memory has no deadline of its own: the age is what `Cleaned` says
      have hage : s.now ≤ e.createdAt + keyTtl := by
        rcases hclean with hfound | hold
        · exact absurd hredis hfound
        · exact hold e he
      have hrow := Table.get?_mem he
      have hmem := hs.memory e hrow.1
      rw [hrow.2] at hmem
      exact ⟨by omega, hmem.2⟩
  refine ⟨hs.deadline, hs.redis, hs.memory, hs.counted, ?_⟩
  intro o ho
  rcases List.mem_append.mp ho with hold | hnew
  · exact hs.opened o hold
  · obtain rfl := List.mem_singleton.mp hnew
    exact hyoung

/-- What a destruction that reaches the stores leaves of the token's key. -/
theorem destroy_reached {s : State} {a : Answer} {token : String} (h : Reached s a token) :
    (destroySessionKey s a token).redis.get s.now token = none ∧
      (destroySessionKey s a token).keyStore.get? token = none := by
  rcases h with ⟨hredis, hmemory⟩
  unfold destroySessionKey
  dsimp only
  split
  · rename_i hrequired
    have hnot : a.executes = false := by simp [Answer.executes, hrequired]
    constructor
    · rcases hredis with hnone | hdone
      · exact hnone
      · rw [hnot] at hdone
        cases hdone
    · rcases hmemory with hnone | hother
      · exact hnone
      · exact absurd hrequired hother
  · constructor
    · dsimp only
      split
      · exact Keyspace.get_delete_self ..
      · rename_i hnot
        rcases hredis with hnone | hdone
        · exact hnone
        · exact absurd hdone hnot
    · exact Table.get?_delete_key s.keyStore token

/-- A destruction adds no key. -/
theorem destroy_sub (s : State) (a : Answer) (token : String) :
    (∀ token' e, (destroySessionKey s a token).redis.entry token' = some e →
        s.redis.entry token' = some e) ∧
      ∀ e ∈ (destroySessionKey s a token).keyStore.rows, e ∈ s.keyStore.rows := by
  unfold destroySessionKey
  dsimp only
  split
  · exact ⟨fun _ _ he => he, fun _ he => he⟩
  constructor
  · intro token' e he
    dsimp only at he
    split at he
    · by_cases htoken : token' = token
      · subst htoken
        rw [Keyspace.entry_delete_self] at he
        cases he
      · rwa [Keyspace.entry_delete_of_ne _ htoken] at he
    · exact he
  · intro e he
    exact (List.mem_filter.mp he).1

/-- A destruction notes what it destroys, and opens nothing. -/
theorem destroy_frame (s : State) (a : Answer) (token : String) :
    (destroySessionKey s a token).now = s.now ∧
      (destroySessionKey s a token).generated = s.generated ∧
      (destroySessionKey s a token).opened = s.opened ∧
      (destroySessionKey s a token).destroyed =
        fun token' => if token' = token then s.generated else s.destroyed token' := by
  unfold destroySessionKey
  split <;> exact ⟨rfl, rfl, rfl, rfl⟩

/-- A destroyed key is nowhere, if Redis is reached. -/
theorem destroy_inv {s : State} (hs : Inv s) {a : Answer} {token : String}
    (h : Reached s a token) : Inv (destroySessionKey s a token) := by
  rcases destroy_reached h with ⟨hredis, hmemory⟩
  rcases destroy_sub s a token with ⟨hentry, hrows⟩
  rcases destroy_frame s a token with ⟨hnow, hgenerated, hopened, hdestroyed⟩
  constructor
  · intro token' e he
    exact hs.deadline token' e (hentry token' e he)
  · intro token' key hkey
    rw [hnow] at hkey
    rw [hdestroyed]
    dsimp only
    split
    · rename_i htoken
      rw [htoken, hredis] at hkey
      cases hkey
    · rcases Keyspace.get_eq_some.mp hkey with ⟨e, he, hlive, rfl⟩
      have hold : s.redis.get s.now token' = some e.value :=
        Keyspace.get_eq_some.mpr ⟨e, hentry token' e he, hlive, rfl⟩
      exact hs.redis token' e.value hold
  · intro e he
    have hold := hs.memory e (hrows e he)
    rw [hdestroyed]
    dsimp only
    split
    · rename_i htoken
      have hfound := Table.get?_of_mem he
      rw [htoken, hmemory] at hfound
      cases hfound
    · exact hold
  · intro token'
    rw [hdestroyed, hgenerated]
    dsimp only
    split
    · exact Nat.le_refl _
    · exact hs.counted token'
  · intro o ho
    rw [hopened] at ho
    exact hs.opened o ho

/-- A cleanup removes keys, and adds none. -/
theorem cleanup_inv {s : State} (hs : Inv s) : Inv (cleanupExpiredKeys s).2 where
  deadline := hs.deadline
  redis := hs.redis
  memory := by
    intro e he
    exact hs.memory e (List.mem_filter.mp he).1
  counted := hs.counted
  opened := hs.opened

/-- After a cleanup every key in memory is young. -/
theorem cleanup_young (s : State) (a : Answer) (token : String) :
    Cleaned (cleanupExpiredKeys s).2 a token := by
  refine .inr ?_
  intro e he
  have hrow := (Table.get?_mem he).1
  have hyoung := (List.mem_filter.mp hrow).2
  simp only [Bool.not_eq_true', decide_eq_false_iff_not, not_lt] at hyoung
  exact hyoung

/-! ## Histories -/

/-- A step that is served keeps the account of the keys. -/
theorem step_inv (rsa : Nat → Bytes → Option String) (s : State) (l : Label) (t : State)
    (hs : Inv s) (hl : Served s l) (h : step rsa s l = some t) : Inv t := by
  cases l with
  | wait time =>
      obtain rfl := Option.some.inj h
      exact wait_inv hs time
  | generate answer linkToken =>
      obtain rfl := Option.some.inj h
      exact generate_inv hs answer linkToken
  | decrypt answer linkToken ciphertext =>
      obtain rfl := Option.some.inj h
      exact decrypt_inv rsa hs hl ciphertext
  | destroy answer linkToken =>
      obtain rfl := Option.some.inj h
      exact destroy_inv hs hl
  | cleanup =>
      obtain rfl := Option.some.inj h
      exact cleanup_inv hs

theorem dies_of_served (rsa : Nat → Bytes → Option String) (now : Nat) {history : List Label}
    {s : State} (hserved : Runs.Along (step rsa) Served (start now) history)
    (h : Runs.exec (step rsa) (start now) history = some s) : DiesOnUseAndAge s := by
  have hinv := Runs.invariant_along (I := Inv) (step_inv rsa) (init_inv now) hserved h
  exact hinv.opened

/-- A key that opens what carries its number, followed by the text. -/
def numbered (serial : Nat) (ciphertext : Bytes) : Option String :=
  match ciphertext with
  | [] => none
  | n :: text => if n.toNat = serial then Bytes.utf8? text else none

def redisUp : Answer := ⟨.connected, .done⟩

def redisDown : Answer := ⟨.unavailable, .failed⟩

/-- A credential is decrypted with a key in Redis, which is destroyed; the next
key is kept in memory, and the one after a cleanup as well. -/
def usedTwice : List Label :=
  [.generate redisUp "link-1", .wait 599000, .decrypt redisUp "link-1" [0, 97],
    .destroy redisUp "link-1", .decrypt redisUp "link-1" [0, 97],
    .generate redisDown "link-1", .wait 600000, .decrypt redisDown "link-1" [1, 98],
    .wait 1, .cleanup, .decrypt redisDown "link-1" [1, 98]]

theorem usedTwice_dies :
    ∃ s, Runs.exec (step numbered) (start 0) usedTwice = some s ∧
      s.opened.map (·.key.serial) = [0, 1] ∧ DiesOnUseAndAge s := by
  have hrun : (Runs.exec (step numbered) (start 0) usedTwice).map
      (fun s => s.opened.map (·.key.serial)) = some [0, 1] := by decide +kernel
  rcases Option.map_eq_some_iff.mp hrun with ⟨s, hs, hopened⟩
  have hserved : Runs.Along (step numbered) Served (start 0) usedTwice := by decide +kernel
  exact ⟨s, hs, hopened, dies_of_served numbered 0 hserved hs⟩

/-- A key made while Redis is down is used when it is older than 600 seconds. -/
def keptInMemory : List Label :=
  [.generate redisDown "link-1", .wait 601000, .decrypt redisDown "link-1" [0, 97]]

/-- A key is used after its destruction, which Redis did not hear of. -/
def destroyedWhileDown : List Label :=
  [.generate redisUp "link-1", .decrypt redisUp "link-1" [0, 97], .destroy redisDown "link-1",
    .decrypt redisUp "link-1" [0, 97]]

theorem keptInMemory_outlives_destroyedWhileDown_survives :
    (∃ s, Runs.exec (step numbered) (start 0) keptInMemory = some s ∧ ¬ DiesOnUseAndAge s) ∧
      ∃ s, Runs.exec (step numbered) (start 0) destroyedWhileDown = some s ∧
        ¬ DiesOnUseAndAge s := by
  have hkept : (Runs.exec (step numbered) (start 0) keptInMemory).map (·.opened) =
      some [⟨"link-1", ⟨0, 0⟩, 601000, 0⟩] := by decide +kernel
  have hdestroyed : (Runs.exec (step numbered) (start 0) destroyedWhileDown).map (·.opened) =
      some [⟨"link-1", ⟨0, 0⟩, 0, 0⟩, ⟨"link-1", ⟨0, 0⟩, 0, 1⟩] := by decide +kernel
  rcases Option.map_eq_some_iff.mp hkept with ⟨s, hs, hopened⟩
  rcases Option.map_eq_some_iff.mp hdestroyed with ⟨t, ht, hopened'⟩
  refine ⟨⟨s, hs, ?_⟩, ⟨t, ht, ?_⟩⟩
  · intro hdies
    have hage := (hdies ⟨"link-1", ⟨0, 0⟩, 601000, 0⟩ (by rw [hopened]; simp)).1
    revert hage
    decide
  · intro hdies
    have hused := (hdies ⟨"link-1", ⟨0, 0⟩, 0, 1⟩ (by rw [hopened']; simp)).2
    revert hused
    decide

/-! ## Resolving credentials -/

/-- The encrypted branch goes by the steps of a history. -/
theorem resolveEncrypted_run (rsa : Nat → Bytes → Option String)
    (b64decode : String → Except String Bytes) (s : State) (a₁ a₂ a₃ : Answer)
    (linkToken encUser encPass : String) :
    ∃ history, Runs.exec (step rsa) s history =
      some (resolveEncrypted rsa b64decode s a₁ a₂ a₃ linkToken encUser encPass).2 := by
  unfold resolveEncrypted
  cases b64decode encUser with
  | error text => exact ⟨[], rfl⟩
  | ok user =>
      cases b64decode encPass with
      | error text => exact ⟨[], rfl⟩
      | ok pass =>
          dsimp only
          rcases decrypt_cases rsa s a₁ linkToken user with ⟨e, heq⟩ | ⟨key, text, -, heq⟩
          · rw [heq]
            exact ⟨[], rfl⟩
          rw [heq]
          dsimp only
          rcases decrypt_cases rsa _ a₂ linkToken pass with ⟨e, heq₂⟩ | ⟨key₂, text₂, -, heq₂⟩
          · rw [heq₂]
            refine ⟨[.decrypt a₁ linkToken user], ?_⟩
            simp only [Runs.exec, step, heq, Option.bind_some]
          · rw [heq₂]
            refine ⟨[.decrypt a₁ linkToken user, .decrypt a₂ linkToken pass,
              .destroy a₃ linkToken], ?_⟩
            simp only [Runs.exec, step, heq, heq₂, Option.bind_some]
            split <;> rfl

/-- So does `resolve_credentials`, whose other branches look at no key. -/
theorem resolveCredentials_run (rsa : Nat → Bytes → Option String)
    (b64decode : String → Except String Bytes) (s : State) (a₁ a₂ a₃ : Answer)
    (body : Credentials) :
    ∃ history, Runs.exec (step rsa) s history =
      some (resolveCredentials rsa b64decode s a₁ a₂ a₃ body).2 := by
  unfold resolveCredentials
  split
  · exact resolveEncrypted_run rsa b64decode s a₁ a₂ a₃ _ _ _
  · split
    · exact ⟨[], rfl⟩
    · exact ⟨[], rfl⟩

/-- Credentials that were resolved with a destruction that reached the stores
are resolved only once: no key of the token is left. -/
theorem resolveEncrypted_once (rsa : Nat → Bytes → Option String)
    (b64decode : String → Except String Bytes) {s t : State} {a₁ a₂ a₃ : Answer}
    {linkToken encUser encPass : String} {credentials : String × String}
    (h : resolveEncrypted rsa b64decode s a₁ a₂ a₃ linkToken encUser encPass = (.ok credentials, t))
    (hreached : a₃.executes = true) (a : Answer) :
    ∀ key, getPrivateKey t a linkToken ≠ .ok (some key) := by
  have hdestroyed : ∃ s', t = destroySessionKey s' a₃ linkToken := by
    unfold resolveEncrypted at h
    split at h
    · cases h
    · cases h
    · split at h
      · cases h
      · split at h
        · cases h
        · rename_i s' _
          dsimp only at h
          split at h
          · cases h
          · exact ⟨s', ((Prod.mk.inj h).2).symm⟩
  rcases hdestroyed with ⟨s', rfl⟩
  have hclient : a₃.client ≠ .required := by
    intro hrequired
    simp [Answer.executes, hrequired] at hreached
  have hboth : Reached s' a₃ linkToken := ⟨.inr hreached, .inr hclient⟩
  rcases destroy_reached hboth with ⟨hredis, hmemory⟩
  intro key hkey
  rcases getPrivateKey_found hkey with hfound | ⟨-, e, he, -⟩
  · unfold redisKey at hfound
    rw [(destroy_frame s' a₃ linkToken).1, hredis] at hfound
    split at hfound <;> cases hfound
  · rw [hmemory] at he
    cases he

end Plaidify.SessionKeys
