import Plaidify.Lib.Capacity
import Plaidify.SessionStore.Calls
import Std.Data.String.ToNat

/-!
# The room in the in-memory stores

Each dictionary of `src/src/session_store.py` has a maximum. Before a function
assigns a key it drops what is over the maximum already, so that the new entry may be
one too many: a store holds its maximum after every call exactly if no new key comes
into a full store (`keepsRoom_iff`), and never more than one entry beyond it
(`length_keys_le_succ`).
-/

namespace Plaidify.SessionStore

open Links (ScopeStore ScopeEntry maxMemLinkScopes)
open Capacity

/-! ## Stores and their keys -/

/-- The dictionaries of the process. -/
inductive Store where
  | linkSessions
  | linkScopes
  | linkRefreshSchedules
  | linkLaunchBootstraps
  | webhookDeliveries
deriving DecidableEq

/-- How many entries a dictionary may have. -/
def Store.max : Store → Nat
  | linkSessions => maxMemLinkSessions
  | linkScopes => maxMemLinkScopes
  | linkRefreshSchedules => maxMemLinkScopes
  | linkLaunchBootstraps => maxMemLinkLaunchBootstraps
  | webhookDeliveries => maxMemWebhookDeliveries

/-- The keys of a store, in the order of the dictionary. -/
def Memory.keys (m : Memory) : Store → List String
  | .linkSessions => m.linkSessions.rows.map (·.linkToken)
  | .linkScopes => m.linkScopes.entries.rows.map (·.linkToken)
  | .linkRefreshSchedules => m.linkRefreshSchedules.entries.rows.map (·.linkToken)
  | .linkLaunchBootstraps => m.linkLaunchBootstraps.rows.map (·.launchId)
  | .webhookDeliveries => m.webhookDeliveries.rows.map (·.webhookId)

/-- The store that a call is about. -/
def StoreCall.store : StoreCall → Store
  | .createLinkSession _ _ | .getLinkSession _ | .updateLinkSession _ _ | .deleteLinkSession _
  | .appendLinkSessionEvent _ _ => .linkSessions
  | .setLinkScopes _ _ | .popLinkScopes _ => .linkScopes
  | .setLinkRefreshSchedule _ _ | .popLinkRefreshSchedule _ => .linkRefreshSchedules
  | .storeLinkLaunchBootstrap _ _ | .consumeLinkLaunchBootstrap _ => .linkLaunchBootstraps
  | .addWebhookDelivery _ _ | .getWebhookDeliveries _ | .deleteWebhookDeliveries _ =>
      .webhookDeliveries

/-- The entry that a call writes. -/
def StoreCall.sets : StoreCall → Option (Store × String)
  | .createLinkSession linkToken _ => some (.linkSessions, linkToken)
  | .setLinkScopes linkToken _ => some (.linkScopes, linkToken)
  | .setLinkRefreshSchedule linkToken _ => some (.linkRefreshSchedules, linkToken)
  | .storeLinkLaunchBootstrap launchId _ => some (.linkLaunchBootstraps, launchId)
  | .addWebhookDelivery webhookId _ => some (.webhookDeliveries, webhookId)
  | _ => none

/-- The store that a call makes room in. -/
def StoreCall.trims : StoreCall → Option Store
  | .consumeLinkLaunchBootstrap _ => some .linkLaunchBootstraps
  | call => call.sets.map Prod.fst

/-- The key that a call removes. -/
def StoreCall.removes : StoreCall → Option (Store × String)
  | .deleteLinkSession linkToken => some (.linkSessions, linkToken)
  | .popLinkScopes linkToken => some (.linkScopes, linkToken)
  | .popLinkRefreshSchedule linkToken => some (.linkRefreshSchedules, linkToken)
  | .deleteWebhookDeliveries webhookId => some (.webhookDeliveries, webhookId)
  | _ => none

/-- The keys that a call would leave if there were room for all of them: those that have
not run out, where it looks for such, without the one that it removes. -/
def Memory.survivors (m : Memory) (now : Nat) (call : StoreCall) (store : Store) : List String :=
  match call, store with
  | .createLinkSession _ _, .linkSessions =>
      (unexpiredSessions m.linkSessions now).rows.map (·.linkToken)
  | .storeLinkLaunchBootstrap _ _, .linkLaunchBootstraps
  | .consumeLinkLaunchBootstrap _, .linkLaunchBootstraps =>
      (unexpiredBootstraps m.linkLaunchBootstraps now).rows.map (·.launchId)
  | call, store =>
      match call.removes with
      | some (removed, key) =>
          if removed = store then (m.keys store).filter (· ≠ key) else m.keys store
      | none => m.keys store

/-! ## Runs -/

/-- The stores, with the number of the write that each key was written by last. -/
structure Watched where
  now : Nat
  memory : Memory
  /-- History variable: the calls so far. -/
  calls : Nat
  /-- History variable. -/
  written : Store → String → Nat

/-- Note the write of a call. -/
def noteWrite (written : Store → String → Nat) (number : Nat) :
    Option (Store × String) → Store → String → Nat
  | some (store, key) => Function.update written store (Function.update (written store) key number)
  | none => written

/-- A call, with a note of what it wrote. -/
def Watched.call (s : Watched) (call : StoreCall) : Watched where
  now := s.now
  memory := (s.memory.call s.now call).2
  calls := s.calls + 1
  written := noteWrite s.written (s.calls + 1) call.sets

/-- One step of the watched store. -/
def watchStep (s : Watched) : StoreLabel → Option Watched
  | .call call => some (s.call call)
  | .wait time => some { s with now := s.now + time }

/-- A new process. -/
def startWatched (now : Nat) : Watched where
  now := now
  memory := (startBoth now).memory
  calls := 0
  written := fun _ _ => 0

/-- A key is dropped for lack of room. -/
def Dropped (s : Watched) (call : StoreCall) (store : Store) (key : String) : Prop :=
  key ∈ s.memory.survivors s.now call store ∧ key ∉ (s.call call).memory.keys store

/-- What a call should leave: no store beyond its maximum, the entry that it wrote, and
of the entries that there is no room for none that was written after one that stays. -/
structure KeptBy (s : Watched) (call : StoreCall) : Prop where
  bounded : ∀ store, ((s.call call).memory.keys store).length ≤ store.max
  present : ∀ store key, call.sets = some (store, key) →
    key ∈ (s.call call).memory.keys store
  oldest : ∀ store key, Dropped s call store key →
    ∀ kept ∈ (s.call call).memory.keys store,
      (s.call call).written store key ≤ (s.call call).written store kept

/-- A call leaves what it should, and time passes. -/
def KeepsRoom (s : Watched) : StoreLabel → Prop
  | .call call => KeptBy s call
  | .wait _ => True

/-- The key that a call writes is there already, or there is room for it. -/
def Roomy (s : Watched) : StoreLabel → Prop
  | .call call => ∀ store key, call.sets = some (store, key) →
      key ∈ s.memory.survivors s.now call store ∨
        (s.memory.survivors s.now call store).length < store.max
  | .wait _ => True

/-! ## Assigning and evicting -/

section

variable {α : Type} {key : α → String}

/-- An assignment keeps the place of its key, or adds it at the end. -/
theorem map_key_assign (t : Table α key) (a : α) :
    (t.assign a).rows.map key = insertKey (t.rows.map key) (key a) := by
  unfold Table.assign insertKey
  cases hinsert : t.insert? a with
  | none =>
    have hmem : key a ∈ t.rows.map key := by
      by_contra hnot
      rw [Table.insert?, dif_neg hnot] at hinsert
      cases hinsert
    rw [Option.getD_none, Table.put_rows, Table.map_key_overwrite, if_pos hmem]
  | some t' =>
    obtain ⟨hnew, hrows⟩ := Table.insert?_eq_some hinsert
    rw [Option.getD_some, hrows, if_neg hnew, List.map_append, List.map_singleton]

/-- A deletion takes its key away. -/
theorem map_key_delete (t : Table α key) (k : String) :
    (t.delete fun a => key a == k).rows.map key = (t.rows.map key).filter (· ≠ k) := by
  rw [Table.delete_rows, List.filter_map]
  refine congrArg (List.map key) (List.filter_congr fun a _ => ?_)
  by_cases h : key a = k
  · simp [h]
  · simp [h]

/-- Evicting from the front drops the first keys beyond the maximum. -/
theorem evictFirst_trims (max : Nat) (t : Table α key) :
    Trims max (t.rows.map key) ((evictFirst max t).rows.map key) := by
  have htrims := trims_drop max (t.rows.map key)
  rw [List.length_map] at htrims
  unfold evictFirst
  split
  · rw [Table.drop_rows, List.map_drop]
    exact htrims
  · next hle =>
    rwa [Nat.sub_eq_zero_of_le (by omega), List.drop_zero] at htrims

/-- By their creation. -/
def sorted (createdAt : α → Nat) (rows : List α) : List α :=
  rows.mergeSort fun a b => decide (createdAt a ≤ createdAt b)

/-- Sorting loses nothing. -/
theorem sorted_perm (createdAt : α → Nat) (rows : List α) : (sorted createdAt rows).Perm rows :=
  List.mergeSort_perm rows _

/-- The older entries stand in front. -/
theorem sorted_pairwise (createdAt : α → Nat) (rows : List α) :
    (sorted createdAt rows).Pairwise fun a b => createdAt a ≤ createdAt b := by
  have htrans : ∀ a b c : α, decide (createdAt a ≤ createdAt b) = true →
      decide (createdAt b ≤ createdAt c) = true → decide (createdAt a ≤ createdAt c) = true := by
    intro a b c hab hbc
    rw [decide_eq_true_eq] at hab hbc ⊢
    omega
  have htotal : ∀ a b : α,
      (decide (createdAt a ≤ createdAt b) || decide (createdAt b ≤ createdAt a)) = true := by
    intro a b
    rw [Bool.or_eq_true, decide_eq_true_eq, decide_eq_true_eq]
    omega
  exact (List.pairwise_mergeSort htrans htotal rows).imp fun h => of_decide_eq_true h

/-- What an eviction by age keeps are the youngest rows. -/
theorem evictOldest_perm {createdAt : α → Nat} {max : Nat} {t : Table α key}
    (hfull : max < t.rows.length) :
    (evictOldest createdAt max t).rows.Perm
      ((sorted createdAt t.rows).drop (t.rows.length - max)) := by
  have hperm := sorted_perm createdAt t.rows
  have hnodup : ((sorted createdAt t.rows).map key).Nodup :=
    (hperm.map key).nodup_iff.mpr t.nodup
  unfold evictOldest
  rw [if_pos hfull, Table.delete_rows]
  show (t.rows.filter fun a =>
    !(((sorted createdAt t.rows).map key).take (t.rows.length - max)).contains (key a)).Perm _
  refine (hperm.symm.filter _).trans (List.Perm.of_eq ?_)
  generalize sorted createdAt t.rows = rows at hnodup ⊢
  generalize t.rows.length - max = n
  -- the keys are distinct, so that the first rows go and the others stay
  conv_lhs => arg 2; rw [← List.take_append_drop n rows]
  rw [List.filter_append]
  have hsplit : (rows.map key).take n ++ (rows.map key).drop n = rows.map key :=
    List.take_append_drop n (rows.map key)
  rw [← hsplit] at hnodup
  have hdisjoint := (List.nodup_append.mp hnodup).2.2
  have hgone : (rows.take n).filter (fun a => !((rows.map key).take n).contains (key a)) = [] := by
    refine List.filter_eq_nil_iff.mpr fun a ha => ?_
    have hmem : key a ∈ (rows.map key).take n := by
      rw [← List.map_take]
      exact List.mem_map_of_mem ha
    simpa using hmem
  have hstay : (rows.drop n).filter (fun a => !((rows.map key).take n).contains (key a)) =
      rows.drop n := by
    refine List.filter_eq_self.mpr fun a ha => ?_
    have hmem : key a ∈ (rows.map key).drop n := by
      rw [← List.map_drop]
      exact List.mem_map_of_mem ha
    have hnot : key a ∉ (rows.map key).take n := fun hin => hdisjoint _ hin _ hmem rfl
    simpa using hnot
  rw [hgone, hstay, List.nil_append]

end

/-- Evicting the oldest drops the keys beyond the maximum. -/
theorem evictOldest_trims {α : Type} {key : α → String} (createdAt : α → Nat) (max : Nat)
    (t : Table α key) :
    Trims max (t.rows.map key) ((evictOldest createdAt max t).rows.map key) := by
  by_cases hfull : max < t.rows.length
  · refine ⟨?_, ?_, ?_⟩
    · unfold evictOldest
      rw [if_pos hfull]
      exact List.filter_sublist.map key
    · rw [List.length_map, (evictOldest_perm hfull).length_eq, List.length_drop,
        (sorted_perm createdAt t.rows).length_eq]
      omega
    · intro hle
      rw [List.length_map] at hle
      omega
  · have hsame : evictOldest createdAt max t = t := evictOldest_of_le createdAt (by omega)
    rw [hsame]
    refine ⟨List.Sublist.refl _, ?_, fun _ => rfl⟩
    rw [List.length_map]
    omega

/-- An eviction by age drops no row that was created after one that it keeps. -/
theorem evictOldest_oldest {α : Type} {key : α → String} {createdAt : α → Nat} {max : Nat}
    {t : Table α key} {a b : α} (ha : a ∈ t.rows) (hdropped : a ∉ (evictOldest createdAt max t).rows)
    (hb : b ∈ (evictOldest createdAt max t).rows) : createdAt a ≤ createdAt b := by
  by_cases hfull : max < t.rows.length
  · have hperm : (evictOldest createdAt max t).rows.Perm _ := evictOldest_perm hfull
    have hpairwise := sorted_pairwise createdAt t.rows
    rw [← List.take_append_drop (t.rows.length - max) (sorted createdAt t.rows)] at hpairwise
    have hfirst : a ∈ (sorted createdAt t.rows).take (t.rows.length - max) := by
      have hmem := (sorted_perm createdAt t.rows).mem_iff.mpr ha
      rw [← List.take_append_drop (t.rows.length - max) (sorted createdAt t.rows)] at hmem
      exact (List.mem_append.mp hmem).resolve_right fun h => hdropped (hperm.mem_iff.mpr h)
    exact (List.pairwise_append.mp hpairwise).2.2 a hfirst b (hperm.mem_iff.mp hb)
  · rw [evictOldest_of_le createdAt (by omega)] at hdropped
    exact absurd ha hdropped

/-- The first keys make room for the one that is set. -/
theorem set_keys {store : ScopeStore} (hbackend : store.backend = .memory) (now : Nat)
    (linkToken text : String) :
    (store.set now linkToken text).entries.rows.map (·.linkToken) =
      insertKey ((store.entries.rows.map (·.linkToken)).drop
        (store.entries.rows.length - maxMemLinkScopes)) linkToken := by
  have hevict : (ScopeStore.evictIfFull store.entries).rows =
      store.entries.rows.drop (store.entries.rows.length - maxMemLinkScopes) := by
    unfold ScopeStore.evictIfFull
    split
    · rw [Table.drop_rows]
    · rw [Nat.sub_eq_zero_of_le (by omega), List.drop_zero]
  unfold ScopeStore.set
  rw [hbackend]
  dsimp only
  rw [← List.map_drop, ← hevict]
  exact map_key_assign _ _

/-- A `set` of the scopes drops the first keys beyond the maximum. -/
theorem set_trims (store : ScopeStore) :
    Trims maxMemLinkScopes (store.entries.rows.map (·.linkToken))
      ((store.entries.rows.map (·.linkToken)).drop
        (store.entries.rows.length - maxMemLinkScopes)) := by
  have htrims := trims_drop maxMemLinkScopes (store.entries.rows.map (·.linkToken))
  rwa [List.length_map] at htrims

/-- A `pop` of the scopes takes its key away. -/
theorem pop_keys {store : ScopeStore} (hbackend : store.backend = .memory) (now : Nat)
    (linkToken : String) :
    (store.pop now linkToken).2.entries.rows.map (·.linkToken) =
      (store.entries.rows.map (·.linkToken)).filter (· ≠ linkToken) := by
  unfold ScopeStore.pop ScopeStore.peek
  cases hget : store.entries.get? linkToken with
  | none =>
    -- there is nothing to filter out
    have hnone : ∀ k ∈ store.entries.rows.map (·.linkToken), decide (k ≠ linkToken) = true := by
      intro k hk
      obtain ⟨entry, hentry, rfl⟩ := List.mem_map.mp hk
      simpa using List.find?_eq_none.mp hget entry hentry
    exact (List.filter_eq_self.mpr hnone).symm
  | some entry =>
    dsimp only
    rw [hbackend]
    dsimp only
    rw [if_neg (by simp)]
    exact map_key_delete store.entries linkToken

/-- A row that is written anew keeps the keys as they are. -/
theorem map_key_assign_of_get? {α : Type} {key : α → String} {t : Table α key} {a b : α}
    (h : t.get? (key a) = some b) : (t.assign a).rows.map key = t.rows.map key := by
  obtain ⟨hb, hkey⟩ := Table.get?_mem h
  rw [map_key_assign, insertKey, if_pos]
  rw [← hkey]
  exact List.mem_map_of_mem hb

/-! ## What a call leaves -/

/-- The stores are those of a process without Redis. -/
structure InMemory (m : Memory) : Prop where
  linkScopes : m.linkScopes.backend = .memory
  linkRefreshSchedules : m.linkRefreshSchedules.backend = .memory

/-- A `set` does not change where the scopes are. -/
theorem set_backend_eq (store : ScopeStore) (now : Nat) (linkToken text : String) :
    (store.set now linkToken text).backend = store.backend := by
  obtain ⟨backend, entries⟩ := store
  cases backend <;> rfl

/-- Neither does a `pop`. -/
theorem pop_backend_eq (store : ScopeStore) (now : Nat) (linkToken : String) :
    (store.pop now linkToken).2.backend = store.backend := by
  unfold ScopeStore.pop
  split
  · rfl
  · split <;> rfl

/-- A call stays in the process. -/
theorem InMemory.call {m : Memory} (hm : InMemory m) (now : Nat) (call : StoreCall) :
    InMemory (m.call now call).2 := by
  cases call with
  | setLinkScopes linkToken text =>
    exact ⟨(set_backend_eq _ now linkToken text).trans hm.linkScopes, hm.linkRefreshSchedules⟩
  | popLinkScopes linkToken =>
    exact ⟨(pop_backend_eq _ now linkToken).trans hm.linkScopes, hm.linkRefreshSchedules⟩
  | setLinkRefreshSchedule linkToken text =>
    exact ⟨hm.linkScopes, (set_backend_eq _ now linkToken text).trans hm.linkRefreshSchedules⟩
  | popLinkRefreshSchedule linkToken =>
    exact ⟨hm.linkScopes, (pop_backend_eq _ now linkToken).trans hm.linkRefreshSchedules⟩
  | _ => exact ⟨hm.linkScopes, hm.linkRefreshSchedules⟩

/-- The keys with the one that is written, if it is one of this store. -/
def withKey (sets : Option (Store × String)) (store : Store) (kept : List String) : List String :=
  match sets with
  | some (written, key) => if written = store then insertKey kept key else kept
  | none => kept

/-- The store that is written gets the key. -/
theorem withKey_self (store : Store) (key : String) (kept : List String) :
    withKey (some (store, key)) store kept = insertKey kept key :=
  if_pos rfl

/-- The others do not. -/
theorem withKey_of_ne {sets : Option (Store × String)} {store : Store}
    (h : ∀ key, sets ≠ some (store, key)) (kept : List String) :
    withKey sets store kept = kept := by
  unfold withKey
  split
  · next written key =>
    by_cases hsame : written = store
    · exact absurd (hsame ▸ rfl) (h key)
    · rw [if_neg hsame]
  · rfl

/-- No key is lost by it. -/
theorem subset_withKey (sets : Option (Store × String)) (store : Store) (kept : List String) :
    kept ⊆ withKey sets store kept := by
  unfold withKey
  split
  · split
    · exact subset_insertKey _ _
    · exact List.Subset.refl kept
  · exact List.Subset.refl kept

/-- The keys after a call: what there is room for of the ones that survive it, and the one
that it writes. -/
structure Leaves (m : Memory) (now : Nat) (call : StoreCall) (store : Store)
    (kept : List String) : Prop where
  trimmed : call.trims = some store → Trims store.max (m.survivors now call store) kept
  whole : call.trims ≠ some store → kept = m.survivors now call store
  keys : (m.call now call).2.keys store = withKey call.sets store kept

/-- A call leaves the keys of another store. -/
theorem leaves_other {m : Memory} {now : Nat} {call : StoreCall} {store : Store}
    (htrims : call.trims ≠ some store) (hsets : ∀ key, call.sets ≠ some (store, key))
    (hkeys : (m.call now call).2.keys store = m.survivors now call store) :
    Leaves m now call store (m.survivors now call store) := by
  exact ⟨fun h => absurd h htrims, fun _ => rfl, hkeys.trans (withKey_of_ne hsets _).symm⟩

/-- A read changes no key. -/
theorem getLinkSession_keys (entries : Table SessionEntry SessionEntry.linkToken) (now : Nat)
    (linkToken : String) :
    (Memory.getLinkSession entries now linkToken).2.rows.map (·.linkToken) =
      entries.rows.map (·.linkToken) := by
  unfold Memory.getLinkSession
  cases hget : entries.get? linkToken with
  | none => rfl
  | some entry => exact map_key_assign_of_get? hget

/-- An update changes no key. -/
theorem updateLinkSession_keys (entries : Table SessionEntry SessionEntry.linkToken)
    (linkToken : String) (updates : SessionData) :
    (Memory.updateLinkSession entries linkToken updates).2.rows.map (·.linkToken) =
      entries.rows.map (·.linkToken) := by
  unfold Memory.updateLinkSession
  cases hget : entries.get? linkToken with
  | none => rfl
  | some entry => exact map_key_assign_of_get? hget

/-- An event changes no key. -/
theorem appendLinkSessionEvent_keys (entries : Table SessionEntry SessionEntry.linkToken)
    (linkToken : String) (event : Json) :
    (Memory.appendLinkSessionEvent entries linkToken event).2.rows.map (·.linkToken) =
      entries.rows.map (·.linkToken) := by
  unfold Memory.appendLinkSessionEvent
  cases hget : entries.get? linkToken with
  | none => rfl
  | some entry =>
    dsimp only
    cases entry.session.appendEvent event with
    | none => rfl
    | some session => exact map_key_assign_of_get? hget

/-- A launch that is consumed stays in the dictionary. -/
theorem consumeLinkLaunchBootstrap_keys
    (entries : Table BootstrapEntry BootstrapEntry.launchId) (now : Nat) (launchId : String) :
    (Memory.consumeLinkLaunchBootstrap entries now launchId).2.rows.map (·.launchId) =
      (Memory.evictExpiredLinkLaunchBootstraps entries now).rows.map (·.launchId) := by
  unfold Memory.consumeLinkLaunchBootstrap
  dsimp only
  cases hget : (Memory.evictExpiredLinkLaunchBootstraps entries now).get? launchId with
  | none => rfl
  | some entry =>
    obtain ⟨-, hkey⟩ := Table.get?_mem hget
    cases hstatus : entry.status with
    | consumed => simp only [hstatus]
    | issued =>
      simp only [hstatus]
      rw [← hkey] at hget
      exact map_key_assign_of_get? hget

/-- A call leaves the keys of the stores that it is not about. -/
theorem leaves_of_ne {m : Memory} {now : Nat} {call : StoreCall} {store : Store}
    (h : call.store ≠ store) : Leaves m now call store (m.survivors now call store) := by
  have htrims : call.trims ≠ some store := by
    intro heq
    cases call <;> cases heq <;> exact h rfl
  have hsets : ∀ key, call.sets ≠ some (store, key) := by
    intro key heq
    cases call <;> cases heq <;> exact h rfl
  have hkeys : (m.call now call).2.keys store = m.survivors now call store := by
    cases call <;> cases store <;> first | rfl | exact absurd rfl h
  exact leaves_other htrims hsets hkeys

/-- A call that makes no room and writes no entry. -/
theorem leaves_reading {m : Memory} {now : Nat} {call : StoreCall} (htrims : call.trims = none)
    (hsets : call.sets = none)
    (hkeys : (m.call now call).2.keys call.store = m.survivors now call call.store) :
    Leaves m now call call.store (m.survivors now call call.store) :=
  leaves_other (by simp [htrims]) (by simp [hsets]) hkeys

/-- A call that makes room for the entry that it writes. -/
theorem leaves_writing {m : Memory} {now : Nat} {call : StoreCall} {store : Store} {key : String}
    {kept : List String} (htrims : call.trims = some store)
    (hsets : call.sets = some (store, key))
    (htrimmed : Trims store.max (m.survivors now call store) kept)
    (hkeys : (m.call now call).2.keys store = insertKey kept key) :
    Leaves m now call store kept := by
  refine ⟨fun _ => htrimmed, fun h => absurd htrims h, ?_⟩
  rw [hkeys, hsets, withKey_self]

/-- What a call does to the keys of any store. -/
theorem exists_leaves {m : Memory} (hm : InMemory m) (now : Nat) (call : StoreCall)
    (store : Store) : ∃ kept, Leaves m now call store kept := by
  by_cases h : call.store = store
  · subst h
    cases call with
    | createLinkSession linkToken data =>
      exact ⟨_, leaves_writing rfl rfl (evictOldest_trims _ _ _) (map_key_assign _ _)⟩
    | getLinkSession linkToken =>
      exact ⟨_, leaves_reading rfl rfl (getLinkSession_keys _ now linkToken)⟩
    | updateLinkSession linkToken updates =>
      exact ⟨_, leaves_reading rfl rfl (updateLinkSession_keys _ linkToken updates)⟩
    | deleteLinkSession linkToken =>
      exact ⟨_, leaves_reading rfl rfl (map_key_delete _ linkToken)⟩
    | appendLinkSessionEvent linkToken event =>
      exact ⟨_, leaves_reading rfl rfl (appendLinkSessionEvent_keys _ linkToken event)⟩
    | setLinkScopes linkToken scopesJson =>
      exact ⟨_, leaves_writing rfl rfl (set_trims m.linkScopes)
        (set_keys hm.linkScopes now linkToken scopesJson)⟩
    | popLinkScopes linkToken =>
      exact ⟨_, leaves_reading rfl rfl (pop_keys hm.linkScopes now linkToken)⟩
    | setLinkRefreshSchedule linkToken scheduleJson =>
      exact ⟨_, leaves_writing rfl rfl (set_trims m.linkRefreshSchedules)
        (set_keys hm.linkRefreshSchedules now linkToken scheduleJson)⟩
    | popLinkRefreshSchedule linkToken =>
      exact ⟨_, leaves_reading rfl rfl (pop_keys hm.linkRefreshSchedules now linkToken)⟩
    | storeLinkLaunchBootstrap launchId expiresIn =>
      exact ⟨_, leaves_writing rfl rfl (evictOldest_trims _ _ _) (map_key_assign _ _)⟩
    | consumeLinkLaunchBootstrap launchId =>
      exact ⟨_, fun _ => evictOldest_trims _ _ _, fun h => absurd rfl h,
        consumeLinkLaunchBootstrap_keys _ now launchId⟩
    | addWebhookDelivery webhookId delivery =>
      exact ⟨_, leaves_writing rfl rfl (evictFirst_trims _ _) (map_key_assign _ _)⟩
    | getWebhookDeliveries webhookId => exact ⟨_, leaves_reading rfl rfl rfl⟩
    | deleteWebhookDeliveries webhookId =>
      exact ⟨_, leaves_reading rfl rfl (map_key_delete _ webhookId)⟩
  · exact ⟨_, leaves_of_ne h⟩

/-- What a call finds are keys that were there. -/
theorem survivors_sublist (m : Memory) (now : Nat) (call : StoreCall) (store : Store) :
    List.Sublist (m.survivors now call store) (m.keys store) := by
  unfold Memory.survivors
  split
  · exact List.filter_sublist.map _
  · exact List.filter_sublist.map _
  · exact List.filter_sublist.map _
  · split
    · split
      · exact List.filter_sublist
      · exact List.Sublist.refl _
    · exact List.Sublist.refl _

/-! ## Bounds -/

/-- No dictionary is beyond its maximum. -/
def Bounded (m : Memory) : Prop :=
  ∀ store, (m.keys store).length ≤ store.max

/-- From stores that hold no more than their maximum nothing is dropped. -/
theorem keys_of_bounded {m : Memory} (hm : InMemory m) (hbounded : Bounded m) (now : Nat)
    (call : StoreCall) (store : Store) :
    (m.survivors now call store).length ≤ store.max ∧
      (m.call now call).2.keys store =
        withKey call.sets store (m.survivors now call store) := by
  have hlength : (m.survivors now call store).length ≤ store.max :=
    (survivors_sublist m now call store).length_le.trans (hbounded store)
  obtain ⟨kept, hleaves⟩ := exists_leaves hm now call store
  have hkept : kept = m.survivors now call store := by
    by_cases htrims : call.trims = some store
    · exact (hleaves.trimmed htrims).fits hlength
    · exact hleaves.whole htrims
  refine ⟨hlength, ?_⟩
  rw [hleaves.keys, hkept]

/-- A call leaves what it should just if it finds room. -/
theorem keptBy_iff {s : Watched} (hm : InMemory s.memory) (hbounded : Bounded s.memory)
    (call : StoreCall) : KeptBy s call ↔ Roomy s (.call call) := by
  constructor
  · intro h store key hsets
    obtain ⟨hlength, hkeys⟩ := keys_of_bounded hm hbounded s.now call store
    have hle : (withKey call.sets store (s.memory.survivors s.now call store)).length ≤
        store.max := hkeys ▸ h.bounded store
    rw [hsets, withKey_self] at hle
    exact (length_insertKey_le_iff hlength key).mp hle
  · intro hroomy
    have hkeys : ∀ store, (s.call call).memory.keys store =
        withKey call.sets store (s.memory.survivors s.now call store) := fun store =>
      (keys_of_bounded hm hbounded s.now call store).2
    refine ⟨?_, ?_, ?_⟩
    · intro store
      have hlength := (keys_of_bounded hm hbounded s.now call store).1
      rw [hkeys]
      by_cases hsets : ∃ key, call.sets = some (store, key)
      · obtain ⟨key, hsets⟩ := hsets
        rw [hsets, withKey_self]
        exact (length_insertKey_le_iff hlength key).mpr (hroomy store key hsets)
      · rw [withKey_of_ne (not_exists.mp hsets)]
        exact hlength
    · intro store key hsets
      rw [hkeys, hsets, withKey_self]
      exact mem_insertKey _ key
    · -- nothing is dropped
      rintro store key ⟨hsurvives, hgone⟩
      rw [hkeys] at hgone
      exact absurd (subset_withKey _ _ _ hsurvives) hgone

/-- The stores are orderly after every call of a run exactly if every call finds room for
the key that it writes. -/
theorem keepsRoom_iff (now : Nat) (run : List StoreLabel) :
    Runs.Along watchStep KeepsRoom (startWatched now) run ↔
      Runs.Along watchStep Roomy (startWatched now) run := by
  have hsame : ∀ s l, InMemory s.memory ∧ Bounded s.memory → (KeepsRoom s l ↔ Roomy s l) := by
    rintro s l ⟨hm, hbounded⟩
    cases l with
    | call call => exact keptBy_iff hm hbounded call
    | wait time => exact Iff.rfl
  have hstep : ∀ s l t, InMemory s.memory ∧ Bounded s.memory → KeepsRoom s l →
      watchStep s l = some t → InMemory t.memory ∧ Bounded t.memory := by
    rintro s l t ⟨hm, hbounded⟩ hkept h
    cases l with
    | call call =>
      obtain rfl := Option.some.inj h
      exact ⟨hm.call s.now call, hkept.bounded⟩
    | wait time =>
      obtain rfl := Option.some.inj h
      exact ⟨hm, hbounded⟩
  have hstart : InMemory (startWatched now).memory ∧ Bounded (startWatched now).memory := by
    refine ⟨⟨rfl, rfl⟩, fun store => ?_⟩
    cases store <;> exact Nat.zero_le _
  exact Runs.along_congr_kept hstep hsame hstart

/-- No store ever holds more than one entry beyond its maximum. -/
theorem length_keys_le_succ {now : Nat} {run : List StoreLabel} {s : Watched}
    (h : Runs.exec watchStep (startWatched now) run = some s) (store : Store) :
    (s.memory.keys store).length ≤ store.max + 1 := by
  have hstep : ∀ s l t,
      (InMemory s.memory ∧ ∀ store, (s.memory.keys store).length ≤ store.max + 1) →
      watchStep s l = some t →
      InMemory t.memory ∧ ∀ store, (t.memory.keys store).length ≤ store.max + 1 := by
    rintro s l t ⟨hm, hle⟩ h
    cases l with
    | call call =>
      obtain rfl := Option.some.inj h
      refine ⟨hm.call s.now call, fun store => ?_⟩
      obtain ⟨kept, hleaves⟩ := exists_leaves hm s.now call store
      show ((s.memory.call s.now call).2.keys store).length ≤ store.max + 1
      rw [hleaves.keys]
      by_cases hsets : ∃ key, call.sets = some (store, key)
      · -- a call that writes has made room
        obtain ⟨key, hsets⟩ := hsets
        have htrims : call.trims = some store := by
          cases call <;> cases hsets <;> rfl
        have hkept := (hleaves.trimmed htrims).length_le
        rw [hsets, withKey_self]
        exact (length_insertKey_le kept key).trans (by omega)
      · rw [withKey_of_ne (not_exists.mp hsets)]
        by_cases htrims : call.trims = some store
        · exact (hleaves.trimmed htrims).length_le.trans (Nat.le_succ _)
        · rw [hleaves.whole htrims]
          exact (survivors_sublist s.memory s.now call store).length_le.trans (hle store)
    | wait time =>
      obtain rfl := Option.some.inj h
      exact ⟨hm, hle⟩
  have hstart : InMemory (startWatched now).memory ∧
      ∀ store, ((startWatched now).memory.keys store).length ≤ store.max + 1 := by
    refine ⟨⟨rfl, rfl⟩, fun store => ?_⟩
    cases store <;> exact Nat.zero_le _
  exact (Runs.invariant hstep hstart h).2 store

/-- An entry that is set anew keeps its place, so that it is the first to go, before all
those that were set earlier. -/
theorem rewritten_dropped {store : ScopeStore} (hbackend : store.backend = .memory)
    {now : Nat} {first new other : String} {rest : List String}
    (hkeys : store.entries.rows.map (·.linkToken) = first :: rest)
    (hfull : (first :: rest).length = maxMemLinkScopes) (hnew : new ∉ first :: rest)
    (hother : other ≠ first) (text : String) :
    first ∉ (((store.set now first text).set now new text).set now other
      text).entries.rows.map (·.linkToken) := by
  have hlength : ∀ {ks : List String} {store : ScopeStore},
      store.entries.rows.map (·.linkToken) = ks → store.entries.rows.length = ks.length := by
    rintro ks store rfl
    exact (List.length_map ..).symm
  have hnodup : (first :: rest).Nodup := hkeys ▸ store.entries.nodup
  have hagain : (store.set now first text).entries.rows.map (·.linkToken) = first :: rest := by
    rw [set_keys hbackend, hkeys, hlength hkeys, hfull, Nat.sub_self, List.drop_zero, insertKey,
      if_pos List.mem_cons_self]
  have hagainBackend := (set_backend_eq store now first text).trans hbackend
  have hadded : ((store.set now first text).set now new text).entries.rows.map (·.linkToken) =
      first :: (rest ++ [new]) := by
    rw [set_keys hagainBackend, hagain, hlength hagain, hfull, Nat.sub_self, List.drop_zero,
      insertKey, if_neg hnew]
    rfl
  have haddedBackend := (set_backend_eq _ now new text).trans hagainBackend
  have hover : (first :: (rest ++ [new])).length - maxMemLinkScopes = 1 := by
    simp only [List.length_cons, List.length_append, List.length_nil] at hfull ⊢
    omega
  rw [set_keys haddedBackend, hadded, hlength hadded, hover, List.drop_one, List.tail_cons]
  have hgone : first ∉ rest ++ [new] := by
    intro hmem
    rcases List.mem_append.mp hmem with hrest | hlast
    · exact (List.nodup_cons.mp hnodup).1 hrest
    · exact hnew (List.mem_singleton.mp hlast ▸ List.mem_cons_self)
  unfold insertKey
  split
  · exact hgone
  · intro hmem
    rcases List.mem_append.mp hmem with hin | hlast
    · exact hgone hin
    · exact hother (List.mem_singleton.mp hlast).symm

/-! ## A store that is one over -/

/-- Deliveries to `n` webhooks. -/
def deliveries (n : Nat) : List StoreLabel :=
  (List.range n).map fun i => .call (.addWebhookDelivery (toString i) .null)

theorem keys_of_deliveries {n : Nat}
    (h : Runs.Along watchStep KeepsRoom (startWatched 0) (deliveries n)) :
    ∃ s, Runs.exec watchStep (startWatched 0) (deliveries n) = some s ∧ InMemory s.memory ∧
      Bounded s.memory ∧ s.memory.keys .webhookDeliveries = (List.range n).map toString := by
  induction n with
  | zero =>
    refine ⟨startWatched 0, rfl, ⟨rfl, rfl⟩, fun store => ?_, rfl⟩
    cases store <;> exact Nat.zero_le _
  | succ n ih =>
    have hsplit : deliveries (n + 1) =
        deliveries n ++ [.call (.addWebhookDelivery (toString n) .null)] := by
      unfold deliveries
      rw [List.range_succ, List.map_append]
      rfl
    rw [hsplit] at h ⊢
    have hbefore : Runs.Along watchStep KeepsRoom (startWatched 0) (deliveries n) :=
      Runs.along_left h
    obtain ⟨s, hexec, hm, hbounded, hkeys⟩ := ih hbefore
    have hkept : KeptBy s (.addWebhookDelivery (toString n) .null) :=
      ((Runs.along_append hexec).mp h).2.1
    refine ⟨s.call (.addWebhookDelivery (toString n) .null),
      Runs.exec_append.mpr ⟨s, hexec, rfl⟩, hm.call _ _, hkept.bounded, ?_⟩
    have hnew : toString n ∉ (List.range n).map toString := by
      intro hmem
      obtain ⟨i, hi, heq⟩ := List.mem_map.mp hmem
      obtain rfl := Nat.repr_injective heq
      exact Nat.lt_irrefl i (List.mem_range.mp hi)
    have hafter := (keys_of_bounded hm hbounded s.now
      (.addWebhookDelivery (toString n) .null) .webhookDeliveries).2
    refine hafter.trans ?_
    show insertKey (s.memory.keys .webhookDeliveries) (toString n) = _
    rw [hkeys, insertKey, if_neg hnew, List.range_succ, List.map_append]
    rfl

/-- One delivery each to 5,001 webhooks. -/
theorem deliveries_overflow :
    ¬ Runs.Along watchStep KeepsRoom (startWatched 0) (deliveries 5001) := by
  have hmax : Store.max .webhookDeliveries = 5000 := rfl
  generalize hn : (5001 : Nat) = n
  intro h
  obtain ⟨s, -, -, hbounded, hkeys⟩ := keys_of_deliveries h
  have hle := hbounded .webhookDeliveries
  rw [hkeys, List.length_map, List.length_range, hmax] at hle
  omega

end Plaidify.SessionStore
