import Plaidify.SessionStore.Launches

/-!
# How often a launch token is redeemed

A launch id that was consumed stays so: its key says `consumed` until it runs
out, and is not issued anew. The script and the in-memory function look at the
key and write it in one step. A fallback writes without another look, so that a
run consumes every launch id at most once exactly when no fallback writes after
another request: `consumedOnce_iff`.
-/

namespace Plaidify.SessionStore

open Links (Backend)
open Principals (HttpError)

/-! ## The value under a launch id -/

/-- The value that the store has for a launch id, run out or not. -/
def Launches.status (s : Launches) (launchId : String) : Option Bootstrap :=
  match s.backend with
  | .redis => (s.redis.entry launchId).map (·.value)
  | .memory => (s.memory.get? launchId).map (·.status)

theorem memory_evict_status {entries : Table BootstrapEntry BootstrapEntry.launchId} {now : Nat}
    {launchId : String} {entry : BootstrapEntry}
    (h : (Memory.evictExpiredLinkLaunchBootstraps entries now).get? launchId = some entry) :
    entries.get? launchId = some entry := by
  have hunexpired := evictOldest_get? h
  exact (Table.get?_delete_eq_some.mp hunexpired).1

/-- A new launch id is the only one whose value is new. -/
theorem bootstrap_status {s t : Launches} {launchId : String} {expiresIn : Int}
    (h : writeLaunch (.bootstrap launchId expiresIn) () s = some t) :
    t.issued = s.issued ++ [launchId] ∧ t.consumed = s.consumed ∧ t.sessions = s.sessions ∧
      t.backend = s.backend ∧
      ∀ id status, t.status id = some status → id = launchId ∨ s.status id = some status := by
  obtain rfl := Option.some.inj h
  rcases s with ⟨backend, now, redis, memory, issued, consumed, sessions⟩
  cases backend with
  | redis =>
      refine ⟨rfl, rfl, rfl, rfl, ?_⟩
      intro id status hstatus
      dsimp only [Launches.status] at hstatus ⊢
      by_cases hid : id = launchId
      · exact .inl hid
      · rw [Redis.storeLinkLaunchBootstrap, Keyspace.entry_set_of_ne _ hid] at hstatus
        exact .inr hstatus
  | memory =>
      refine ⟨rfl, rfl, rfl, rfl, ?_⟩
      intro id status hstatus
      dsimp only [Launches.status] at hstatus ⊢
      rw [Memory.storeLinkLaunchBootstrap, Table.get?_assign] at hstatus
      by_cases hid : id = launchId
      · exact .inl hid
      · rw [if_neg hid] at hstatus
        rcases Option.map_eq_some_iff.mp hstatus with ⟨entry, hentry, rfl⟩
        exact .inr (Option.map_eq_some_iff.mpr ⟨entry, memory_evict_status hentry, rfl⟩)

/-- What `consume_link_launch_bootstrap` does in one step: it answers `False` and
leaves, at most, fewer keys, or finds the launch id issued and leaves it consumed. -/
theorem consumeLaunch_cases (s : Launches) (launchId : String) :
    ∃ t : Launches, (consumeLaunch s launchId).2 = t ∧ t.issued = s.issued ∧
      t.consumed = s.consumed ∧ t.sessions = s.sessions ∧ t.backend = s.backend ∧
      (((consumeLaunch s launchId).1 = false ∧
          ∀ id status, t.status id = some status → s.status id = some status) ∨
        ((consumeLaunch s launchId).1 = true ∧ s.status launchId = some .issued ∧
          ∀ id status, t.status id = some status →
            (id = launchId ∧ status = .consumed) ∨
              (id ≠ launchId ∧ s.status id = some status))) := by
  refine ⟨_, rfl, ?_⟩
  rcases s with ⟨backend, now, redis, memory, issued, consumed, sessions⟩
  cases backend with
  | redis =>
      dsimp only [consumeLaunch, Launches.status]
      unfold Redis.consumeScript
      split
      · -- no such key
        exact ⟨rfl, rfl, rfl, rfl, .inl ⟨rfl, fun _ _ h => h⟩⟩
      · -- a key that is consumed
        exact ⟨rfl, rfl, rfl, rfl, .inl ⟨rfl, fun _ _ h => h⟩⟩
      · rename_i hget
        -- the key was issued, and the script sets it to consumed
        rcases Keyspace.get_eq_some.mp hget with ⟨e, he, -, hvalue⟩
        refine ⟨rfl, rfl, rfl, rfl, .inr ⟨rfl, ?_, ?_⟩⟩
        · rw [he, Option.map_some, hvalue]
        · intro id status hstatus
          dsimp only at hstatus
          -- the key of this launch, or another one
          by_cases hid : id = launchId
          · subst hid
            rw [Keyspace.entry_set_self] at hstatus
            exact .inl ⟨rfl, (Option.some.inj hstatus).symm⟩
          · rw [Keyspace.entry_set_of_ne _ hid] at hstatus
            exact .inr ⟨hid, hstatus⟩
  | memory =>
      dsimp only [consumeLaunch, Launches.status]
      -- what is left after the eviction was there before
      have hevict : ∀ id status,
          ((Memory.evictExpiredLinkLaunchBootstraps memory now).get? id).map (·.status) =
            some status → (memory.get? id).map (·.status) = some status := by
        intro id status hstatus
        rcases Option.map_eq_some_iff.mp hstatus with ⟨entry, hentry, rfl⟩
        exact Option.map_eq_some_iff.mpr ⟨entry, memory_evict_status hentry, rfl⟩
      unfold Memory.consumeLinkLaunchBootstrap
      dsimp only
      split
      · -- the launch is not there, or has run out
        exact ⟨rfl, rfl, rfl, rfl, .inl ⟨rfl, hevict⟩⟩
      · rename_i entry hentry
        split
        · -- it was consumed before
          exact ⟨rfl, rfl, rfl, rfl, .inl ⟨rfl, hevict⟩⟩
        · rename_i hissued
          -- it was issued
          have hkey : entry.launchId = launchId := (Table.get?_mem hentry).2
          refine ⟨rfl, rfl, rfl, rfl, .inr ⟨rfl, ?_, ?_⟩⟩
          · rw [memory_evict_status hentry, Option.map_some, hissued]
          · intro id status hstatus
            dsimp only at hstatus
            rw [Table.get?_assign] at hstatus
            dsimp only at hstatus
            rw [hkey] at hstatus
            by_cases hid : id = launchId
            · rw [if_pos hid] at hstatus
              exact .inl ⟨hid, (Option.some.inj hstatus).symm⟩
            · rw [if_neg hid] at hstatus
              exact .inr ⟨hid, hevict id status hstatus⟩

/-! ## The invariant -/

/-- A launch id that was consumed is not issued. -/
structure Kept (s : Launches) : Prop where
  known : ∀ id status, s.status id = some status →
    id ∈ s.issued ∧ (id ∈ s.consumed → status = .consumed)
  consumed : ∀ id ∈ s.consumed, id ∈ s.issued
  sessions : s.sessions.Sublist s.consumed

structure LaunchInv (s : LaunchState) : Prop where
  store : Kept s.store
  /-- Only fallbacks are under way, for launch ids that were issued, under Redis. -/
  underway : ∀ a ∈ s.underway, s.store.backend = .redis ∧
    ∃ request ttl lost launchId, a.operation = .fallback request ttl lost ∧
      redeem request = .ok launchId ∧ launchId ∈ s.store.issued

theorem init_launches (backend : Backend) (now : Nat) : LaunchInv (startLaunches backend now) := by
  refine ⟨⟨?_, ?_, List.Sublist.refl _⟩, ?_⟩
  · intro id status hstatus
    cases backend <;> cases hstatus
  · intro id hid
    cases hid
  · intro a ha
    cases ha

/-- An operation that answers `False`, or does not answer. -/
theorem kept_of_fewer {s t : Launches} (hs : Kept s) (hissued : t.issued = s.issued)
    (hconsumed : t.consumed = s.consumed) (hsessions : t.sessions = s.sessions)
    (hstatus : ∀ id status, t.status id = some status →
      s.status id = some status ∨ id ∈ s.issued ∧ status = .consumed) : Kept t := by
  constructor
  · intro id status hid
    rw [hissued, hconsumed]
    rcases hstatus id status hid with hold | ⟨hknown, rfl⟩
    · exact hs.known id status hold
    · exact ⟨hknown, fun _ => rfl⟩
  · rw [hissued, hconsumed]
    exact hs.consumed
  · rw [hsessions, hconsumed]
    exact hs.sessions

theorem grantLaunch_consumed (s : Launches) (request : Exchange) (launchId : String) :
    (grantLaunch s request launchId).consumed = s.consumed ++ [launchId] := rfl

/-- An answer `True`, where the launch id is left consumed. -/
theorem kept_grantLaunch {s : Launches} (hs : Kept s) {launchId : String}
    (hissued : launchId ∈ s.issued)
    (hstatus : ∀ status, s.status launchId = some status → status = .consumed)
    (request : Exchange) : Kept (grantLaunch s request launchId) := by
  constructor
  · intro id status hid
    have hid : s.status id = some status := hid
    refine ⟨(hs.known id status hid).1, ?_⟩
    intro hconsumed
    rcases List.mem_append.mp hconsumed with hold | hnew
    · exact (hs.known id status hid).2 hold
    · rw [List.mem_singleton.mp hnew] at hid
      exact hstatus status hid
  · intro id hid
    rcases List.mem_append.mp hid with hold | hnew
    · exact hs.consumed id hold
    · rw [List.mem_singleton.mp hnew]
      exact hissued
  · unfold grantLaunch
    dsimp only
    split
    · exact hs.sessions.trans (List.sublist_append_left ..)
    · exact List.Sublist.append hs.sessions (List.Sublist.refl _)

/-! ## What the operations keep -/

/-- One more consumption keeps every launch id at most once exactly when its own
was not consumed. -/
theorem count_append_iff {consumed : List String} (h : ∀ id, consumed.count id ≤ 1)
    (launchId : String) :
    (∀ id, (consumed ++ [launchId]).count id ≤ 1) ↔ launchId ∉ consumed := by
  constructor
  · intro hall hmem
    have hone := List.count_pos_iff.mpr hmem
    have htwo := hall launchId
    rw [List.count_append, List.count_singleton_self] at htwo
    omega
  · intro hnot id
    rw [List.count_append]
    by_cases hid : id = launchId
    · subst hid
      rw [List.count_eq_zero_of_not_mem hnot, List.count_singleton_self]
    · have hzero : [launchId].count id = 0 :=
        List.count_eq_zero_of_not_mem (by simpa using hid)
      have hold := h id
      omega

/-- The consumption in one step, after which a launch id that was granted was
not granted before. -/
theorem consumeLaunch_kept {s : Launches} (hs : Kept s) (launchId : String) :
    Kept (consumeLaunch s launchId).2 ∧
      ((consumeLaunch s launchId).1 = true →
        launchId ∉ s.consumed ∧
          ∀ request, Kept (grantLaunch (consumeLaunch s launchId).2 request launchId)) := by
  rcases consumeLaunch_cases s launchId with
    ⟨t, heq, hissued, hconsumed, hsessions, -, ⟨hfalse, hstatus⟩ | ⟨-, hfound, hstatus⟩⟩
  · rw [heq, hfalse]
    refine ⟨kept_of_fewer hs hissued hconsumed hsessions ?_, fun h => by cases h⟩
    exact fun id status hid => .inl (hstatus id status hid)
  · rw [heq]
    have hknown := hs.known launchId .issued hfound
    have hkept : Kept t := by
      refine kept_of_fewer hs hissued hconsumed hsessions ?_
      intro id status hid
      rcases hstatus id status hid with ⟨rfl, rfl⟩ | ⟨-, hold⟩
      · exact .inr ⟨hknown.1, rfl⟩
      · exact .inl hold
    refine ⟨hkept, fun _ => ⟨?_, fun request => kept_grantLaunch hkept ?_ ?_ request⟩⟩
    · -- what is issued was not consumed
      intro hmem
      have himpossible := hknown.2 hmem
      cases himpossible
    · rw [hissued]
      exact hknown.1
    · intro status hid
      rcases hstatus launchId status hid with ⟨-, rfl⟩ | ⟨hne, -⟩
      · rfl
      · exact absurd rfl hne

/-- The SET of a fallback. -/
theorem fallback_kept {s : Launches} (hs : Kept s) (hbackend : s.backend = .redis)
    {launchId : String} (hissued : launchId ∈ s.issued) (expiresAt : Nat) :
    Kept { s with redis := s.redis.set launchId .consumed expiresAt } ∧
      ∀ request, Kept (grantLaunch { s with redis := s.redis.set launchId .consumed expiresAt }
        request launchId) := by
  have hstatus : ∀ id status,
      Launches.status { s with redis := s.redis.set launchId .consumed expiresAt } id = some status →
        (id = launchId ∧ status = .consumed) ∨ (id ≠ launchId ∧ s.status id = some status) := by
    intro id status hid
    simp only [Launches.status, hbackend] at hid ⊢
    by_cases heq : id = launchId
    · subst heq
      rw [Keyspace.entry_set_self] at hid
      exact .inl ⟨rfl, (Option.some.inj hid).symm⟩
    · rw [Keyspace.entry_set_of_ne _ heq] at hid
      exact .inr ⟨heq, hid⟩
  have hkept : Kept { s with redis := s.redis.set launchId .consumed expiresAt } := by
    refine kept_of_fewer hs rfl rfl rfl ?_
    intro id status hid
    rcases hstatus id status hid with ⟨rfl, rfl⟩ | ⟨-, hold⟩
    · exact .inr ⟨hissued, rfl⟩
    · exact .inl hold
  refine ⟨hkept, fun request => kept_grantLaunch hkept hissued ?_ request⟩
  intro status hid
  rcases hstatus launchId status hid with ⟨-, rfl⟩ | ⟨hne, -⟩
  · rfl
  · exact absurd rfl hne

/-- What a write may do to the history of consumptions. -/
structure Wrote (o : Operation) (s t : Launches) : Prop where
  kept : Kept t
  backend : t.backend = s.backend
  issued : ∀ id ∈ s.issued, id ∈ t.issued
  /-- Only a SET of a fallback may consume what was consumed. -/
  consumed : t.consumed = s.consumed ∧ o.returnsFor = none ∨
    ∃ launchId, t.consumed = s.consumed ++ [launchId] ∧
      (launchId ∉ s.consumed ∧ o.returnsFor = none ∨ o.returnsFor = some launchId)

theorem write_bootstrap {s t : Launches} (hs : Kept s) {launchId : String} {expiresIn : Int}
    (hnew : launchId ∉ s.issued) (h : writeLaunch (.bootstrap launchId expiresIn) () s = some t) :
    Wrote (.bootstrap launchId expiresIn) s t := by
  rcases bootstrap_status h with ⟨hissued, hconsumed, hsessions, hbackend, hstatus⟩
  refine ⟨⟨?_, ?_, ?_⟩, hbackend, ?_, .inl ⟨hconsumed, rfl⟩⟩
  · intro id status hid
    rw [hissued, hconsumed]
    rcases hstatus id status hid with rfl | hold
    · refine ⟨List.mem_append_right _ (List.mem_singleton_self _), fun hmem => ?_⟩
      exact absurd (hs.consumed id hmem) hnew
    · have hknown := hs.known id status hold
      exact ⟨List.mem_append_left _ hknown.1, hknown.2⟩
  · intro id hid
    rw [hconsumed] at hid
    rw [hissued]
    exact List.mem_append_left _ (hs.consumed id hid)
  · rw [hsessions, hconsumed]
    exact hs.sessions
  · intro id hid
    rw [hissued]
    exact List.mem_append_left _ hid

theorem write_exchange {s t : Launches} (hs : Kept s) {request : Exchange}
    (h : writeLaunch (.exchange request) () s = some t) : Wrote (.exchange request) s t := by
  unfold writeLaunch at h
  dsimp only at h
  split at h
  · cases h
  rename_i launchId _
  obtain rfl := Option.some.inj h
  rcases consumeLaunch_kept hs launchId with ⟨hkept, hgranted⟩
  rcases consumeLaunch_cases s launchId with ⟨t, heq, hissued, hconsumed, -, hbackend, -⟩
  subst heq
  have hsub : ∀ id ∈ s.issued, id ∈ (consumeLaunch s launchId).2.issued := by
    intro id hid
    rw [hissued]
    exact hid
  cases hanswer : (consumeLaunch s launchId).1 with
  | false => exact ⟨hkept, hbackend, hsub, .inl ⟨hconsumed, rfl⟩⟩
  | true =>
      rcases hgranted hanswer with ⟨hnot, hgrant⟩
      refine ⟨hgrant request, hbackend, hsub, .inr ⟨launchId, ?_, .inl ⟨hnot, rfl⟩⟩⟩
      rw [if_pos rfl, grantLaunch_consumed, hconsumed]

theorem write_scriptLost {s t : Launches} (hs : Kept s) {request : Exchange}
    (h : writeLaunch (.scriptLost request) () s = some t) : Wrote (.scriptLost request) s t := by
  unfold writeLaunch at h
  dsimp only at h
  split at h
  · cases h
  rename_i launchId _
  obtain rfl := Option.some.inj h
  rcases consumeLaunch_cases s launchId with ⟨t, heq, hissued, hconsumed, -, hbackend, -⟩
  subst heq
  refine ⟨(consumeLaunch_kept hs launchId).1, hbackend, ?_, .inl ⟨hconsumed, rfl⟩⟩
  intro id hid
  rw [hissued]
  exact hid

theorem write_fallback {s t : Launches} (hs : Kept s) (hbackend : s.backend = .redis)
    {request : Exchange} {ttl : Int} {lost : Bool} {launchId : String}
    (hredeem : redeem request = .ok launchId) (hissued : launchId ∈ s.issued)
    (h : writeLaunch (.fallback request ttl lost) () s = some t) :
    Wrote (.fallback request ttl lost) s t := by
  simp only [writeLaunch, hredeem] at h
  obtain rfl := Option.some.inj h
  rcases fallback_kept hs hbackend hissued (after s.now (max ttl 60)) with ⟨hkept, hgrant⟩
  cases lost with
  | true => exact ⟨hkept, rfl, fun _ hid => hid, .inl ⟨rfl, rfl⟩⟩
  | false =>
      refine ⟨hgrant request, rfl, fun _ hid => hid, .inr ⟨launchId, rfl, .inr ?_⟩⟩
      show (redeem request).toOption = some launchId
      rw [hredeem]
      rfl

theorem write_wait {s : Launches} (hs : Kept s) (time : Nat) :
    Wrote (.wait time) s { s with now := s.now + time } :=
  ⟨⟨hs.known, hs.consumed, hs.sessions⟩, rfl, fun _ hid => hid, .inl ⟨rfl, rfl⟩⟩

/-- What an operation in one step writes. -/
theorem once_wrote {s t : Launches} (hs : Kept s) {o : Operation}
    (hatomic : ∀ request ttl lost, o ≠ .fallback request ttl lost)
    (h : launches.once o s = some t) : Wrote o s t := by
  rcases Option.bind_eq_some_iff.mp h with ⟨plan, hread, hwrite⟩
  cases o with
  | wait time =>
      obtain rfl := Option.some.inj hwrite
      exact write_wait hs time
  | bootstrap launchId expiresIn =>
      have hnew : launchId ∉ s.issued := by
        intro hold
        have hnone : readLaunch (.bootstrap launchId expiresIn) s = none := if_pos hold
        rw [show launches.read = readLaunch from rfl, hnone] at hread
        cases hread
      exact write_bootstrap hs hnew hwrite
  | exchange request => exact write_exchange hs hwrite
  | scriptLost request => exact write_scriptLost hs hwrite
  | fallback request ttl lost => exact absurd rfl (hatomic request ttl lost)

theorem readLaunch_fallback {s : Launches} (hs : Kept s) {request : Exchange} (ttl : Int)
    (lost : Bool) (h : readLaunch (.fallback request ttl lost) s = some ()) :
    s.backend = .redis ∧ ∃ launchId, redeem request = .ok launchId ∧ launchId ∈ s.issued := by
  unfold readLaunch at h
  dsimp only at h
  split at h
  · rename_i hbackend
    refine ⟨hbackend, ?_⟩
    split at h
    · cases h
    · rename_i launchId hredeem
      split at h
      · rename_i hget
        rcases Keyspace.get_eq_some.mp hget with ⟨e, he, -, -⟩
        have hstatus : s.status launchId = some e.value := by
          simp only [Launches.status, hbackend, he, Option.map_some]
        exact ⟨launchId, hredeem, (hs.known launchId e.value hstatus).1⟩
      · cases h
  · cases h

/-! ## Runs -/

theorem LaunchInv.of_wrote {s t : LaunchState} {o : Operation} (hs : LaunchInv s)
    (hwrote : Wrote o s.store t.store) (hsub : ∀ a ∈ t.underway, a ∈ s.underway) : LaunchInv t := by
  refine ⟨hwrote.kept, ?_⟩
  intro a ha
  rcases hs.underway a (hsub a ha) with
    ⟨hbackend, request, ttl, lost, launchId, hoperation, hredeem, hissued⟩
  rw [hwrote.backend]
  exact ⟨hbackend, request, ttl, lost, launchId, hoperation, hredeem, hwrote.issued _ hissued⟩

/-- What a step does: it leaves the store, or one operation writes. -/
theorem launchStep_cases {s t : LaunchState} {l : LaunchLabel} (hs : LaunchInv s)
    (h : launchStep s l = some t) :
    LaunchInv t ∧
      ((∀ party, l ≠ .set party) ∧
          (t.store = s.store ∨ ∃ o, o.returnsFor = none ∧ Wrote o s.store t.store) ∨
        ∃ party a rest, l = .set party ∧ s.next party = some (a, rest) ∧
          Wrote a.operation s.store t.store) := by
  -- an operation that is one command leaves those under way as they are
  have hatomic : ∀ o : Operation, (∀ request ttl lost, o ≠ .fallback request ttl lost) →
      launches.step s (.atomic o) = some t → LaunchInv t ∧
        (t.store = s.store ∨ ∃ o, o.returnsFor = none ∧ Wrote o s.store t.store) := by
    intro o ho hstep
    rcases Interleaving.Operations.step_atomic hstep with ⟨-, rfl⟩ | ⟨store, honce, rfl⟩
    · exact ⟨hs, .inl rfl⟩
    · have hwrote := once_wrote hs.store ho honce
      have hnone : o.returnsFor = none := by
        cases o with
        | fallback request ttl lost => exact absurd rfl (ho request ttl lost)
        | _ => rfl
      exact ⟨hs.of_wrote hwrote fun a ha => ha, .inr ⟨o, hnone, hwrote⟩⟩
  cases l with
  | wait time =>
      rcases hatomic (.wait time) (by intros; simp) h with ⟨ht, hstore⟩
      exact ⟨ht, .inl ⟨by simp, hstore⟩⟩
  | bootstrap launchId expiresIn =>
      rcases hatomic (.bootstrap launchId expiresIn) (by intros; simp) h with ⟨ht, hstore⟩
      exact ⟨ht, .inl ⟨by simp, hstore⟩⟩
  | exchange request =>
      rcases hatomic (.exchange request) (by intros; simp) h with ⟨ht, hstore⟩
      exact ⟨ht, .inl ⟨by simp, hstore⟩⟩
  | scriptLost request =>
      rcases hatomic (.scriptLost request) (by intros; simp) h with ⟨ht, hstore⟩
      exact ⟨ht, .inl ⟨by simp, hstore⟩⟩
  | get party request ttl lost =>
      rcases Interleaving.Operations.step_read h with ⟨-, rfl⟩ | ⟨plan, hread, rfl⟩
      · -- a GET that finds nothing to redeem ends the request
        exact ⟨hs, .inl ⟨by simp, .inl rfl⟩⟩
      · refine ⟨⟨hs.store, ?_⟩, .inl ⟨by simp, .inl rfl⟩⟩
        -- the one under way holds the launch that it found issued
        intro a ha
        rcases List.mem_cons.mp ha with rfl | hold
        · rcases readLaunch_fallback hs.store ttl lost hread with
            ⟨hbackend, launchId, hredeem, hissued⟩
          exact ⟨hbackend, request, ttl, lost, launchId, rfl, hredeem, hissued⟩
        · exact hs.underway a hold
  | set party =>
      rcases Interleaving.Operations.step_write h with ⟨a, rest, hnext, hwrite⟩
      have hmem := Interleaving.State.mem_of_next hnext
      rcases hs.underway a hmem with
        ⟨hbackend, request, ttl, lost, launchId, hoperation, hredeem, hissued⟩
      rcases hwrite with ⟨hrefused, -⟩ | ⟨store, hwrite, rfl⟩
      · -- the SET of a fallback is not refused
        simp [launches, writeLaunch, hoperation, hredeem] at hrefused
      · -- the SET writes the launch as consumed
        have hwrote : Wrote a.operation s.store store := by
          rw [hoperation] at hwrite ⊢
          exact write_fallback hs.store hbackend hredeem hissued hwrite
        refine ⟨hs.of_wrote hwrote fun b hb => ?_, .inr ⟨party, a, rest, rfl, hnext, hwrote⟩⟩
        exact Interleaving.State.mem_of_mem_rest hnext hb

/-- A step keeps every launch id consumed at most once exactly when it is not a
SET after another consumption. -/
theorem launchStep_once {s t : LaunchState} {l : LaunchLabel} (hs : LaunchInv s)
    (honce : ConsumedOnce s) (h : launchStep s l = some t) : ConsumedOnce t ↔ Unconsumed s l := by
  rcases (launchStep_cases hs h).2 with ⟨hother, hstore⟩ | ⟨party, a, rest, rfl, hnext, hwrote⟩
  · have hfree : Unconsumed s l := by
      cases l with
      | set party => exact absurd rfl (hother party)
      | _ => trivial
    refine iff_of_true ?_ hfree
    rcases hstore with hsame | ⟨o, hreturns, hwrote⟩
    · unfold ConsumedOnce
      rw [hsame]
      exact honce
    · rcases hwrote.consumed with ⟨hsame, -⟩ | ⟨launchId, happend, ⟨hnot, -⟩ | hfor⟩
      · unfold ConsumedOnce
        rw [hsame]
        exact honce
      · unfold ConsumedOnce
        rw [happend]
        exact (count_append_iff honce launchId).mpr hnot
      · rw [hreturns] at hfor
        cases hfor
  · simp only [Unconsumed, hnext, Option.map_some, Option.mem_some_iff, forall_eq', ConsumedOnce]
    rcases hwrote.consumed with ⟨hsame, hnone⟩ | ⟨launchId, happend, ⟨hnot, hnone⟩ | hfor⟩
    · rw [hsame, hnone]
      exact iff_of_true honce fun id hid => by cases hid
    · rw [happend, hnone]
      exact iff_of_true ((count_append_iff honce launchId).mpr hnot) fun id hid => by cases hid
    · rw [happend, hfor, count_append_iff honce launchId]
      simp

theorem consumedOnce_iff (backend : Backend) (now : Nat) {run : List LaunchLabel} {s : LaunchState}
    (h : Runs.exec launchStep (startLaunches backend now) run = some s) :
    (∀ before after t, run = before ++ after →
        Runs.exec launchStep (startLaunches backend now) before = some t → ConsumedOnce t) ↔
      Runs.Along launchStep Unconsumed (startLaunches backend now) run := by
  refine Runs.always_iff_along (I := LaunchInv) (fun s l t hs hl => (launchStep_cases hs hl).1)
    (fun s l t hs honce hl => launchStep_once hs honce hl) (init_launches backend now) ?_ h
  intro launchId
  exact Nat.zero_le 1

/-- A launch token whose id is consumed once has at most one link session. -/
theorem session_once (backend : Backend) (now : Nat) {run : List LaunchLabel} {s : LaunchState}
    (h : Runs.exec launchStep (startLaunches backend now) run = some s) (honce : ConsumedOnce s)
    (launchId : String) : s.store.sessions.count launchId ≤ 1 := by
  have hinv : LaunchInv s := Runs.invariant (I := LaunchInv)
    (fun s l t hs hl => (launchStep_cases hs hl).1) (init_launches backend now) h
  have hle := hinv.store.sessions.count_le launchId
  have hone := honce launchId
  omega

/-- A request with a token for `launch-1`. -/
def launchRequest : Exchange :=
  ⟨.ok ⟨some "launch-1", none, [], some (some 1)⟩, none⟩

/-- Two requests whose scripts fail, one after the other, and one whose script does not. -/
def redeemedInTurn : List LaunchLabel :=
  [.bootstrap "launch-1" 300, .wait 1000, .get 1 launchRequest 299 false, .set 1,
    .get 2 launchRequest 299 false, .exchange launchRequest]

theorem redeemedInTurn_once : ∃ s, Runs.exec launchStep (startLaunches .redis 0) redeemedInTurn =
      some s ∧ s.store.consumed = ["launch-1"] ∧
    ∀ before after t, redeemedInTurn = before ++ after →
      Runs.exec launchStep (startLaunches .redis 0) before = some t → ConsumedOnce t := by
  have hrun : (Runs.exec launchStep (startLaunches .redis 0) redeemedInTurn).map
      (·.store.consumed) = some ["launch-1"] := by decide +kernel
  rcases Option.map_eq_some_iff.mp hrun with ⟨s, hs, hconsumed⟩
  have halong : Runs.Along launchStep Unconsumed (startLaunches .redis 0) redeemedInTurn := by
    decide +kernel
  exact ⟨s, hs, hconsumed, (consumedOnce_iff .redis 0 hs).mpr halong⟩

/-- Both requests, whose scripts fail, get the key before either sets it. -/
def redeemedAtOnce : List LaunchLabel :=
  [.bootstrap "launch-1" 300, .wait 1000, .get 1 launchRequest 299 false,
    .get 2 launchRequest 299 false, .set 1, .set 2]

theorem redeemedAtOnce_twice : ∃ s, Runs.exec launchStep (startLaunches .redis 0) redeemedAtOnce =
    some s ∧ s.store.sessions = ["launch-1", "launch-1"] ∧ ¬ ConsumedOnce s := by
  have hrun : (Runs.exec launchStep (startLaunches .redis 0) redeemedAtOnce).map
      (fun s => (s.store.sessions, s.store.consumed)) =
        some (["launch-1", "launch-1"], ["launch-1", "launch-1"]) := by decide +kernel
  rcases Option.map_eq_some_iff.mp hrun with ⟨s, hs, heq⟩
  rcases Prod.mk.inj heq with ⟨hsessions, hconsumed⟩
  refine ⟨s, hs, hsessions, fun honce => ?_⟩
  have htwo := honce "launch-1"
  rw [hconsumed] at htwo
  revert htwo
  decide

end Plaidify.SessionStore
