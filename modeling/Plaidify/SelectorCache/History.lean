import Plaidify.Lib.Histories
import Plaidify.Lib.Separated
import Plaidify.SelectorCache.File

/-!
# What the selector cache answers

What is under a key follows from the operations so far: the last `put` of the key, if
nothing removed it since, and what was recorded of it after that (`lookup_run`). `get`
answers accordingly, in the cache that made the run and in one that starts from its
file (`get_run`).

Keys join domain and path with a slash, and a slash may stand in both: two pairs with
one key are one to the cache (`sharedKey_answers`), which does not happen as long as
the domains hold no slash (`answers_pair_iff`).
-/

namespace Plaidify.SelectorCache

open Digests Histories

variable {F : Type} (fl : Floats F) (digest : Digest) (lower : String → String)

/-! ## One key -/

/-- The entry under a key, usable or not. -/
def Cache.lookup (cache : Cache F) (key : String) : Option (CacheEntry F) :=
  (cache.store.get? key).map Prod.snd

/-- What is recorded of a key at an event changes its entry. -/
def react (key : String) (entry : CacheEntry F) (event : Event F) : CacheEntry F :=
  match event.op with
  | .recordSuccess domain pagePath =>
      if makeCacheKey digest lower domain pagePath = key then entry.recordSuccess event.now
      else entry
  | .recordFailure domain pagePath =>
      if makeCacheKey digest lower domain pagePath = key then entry.recordFailure event.now
      else entry
  | _ => entry

/-- What an operation makes of the entry under a key. -/
def effect (default : Int) (key : String) (event : Event F) (entry : Option (CacheEntry F)) :
    Option (CacheEntry F) :=
  match event.op with
  | .put p => if p.key digest lower = key then some (p.entry lower default event.now) else entry
  | .invalidate domain pagePath =>
      if makeCacheKey digest lower domain pagePath = key then none else entry
  | .invalidateDomain domain =>
      entry.filter fun entry => !(entry.domain == normalizeDomain lower domain)
  | .clear => none
  | _ => entry.map fun entry => react digest lower key entry event

/-- The file is no part of what a lookup finds. -/
theorem lookup_saveToDisk (cache : Cache F) (key : String) :
    (cache.saveToDisk fl).lookup key = cache.lookup key := by
  unfold Cache.lookup
  rw [saveToDisk_store]

/-- A `put` replaces the entry of its own key. -/
theorem lookup_put (cache : Cache F) (now : F) (p : Put F) (key : String) :
    (cache.put fl digest lower now p).1.lookup key =
      if p.key digest lower = key then some (p.entry lower cache.defaultTtl now)
      else cache.lookup key := by
  unfold Cache.put
  dsimp only
  rw [lookup_saveToDisk]
  show ((cache.store.assign _).get? key).map Prod.snd = _
  rw [Table.map_get?_assign]
  by_cases hkey : p.key digest lower = key
  · rw [if_pos hkey, if_pos hkey.symm]
  · rw [if_neg hkey, if_neg fun h => hkey h.symm]
    rfl

/-- A success or a failure is noted at its own key. -/
theorem lookup_record (change : CacheEntry F → CacheEntry F) (cache : Cache F)
    (domain pagePath key : String) :
    (cache.record fl digest lower change domain pagePath).lookup key =
      if makeCacheKey digest lower domain pagePath = key then (cache.lookup key).map change
      else cache.lookup key := by
  unfold Cache.record
  dsimp only
  split
  · rename_i entry hget
    rw [lookup_saveToDisk]
    show ((cache.store.put _).get? key).map Prod.snd = _
    rw [Table.get?_put_eq]
    by_cases hkey : makeCacheKey digest lower domain pagePath = key
    · subst hkey
      simp [Cache.lookup, hget]
    · rw [if_neg fun h => hkey h.symm, if_neg hkey]
      rfl
  · rename_i hget
    by_cases hkey : makeCacheKey digest lower domain pagePath = key
    · subst hkey
      simp [Cache.lookup, hget]
    · rw [if_neg hkey]

/-- An invalidation removes the entry of its own key. -/
theorem lookup_invalidate (cache : Cache F) (domain pagePath key : String) :
    (cache.invalidate fl digest lower domain pagePath).1.lookup key =
      if makeCacheKey digest lower domain pagePath = key then none else cache.lookup key := by
  unfold Cache.invalidate
  dsimp only
  split
  · rw [lookup_saveToDisk]
    show ((cache.store.delete _).get? key).map Prod.snd = _
    rw [Table.map_get?_delete_key]
    by_cases hkey : makeCacheKey digest lower domain pagePath = key
    · rw [if_pos hkey, if_pos hkey.symm]
    · rw [if_neg hkey, if_neg fun h => hkey h.symm]
      rfl
  · rename_i hget
    rw [Option.isSome_iff_ne_none, not_not] at hget
    by_cases hkey : makeCacheKey digest lower domain pagePath = key
    · subst hkey
      simp [Cache.lookup, hget]
    · rw [if_neg hkey]

/-- With a domain all its entries go, whatever their keys. -/
theorem lookup_invalidateDomain (cache : Cache F) (domain key : String) :
    (cache.invalidateDomain fl lower domain).1.lookup key =
      (cache.lookup key).filter fun entry => !(entry.domain == normalizeDomain lower domain) := by
  have hstore : ((cache.store.delete fun row => row.2.domain == normalizeDomain lower domain).get?
      key).map Prod.snd =
        (cache.lookup key).filter fun entry => !(entry.domain == normalizeDomain lower domain) := by
    refine Option.ext fun entry => ?_
    simp only [Option.map_eq_some_iff, Table.get?_delete_eq_some, Cache.lookup,
      Option.filter_eq_some_iff]
    aesop
  unfold Cache.invalidateDomain
  dsimp only
  split
  · -- no entry is of the domain, so that none is filtered out
    rename_i hempty
    rw [List.isEmpty_iff, List.filter_eq_nil_iff] at hempty
    show cache.lookup key = _
    unfold Cache.lookup
    cases hget : cache.store.get? key with
    | none => rfl
    | some row =>
      have hother : (row.2.domain == normalizeDomain lower domain) = false := by
        simpa using hempty row (Table.get?_mem hget).1
      simp [Option.filter, hother]
  · rw [lookup_saveToDisk]
    exact hstore

/-- What an event does to the cache it does to each key by itself. -/
theorem lookup_apply (cache : Cache F) (event : Event F) (key : String) :
    (cache.apply fl digest lower event).lookup key =
      effect digest lower cache.defaultTtl key event (cache.lookup key) := by
  obtain ⟨now, op⟩ := event
  cases op with
  | put p => exact lookup_put fl digest lower cache now p key
  | recordSuccess domain pagePath =>
    refine (lookup_record fl digest lower _ cache domain pagePath key).trans ?_
    unfold effect react
    by_cases hkey : makeCacheKey digest lower domain pagePath = key <;> simp [hkey]
  | recordFailure domain pagePath =>
    refine (lookup_record fl digest lower _ cache domain pagePath key).trans ?_
    unfold effect react
    by_cases hkey : makeCacheKey digest lower domain pagePath = key <;> simp [hkey]
  | invalidate domain pagePath => exact lookup_invalidate fl digest lower cache domain pagePath key
  | invalidateDomain domain => exact lookup_invalidateDomain fl lower cache domain key
  | clear => exact lookup_saveToDisk fl _ key

/-! ## Runs -/

/-- The last event comes on top of those before it. -/
theorem run_concat (cache : Cache F) (history : List (Event F)) (event : Event F) :
    cache.run fl digest lower (history ++ [event]) =
      (cache.run fl digest lower history).apply fl digest lower event := by
  unfold Cache.run
  rw [List.foldl_append]
  rfl

/-- The path of the file is set once. -/
theorem run_persistPath (cache : Cache F) (history : List (Event F)) :
    (cache.run fl digest lower history).persistPath = cache.persistPath := by
  induction history using List.reverseRecOn with
  | nil => rfl
  | append_singleton history event ih => rw [run_concat, apply_persistPath, ih]

/-- The default lifetime is set once as well. -/
theorem run_defaultTtl (cache : Cache F) (history : List (Event F)) :
    (cache.run fl digest lower history).defaultTtl = cache.defaultTtl := by
  induction history using List.reverseRecOn with
  | nil => rfl
  | append_singleton history event ih => rw [run_concat, apply_defaultTtl, ih]

/-- A cache that persists is on disk after every event. -/
theorem saved_run {cache : Cache F} (hpersists : cache.persists = true) (h : Saved fl cache)
    (history : List (Event F)) : Saved fl (cache.run fl digest lower history) := by
  induction history using List.reverseRecOn with
  | nil => exact h
  | append_singleton history event ih =>
    have hpath : (cache.run fl digest lower history).persists = true := by
      rw [Cache.persists, run_persistPath]
      exact hpersists
    rw [run_concat]
    exact saved_apply fl digest lower hpath ih event

/-! ### What stands of a key -/

section

variable {κ : Type} [DecidableEq κ] (ident : String → String → κ)

/-- The event takes the place of an entry that was put, or removes it. -/
def Event.ends (p : Put F) (event : Event F) : Bool :=
  match event.op with
  | .put q => decide (ident q.domain q.pagePath = ident p.domain p.pagePath)
  | .invalidate domain pagePath => decide (ident domain pagePath = ident p.domain p.pagePath)
  | .invalidateDomain domain =>
      decide (normalizeDomain lower p.domain = normalizeDomain lower domain)
  | .clear => true
  | _ => false

/-- A success is recorded of what is identified by `x`. -/
def Event.succeeds (x : κ) (event : Event F) : Bool :=
  match event.op with
  | .recordSuccess domain pagePath => decide (ident domain pagePath = x)
  | _ => false

/-- A failure is recorded of what is identified by `x`. -/
def Event.fails (x : κ) (event : Event F) : Bool :=
  match event.op with
  | .recordFailure domain pagePath => decide (ident domain pagePath = x)
  | _ => false

/-- `p` was put at `putAt` for what `x` identifies, and stands after what came `since`. -/
def Stands (x : κ) (p : Put F) (putAt : F) (since history : List (Event F)) : Prop :=
  ident p.domain p.pagePath = x ∧
    Standing (fun event => event.ends lower ident p = false) ⟨putAt, .put p⟩ since history

end

/-- The entry of a `put` stands as long as no event ends it. -/
theorem stands_concat {key : String} {p : Put F} {putAt : F} {since history : List (Event F)}
    {event : Event F} :
    Stands lower (makeCacheKey digest lower) key p putAt since (history ++ [event]) ↔
      (since = [] ∧ p.key digest lower = key ∧ event = ⟨putAt, .put p⟩) ∨
        ∃ earlier, since = earlier ++ [event] ∧
          event.ends lower (makeCacheKey digest lower) p = false ∧
          Stands lower (makeCacheKey digest lower) key p putAt earlier history := by
  unfold Stands
  rw [standing_concat]
  constructor
  · rintro ⟨hkey, ⟨rfl, rfl⟩ | ⟨earlier, hsince, hspares, hst⟩⟩
    · exact .inl ⟨rfl, hkey, rfl⟩
    · exact .inr ⟨earlier, hsince, hspares, hkey, hst⟩
  · rintro (⟨rfl, hkey, rfl⟩ | ⟨earlier, hsince, hspares, hkey, hst⟩)
    · exact ⟨hkey, .inl ⟨rfl, rfl⟩⟩
    · exact ⟨hkey, .inr ⟨earlier, hsince, hspares, hst⟩⟩

/-- The entry of a `put` after what was recorded of it since. -/
def entryAfter (default : Int) (key : String) (p : Put F) (putAt : F) (since : List (Event F)) :
    CacheEntry F :=
  since.foldl (react digest lower key) (p.entry lower default putAt)

/-- One more event changes the entry once more. -/
theorem entryAfter_concat (default : Int) (key : String) (p : Put F) (putAt : F)
    (since : List (Event F)) (event : Event F) :
    entryAfter digest lower default key p putAt (since ++ [event]) =
      react digest lower key (entryAfter digest lower default key p putAt since) event := by
  unfold entryAfter
  rw [List.foldl_append]
  rfl

/-- What is recorded of an entry changes its count of failures and nothing of its origin. -/
theorem react_frame (key : String) (entry : CacheEntry F) (event : Event F) :
    (react digest lower key entry event).domain = entry.domain ∧
      (react digest lower key entry event).selectors = entry.selectors ∧
      (react digest lower key entry event).createdAt = entry.createdAt ∧
      (react digest lower key entry event).ttl = entry.ttl := by
  unfold react
  split
  · split <;> exact ⟨rfl, rfl, rfl, rfl⟩
  · split <;> exact ⟨rfl, rfl, rfl, rfl⟩
  · exact ⟨rfl, rfl, rfl, rfl⟩

/-- What a `put` says of the page and its age stays in the entry. -/
theorem entryAfter_frame (default : Int) (key : String) (p : Put F) (putAt : F)
    (since : List (Event F)) :
    (entryAfter digest lower default key p putAt since).domain = normalizeDomain lower p.domain ∧
      (entryAfter digest lower default key p putAt since).selectors = p.selectors ∧
      (entryAfter digest lower default key p putAt since).createdAt = putAt ∧
      (entryAfter digest lower default key p putAt since).ttl = effectiveTtl default p.ttl := by
  induction since using List.reverseRecOn with
  | nil => exact ⟨rfl, rfl, rfl, rfl⟩
  | append_singleton since event ih =>
    obtain ⟨hdomain, hselectors, hcreated, httl⟩ := react_frame digest lower key
      (entryAfter digest lower default key p putAt since) event
    rw [entryAfter_concat, hdomain, hselectors, hcreated, httl]
    exact ih

/-- A success clears the failures, and a failure adds one. -/
theorem react_failureCount (key : String) (entry : CacheEntry F) (event : Event F) :
    (react digest lower key entry event).failureCount =
      if event.succeeds (makeCacheKey digest lower) key then 0
      else entry.failureCount + if event.fails (makeCacheKey digest lower) key then 1 else 0 := by
  obtain ⟨now, op⟩ := event
  cases op with
  | recordSuccess domain pagePath =>
    by_cases hkey : makeCacheKey digest lower domain pagePath = key
    · simp [react, hkey, CacheEntry.recordSuccess, Event.succeeds]
    · simp [react, hkey, Event.succeeds, Event.fails]
  | recordFailure domain pagePath =>
    by_cases hkey : makeCacheKey digest lower domain pagePath = key
    · simp [react, hkey, CacheEntry.recordFailure, Event.succeeds, Event.fails]
    · simp [react, hkey, Event.succeeds, Event.fails]
  | put q => exact (add_zero entry.failureCount).symm
  | invalidate domain pagePath => exact (add_zero entry.failureCount).symm
  | invalidateDomain domain => exact (add_zero entry.failureCount).symm
  | clear => exact (add_zero entry.failureCount).symm

/-- The failures of an entry are those since its last success. -/
theorem entryAfter_failureCount (default : Int) (key : String) (p : Put F) (putAt : F)
    (since : List (Event F)) :
    (entryAfter digest lower default key p putAt since).failureCount =
      countSince (Event.fails (makeCacheKey digest lower) key)
        (Event.succeeds (makeCacheKey digest lower) key) since := by
  induction since using List.reverseRecOn with
  | nil => rfl
  | append_singleton since event ih =>
    rw [entryAfter_concat, react_failureCount, ih]
    cases hsuccess : event.succeeds (makeCacheKey digest lower) key with
    | true =>
      rw [countSince_concat_reset hsuccess]
      rfl
    | false =>
      rw [countSince_concat hsuccess, if_neg (by simp)]
      cases hfail : event.fails (makeCacheKey digest lower) key <;> simp

/-! ### What is under a key -/

/-- What is under a key is the last `put` of the key that nothing ended, with what was
recorded of it since. -/
def Tracks (default : Int) (key : String) (history : List (Event F))
    (found : Option (CacheEntry F)) : Prop :=
  ∀ entry, found = some entry ↔ ∃ p putAt since,
    Stands lower (makeCacheKey digest lower) key p putAt since history ∧
      entry = entryAfter digest lower default key p putAt since

variable {digest lower} {default : Int} {key : String} {history : List (Event F)}
  {found : Option (CacheEntry F)}

/-- Without a history there is no entry. -/
theorem tracks_nil : Tracks digest lower default key ([] : List (Event F)) none := by
  intro entry
  constructor
  · intro h
    cases h
  · rintro ⟨p, putAt, since, ⟨-, hstanding⟩, -⟩
    exact absurd hstanding not_standing_nil

/-- An event that spares what stands is recorded of it, or is about another key. -/
theorem Tracks.map_react (h : Tracks digest lower default key history found) (event : Event F)
    (hother : ∀ p, event.op = .put p → p.key digest lower ≠ key)
    (hspares : ∀ p : Put F, p.key digest lower = key →
      event.ends lower (makeCacheKey digest lower) p = false) :
    Tracks digest lower default key (history ++ [event])
      (found.map fun entry => react digest lower key entry event) := by
  intro entry
  rw [Option.map_eq_some_iff]
  constructor
  · rintro ⟨old, hold, rfl⟩
    obtain ⟨p, putAt, since, hst, rfl⟩ := (h old).mp hold
    refine ⟨p, putAt, since ++ [event], ?_, (entryAfter_concat ..).symm⟩
    exact (stands_concat ..).mpr (.inr ⟨since, rfl, hspares p hst.1, hst⟩)
  · rintro ⟨p, putAt, since, hst, rfl⟩
    rcases (stands_concat ..).mp hst with ⟨-, hkey, rfl⟩ | ⟨earlier, rfl, -, hst⟩
    · exact absurd hkey (hother p rfl)
    · exact ⟨_, (h _).mpr ⟨p, putAt, earlier, hst, rfl⟩, (entryAfter_concat ..).symm⟩

/-- An event that leaves the entry and its key alone keeps the account. -/
theorem Tracks.unchanged (h : Tracks digest lower default key history found) (event : Event F)
    (hreact : ∀ entry, react digest lower key entry event = entry)
    (hother : ∀ p, event.op = .put p → p.key digest lower ≠ key)
    (hspares : ∀ p : Put F, p.key digest lower = key →
      event.ends lower (makeCacheKey digest lower) p = false) :
    Tracks digest lower default key (history ++ [event]) found := by
  have hmap := h.map_react event hother hspares
  simpa only [hreact, Option.map_id'] using hmap

/-- Nothing stands after an event that ends what stood. -/
theorem tracks_none (event : Event F) (hother : ∀ p, event.op ≠ .put p)
    (hends : ∀ p : Put F, p.key digest lower = key →
      event.ends lower (makeCacheKey digest lower) p = true) :
    Tracks digest lower default key (history ++ [event]) none := by
  intro entry
  constructor
  · intro h
    cases h
  · rintro ⟨p, putAt, since, hst, -⟩
    rcases (stands_concat ..).mp hst with ⟨-, -, rfl⟩ | ⟨earlier, -, hspares, hst⟩
    · exact absurd rfl (hother p)
    · rw [hends p hst.1] at hspares
      cases hspares

/-- A `put` of the key stands, and what stood before does not. -/
theorem tracks_put (now : F) {q : Put F} (hkey : q.key digest lower = key) :
    Tracks digest lower default key (history ++ [⟨now, .put q⟩])
      (some (q.entry lower default now)) := by
  intro entry
  constructor
  · intro h
    cases h
    exact ⟨q, now, [], (stands_concat ..).mpr (.inl ⟨rfl, hkey, rfl⟩), rfl⟩
  · rintro ⟨p, putAt, since, hst, rfl⟩
    rcases (stands_concat ..).mp hst with ⟨rfl, -, heq⟩ | ⟨earlier, -, hspares, hst⟩
    · cases heq
      rfl
    · exact absurd (hkey.trans hst.1.symm) (of_decide_eq_false hspares)

/-- The entries of a domain are those that were put with it. -/
theorem Tracks.invalidateDomain (h : Tracks digest lower default key history found) (now : F)
    (domain : String) :
    Tracks digest lower default key (history ++ [⟨now, .invalidateDomain domain⟩])
      (found.filter fun entry => !(entry.domain == normalizeDomain lower domain)) := by
  intro entry
  rw [Option.filter_eq_some_iff, h entry]
  constructor
  · rintro ⟨⟨p, putAt, since, hst, rfl⟩, hdomain⟩
    rw [(entryAfter_frame ..).1, Bool.not_eq_true', beq_eq_false_iff_ne] at hdomain
    refine ⟨p, putAt, since ++ [_],
      (stands_concat ..).mpr (.inr ⟨since, rfl, decide_eq_false hdomain, hst⟩), ?_⟩
    rw [entryAfter_concat]
    rfl
  · rintro ⟨p, putAt, since, hst, rfl⟩
    rcases (stands_concat ..).mp hst with ⟨-, -, heq⟩ | ⟨earlier, rfl, hspares, hst⟩
    · cases heq
    · refine ⟨⟨p, putAt, earlier, hst, entryAfter_concat ..⟩, ?_⟩
      rw [(entryAfter_frame ..).1, Bool.not_eq_true', beq_eq_false_iff_ne]
      exact of_decide_eq_false hspares

/-- One more event keeps the account of what is found. -/
theorem Tracks.effect (h : Tracks digest lower default key history found) (event : Event F) :
    Tracks digest lower default key (history ++ [event])
      (effect digest lower default key event found) := by
  obtain ⟨now, op⟩ := event
  cases op with
  | put q =>
    by_cases hkey : q.key digest lower = key
    · have heffect : SelectorCache.effect digest lower default key ⟨now, .put q⟩ found =
          some (q.entry lower default now) := if_pos hkey
      rw [heffect]
      exact tracks_put now hkey
    · have heffect : SelectorCache.effect digest lower default key ⟨now, .put q⟩ found = found :=
        if_neg hkey
      rw [heffect]
      refine h.unchanged _ (fun _ => rfl) ?_ fun p hp => decide_eq_false fun hq => hkey (hq.trans hp)
      rintro p hp
      cases hp
      exact hkey
  | recordSuccess domain pagePath =>
    exact h.map_react _ (fun p hp => by cases hp) fun _ _ => rfl
  | recordFailure domain pagePath =>
    exact h.map_react _ (fun p hp => by cases hp) fun _ _ => rfl
  | invalidate domain pagePath =>
    by_cases hkey : makeCacheKey digest lower domain pagePath = key
    · have heffect : SelectorCache.effect digest lower default key
          ⟨now, .invalidate domain pagePath⟩ found = none := if_pos hkey
      rw [heffect]
      exact tracks_none _ (fun p hp => by cases hp) fun p hp => decide_eq_true (hkey.trans hp.symm)
    · have heffect : SelectorCache.effect digest lower default key
          ⟨now, .invalidate domain pagePath⟩ found = found := if_neg hkey
      rw [heffect]
      exact h.unchanged _ (fun _ => rfl) (fun p hp => by cases hp)
        fun p hp => decide_eq_false fun hq => hkey (hq.trans hp)
  | invalidateDomain domain => exact h.invalidateDomain now domain
  | clear => exact tracks_none _ (fun p hp => by cases hp) fun _ _ => rfl

/-- What is under a key after a run. -/
theorem lookup_run {cache : Cache F} (hempty : cache.store = .empty) (history : List (Event F))
    (key : String) :
    Tracks digest lower cache.defaultTtl key history
      ((cache.run fl digest lower history).lookup key) := by
  induction history using List.reverseRecOn with
  | nil =>
    have hnone : cache.lookup key = none := by
      rw [Cache.lookup, hempty]
      rfl
    show Tracks digest lower cache.defaultTtl key [] (cache.lookup key)
    rw [hnone]
    exact tracks_nil
  | append_singleton history event ih =>
    rw [run_concat, lookup_apply, run_defaultTtl]
    exact ih.effect event

/-! ## What `get` answers -/

section

variable {κ : Type} [DecidableEq κ] (ident : String → String → κ)

/-- An entry was put for the domain and the path and not removed, its time has not
passed, and since the later of its `put` and its last success it failed fewer than
`maxFailures` times. Which pairs are one is said by `ident`. -/
def Answers (lower : String → String) (default : Int) (history : List (Event F)) (now : F)
    (domain pagePath : String) : Prop :=
  ∃ p putAt since, Stands lower ident (ident domain pagePath) p putAt since history ∧
    fl.lt (fl.addInt putAt (effectiveTtl default p.ttl)) now = false ∧
    countSince (Event.fails ident (ident domain pagePath))
      (Event.succeeds ident (ident domain pagePath)) since < maxFailures

end

/-- `get` finds an entry that is usable. -/
theorem get_eq_filter (cache : Cache F) (now : F) (domain pagePath : String) :
    cache.get fl digest lower now domain pagePath =
      (cache.lookup (makeCacheKey digest lower domain pagePath)).filter (·.isUsable fl now) := by
  unfold Cache.get Cache.lookup
  cases cache.store.get? (makeCacheKey digest lower domain pagePath) with
  | none => rfl
  | some row => rfl

/-- An entry is usable until it is too old, or has failed too often. -/
theorem isUsable_iff {now : F} {entry : CacheEntry F} :
    entry.isUsable fl now = true ↔
      fl.lt (fl.addInt entry.createdAt entry.ttl) now = false ∧
        entry.failureCount < maxFailures := by
  simp [CacheEntry.isUsable, CacheEntry.isExpired, CacheEntry.isInvalidated]

/-- `get` answers just when the history has an answer. -/
theorem isSome_get_run {cache : Cache F} (hempty : cache.store = .empty)
    (history : List (Event F)) (now : F) (domain pagePath : String) :
    ((cache.run fl digest lower history).get fl digest lower now domain pagePath).isSome = true ↔
      Answers fl (makeCacheKey digest lower) lower cache.defaultTtl history now domain pagePath := by
  have htracks : Tracks digest lower _ _ history _ :=
    lookup_run fl hempty history (makeCacheKey digest lower domain pagePath)
  rw [get_eq_filter, Option.isSome_iff_exists]
  constructor
  · rintro ⟨entry, hentry⟩
    obtain ⟨hlookup, husable⟩ := Option.filter_eq_some_iff.mp hentry
    obtain ⟨p, putAt, since, hst, rfl⟩ := (htracks entry).mp hlookup
    obtain ⟨hfresh, hfailures⟩ := (isUsable_iff fl).mp husable
    obtain ⟨-, -, hcreated, httl⟩ := entryAfter_frame digest lower cache.defaultTtl
      (makeCacheKey digest lower domain pagePath) p putAt since
    rw [hcreated, httl] at hfresh
    rw [entryAfter_failureCount] at hfailures
    exact ⟨p, putAt, since, hst, hfresh, hfailures⟩
  · rintro ⟨p, putAt, since, hst, hfresh, hfailures⟩
    refine ⟨_, Option.filter_eq_some_iff.mpr ⟨(htracks _).mpr ⟨p, putAt, since, hst, rfl⟩, ?_⟩⟩
    obtain ⟨-, -, hcreated, httl⟩ := entryAfter_frame digest lower cache.defaultTtl
      (makeCacheKey digest lower domain pagePath) p putAt since
    rw [isUsable_iff, hcreated, httl, entryAfter_failureCount]
    exact ⟨hfresh, hfailures⟩

/-- Selectors that can be written make a store that can be. -/
theorem writableStore_run {cache : Cache F} (hempty : cache.store = .empty)
    {history : List (Event F)} (hjson : ∀ event ∈ history, ∀ p, event.op = .put p →
      Json.Writable fl.floatRepr (.obj p.selectors)) :
    WritableStore fl (cache.run fl digest lower history).store := by
  intro row hrow
  have hlookup : (cache.run fl digest lower history).lookup row.1 = some row.2 := by
    rw [Cache.lookup, Table.get?_of_mem hrow]
    rfl
  obtain ⟨p, putAt, since, hst, hentry⟩ := (lookup_run fl hempty history row.1 row.2).mp hlookup
  obtain ⟨⟨before, hhistory⟩, -⟩ := hst.2
  rw [hentry, (entryAfter_frame ..).2.1]
  exact hjson ⟨putAt, .put p⟩ (by rw [hhistory]; simp) p rfl

/-- A cache that starts from the file after any run is the cache that made the run, and
`get` answers what the run says of the key. -/
theorem get_run (hfl : fl.Lawful) {path : Option String} (hpath : path.any (· ≠ "") = true)
    {ttl : Int} {cache : Cache F} (hnew : Cache.new fl path ttl none = .ok cache)
    {history : List (Event F)} (hjson : ∀ event ∈ history, ∀ p, event.op = .put p →
      Json.Writable fl.floatRepr (.obj p.selectors)) :
    (∃ reloaded, Cache.new fl path ttl (cache.run fl digest lower history).file = .ok reloaded ∧
        ∀ later now domain pagePath,
          (reloaded.run fl digest lower later).get fl digest lower now domain pagePath =
            ((cache.run fl digest lower history).run fl digest lower later).get fl digest lower now
              domain pagePath) ∧
      ∀ now domain pagePath,
        ((cache.run fl digest lower history).get fl digest lower now domain pagePath).isSome =
            true ↔
          Answers fl (makeCacheKey digest lower) lower ttl history now domain pagePath := by
  rw [Cache.new, loadFromDisk_of_none rfl] at hnew
  cases hnew
  refine ⟨?_, fun now domain pagePath => isSome_get_run fl rfl history now domain pagePath⟩
  let start : Cache F := { store := .empty, persistPath := path, defaultTtl := ttl, file := none }
  let final := start.run fl digest lower history
  have hpersists : final.persists = true := by
    rw [Cache.persists, run_persistPath]
    exact hpath
  have hstart : start.persists = true := hpath
  have hsaved : Saved fl final := saved_run fl digest lower hstart (.inl ⟨rfl, rfl⟩) history
  have hload : Cache.new fl final.persistPath final.defaultTtl final.file = .ok final :=
    new_of_saved hfl hpersists (writableStore_run fl rfl hjson) hsaved final.defaultTtl
  rw [run_persistPath, run_defaultTtl] at hload
  exact ⟨final, hload, fun _ _ _ _ => rfl⟩

/-! ### Whole seconds -/

/-- Numbers without a fraction: `3` prints as `3.0`. -/
def wholeFloats : Floats Nat where
  zero := 0
  addInt n k := (n + k).toNat
  lt m n := decide (m < n)
  repr n := String.ofList (Nat.toDigits 10 n ++ ['.', '0'])
  ofText text := Nat.ofDigitChars 10 (text.toList.takeWhile Char.isDigit) 0

theorem wholeFloats_lawful : wholeFloats.Lawful where
  floatText_repr n := by
    have hzero : ∀ d ∈ ['0'], d.isDigit = true := by
      intro d hd
      rw [List.mem_singleton.mp hd]
      rfl
    refine ⟨[], Nat.toDigits 10 n, ['.', '0'], [], ?_, .inl rfl, Json.intText_toDigits n,
      .inr ⟨'0', [], rfl, hzero⟩, .inl rfl, by simp⟩
    rw [wholeFloats, String.toList_ofList, List.append_nil, List.nil_append]
  ofText_repr n := by
    have hspan := Json.spanDigits_append (Json.toDigits_isDigit n)
      (show Json.NoDigit ['.', '0'] from fun c cs h => by cases h; rfl)
    show Nat.ofDigitChars 10 ((String.ofList _).toList.takeWhile Char.isDigit) 0 = n
    rw [String.toList_ofList, (Prod.mk.inj hspan).1, Nat.ofDigitChars_ten_toDigits]

/-- The digest of `shop.com/eu/cart`. -/
def cartDigest : Digest := fun _ =>
  ⟨[148, 143, 245, 11, 240, 52, 139, 77, 153, 140, 174, 41, 135, 224, 224, 71, 150, 225, 58,
    19, 136, 184, 42, 70, 82, 196, 84, 227, 19, 17, 76, 174], rfl⟩

/-- Selectors for a page of a domain with a path in it. -/
def cartPut : Put Nat :=
  { domain := "Shop.com/eu", pagePath := "/cart", selectors := [("total", .str "#sum")],
    confidence := 1 }

/-- Two failures, a success and a failure of what was put. -/
def cartHistory : List (Event Nat) :=
  [⟨0, .put cartPut⟩, ⟨1, .recordFailure "shop.com/eu" "cart/"⟩,
    ⟨2, .recordFailure "shop.com/eu" "/cart"⟩, ⟨3, .recordSuccess "shop.com/eu" "/cart"⟩,
    ⟨4, .recordFailure "shop.com/eu" "/cart"⟩]

theorem get_cartHistory :
    let start : Cache Nat :=
      { store := .empty, persistPath := some "cache.json", defaultTtl, file := none }
    (∃ reloaded, Cache.new wholeFloats (some "cache.json") defaultTtl
          (start.run wholeFloats cartDigest Text.asciiLower cartHistory).file = .ok reloaded ∧
        ∀ later now domain pagePath,
          (reloaded.run wholeFloats cartDigest Text.asciiLower later).get wholeFloats cartDigest
              Text.asciiLower now domain pagePath =
            ((start.run wholeFloats cartDigest Text.asciiLower cartHistory).run wholeFloats cartDigest
              Text.asciiLower later).get wholeFloats cartDigest Text.asciiLower now domain pagePath) ∧
      ∀ now domain pagePath,
        ((start.run wholeFloats cartDigest Text.asciiLower cartHistory).get wholeFloats cartDigest
            Text.asciiLower now domain pagePath).isSome = true ↔
          Answers wholeFloats (makeCacheKey cartDigest Text.asciiLower) Text.asciiLower defaultTtl cartHistory
            now domain pagePath := by
  intro start
  have hnew : Cache.new wholeFloats (some "cache.json") defaultTtl none = .ok start :=
    loadFromDisk_of_none rfl
  refine get_run wholeFloats wholeFloats_lawful (by decide) hnew ?_
  intro event hevent p hp
  simp only [cartHistory, List.mem_cons, List.not_mem_nil, or_false] at hevent
  rcases hevent with rfl | rfl | rfl | rfl | rfl <;> cases hp
  exact ⟨by decide, trivial, trivial⟩

/-! ## Domain and path -/

/-- The domain and the path that a key is made of. -/
def pair (lower : String → String) (domain pagePath : String) : String × String :=
  (normalizeDomain lower domain, trimSlashes pagePath)

/-- The domain and the path that an operation is about. -/
def Op.pair? : Op F → Option (String × String)
  | .put p => some (p.domain, p.pagePath)
  | .recordSuccess domain pagePath => some (domain, pagePath)
  | .recordFailure domain pagePath => some (domain, pagePath)
  | .invalidate domain pagePath => some (domain, pagePath)
  | .invalidateDomain _ => none
  | .clear => none

section

variable {fl} {κ κ' : Type} {ident : String → String → κ} {ident' : String → String → κ'}
  {domain pagePath : String}

/-- Two ways of identifying pairs agree on which events are about a pair. -/
def Agree (ident : String → String → κ) (ident' : String → String → κ')
    (history : List (Event F)) (domain pagePath : String) : Prop :=
  ∀ event ∈ history, ∀ d path, event.op.pair? = some (d, path) →
    (ident d path = ident domain pagePath ↔ ident' d path = ident' domain pagePath)

/-- Two ways to name a page agree in both directions. -/
theorem Agree.symm (h : Agree ident ident' history domain pagePath) :
    Agree ident' ident history domain pagePath :=
  fun event hevent d path hpair => (h event hevent d path hpair).symm

variable [DecidableEq κ] [DecidableEq κ']

/-- They end the same entries. -/
theorem Agree.ends (h : Agree ident ident' history domain pagePath) {p : Put F}
    (hp : ident p.domain p.pagePath = ident domain pagePath)
    (hp' : ident' p.domain p.pagePath = ident' domain pagePath) {event : Event F}
    (hevent : event ∈ history) : event.ends lower ident p = event.ends lower ident' p := by
  obtain ⟨now, op⟩ := event
  cases op with
  | put q =>
    show decide (ident q.domain q.pagePath = ident p.domain p.pagePath) = decide _
    rw [hp, hp']
    exact decide_eq_decide.mpr (h _ hevent _ _ rfl)
  | invalidate d path =>
    show decide (ident d path = ident p.domain p.pagePath) = decide _
    rw [hp, hp']
    exact decide_eq_decide.mpr (h _ hevent _ _ rfl)
  | recordSuccess d path => rfl
  | recordFailure d path => rfl
  | invalidateDomain d => rfl
  | clear => rfl

/-- They note the same successes. -/
theorem Agree.succeeds (h : Agree ident ident' history domain pagePath) {event : Event F}
    (hevent : event ∈ history) :
    event.succeeds ident (ident domain pagePath) =
      event.succeeds ident' (ident' domain pagePath) := by
  obtain ⟨now, op⟩ := event
  cases op with
  | recordSuccess d path => exact decide_eq_decide.mpr (h _ hevent _ _ rfl)
  | put q => rfl
  | recordFailure d path => rfl
  | invalidate d path => rfl
  | invalidateDomain d => rfl
  | clear => rfl

/-- They note the same failures. -/
theorem Agree.fails (h : Agree ident ident' history domain pagePath) {event : Event F}
    (hevent : event ∈ history) :
    event.fails ident (ident domain pagePath) = event.fails ident' (ident' domain pagePath) := by
  obtain ⟨now, op⟩ := event
  cases op with
  | recordFailure d path => exact decide_eq_decide.mpr (h _ hevent _ _ rfl)
  | put q => rfl
  | recordSuccess d path => rfl
  | invalidate d path => rfl
  | invalidateDomain d => rfl
  | clear => rfl

/-- An answer under one of them is one under the other. -/
theorem Agree.answers (h : Agree ident ident' history domain pagePath) {now : F}
    (ha : Answers fl ident lower default history now domain pagePath) :
    Answers fl ident' lower default history now domain pagePath := by
  obtain ⟨p, putAt, since, ⟨hp, ⟨before, hhistory⟩, hspares⟩, hfresh, hfailures⟩ := ha
  have hput : (⟨putAt, .put p⟩ : Event F) ∈ history := by
    rw [hhistory]
    simp
  have hsince : ∀ event ∈ since, event ∈ history := by
    intro event hevent
    rw [hhistory]
    exact List.mem_append_right _ (List.mem_cons_of_mem _ hevent)
  have hp' := (h _ hput _ _ rfl).mp hp
  refine ⟨p, putAt, since, ⟨hp', ⟨before, hhistory⟩, ?_⟩, hfresh, ?_⟩
  · intro event hevent
    rw [← h.ends hp hp' (hsince event hevent)]
    exact hspares event hevent
  · rwa [countSince_congr fun event hevent =>
      ⟨(h.fails (hsince event hevent)).symm, (h.succeeds (hsince event hevent)).symm⟩]

/-- So they answer alike. -/
theorem answers_congr (h : Agree ident ident' history domain pagePath) {now : F} :
    Answers fl ident lower default history now domain pagePath ↔
      Answers fl ident' lower default history now domain pagePath :=
  ⟨h.answers, h.symm.answers⟩

end

/-- Without a slash in the domains the text of a key says domain and path. -/
theorem keyText_eq_iff {d d' path path' : String} (h : '/' ∉ (normalizeDomain lower d).toList)
    (h' : '/' ∉ (normalizeDomain lower d').toList) :
    keyText lower d path = keyText lower d' path' ↔ pair lower d path = pair lower d' path' := by
  constructor
  · intro heq
    have hlist := congrArg String.toList heq
    simp only [keyText, String.toList_append, List.append_assoc] at hlist
    obtain ⟨hdomain, hpath⟩ := Separated.append_cons_inj h h' hlist
    exact Prod.ext (String.toList_inj.mp hdomain) (String.toList_inj.mp hpath)
  · intro heq
    obtain ⟨hdomain, hpath⟩ := Prod.mk.inj heq
    rw [keyText, keyText, hdomain, hpath]

/-- For domains without a slash whose digests do not collide, a pair is one of domain and
path, up to letters, blanks and the slashes around the path. -/
theorem answers_pair_iff {now : F} {domain pagePath : String}
    (hdomain : '/' ∉ (normalizeDomain lower domain).toList)
    (hslash : ∀ event ∈ history, ∀ d path, event.op.pair? = some (d, path) →
      '/' ∉ (normalizeDomain lower d).toList)
    (hcollision : ∀ event ∈ history, ∀ d path, event.op.pair? = some (d, path) →
      makeCacheKey digest lower d path = makeCacheKey digest lower domain pagePath →
        keyText lower d path = keyText lower domain pagePath) :
    Answers fl (makeCacheKey digest lower) lower default history now domain pagePath ↔
      Answers fl (pair lower) lower default history now domain pagePath := by
  refine answers_congr fun event hevent d path hpair => ?_
  rw [← keyText_eq_iff (hslash event hevent d path hpair) hdomain]
  constructor
  · exact hcollision event hevent d path hpair
  · intro htext
    rw [makeCacheKey, makeCacheKey, htext]

/-- What was put for the page `/cart` of `shop.com/eu` is found for the page `/eu/cart` of
`shop.com`. -/
theorem sharedKey_answers :
    let start : Cache Nat :=
      { store := .empty, persistPath := some "cache.json", defaultTtl, file := none }
    ¬ (((start.run wholeFloats cartDigest Text.asciiLower [⟨0, .put cartPut⟩]).get wholeFloats
          cartDigest Text.asciiLower 1 "shop.com" "/eu/cart").isSome = true ↔
        Answers wholeFloats (pair Text.asciiLower) Text.asciiLower defaultTtl [⟨0, .put cartPut⟩] 1
          "shop.com" "/eu/cart") := by
  intro start h
  have htext : keyText Text.asciiLower "Shop.com/eu" "/cart" =
      keyText Text.asciiLower "shop.com" "/eu/cart" := by decide
  have hfound : Answers wholeFloats (makeCacheKey cartDigest Text.asciiLower) Text.asciiLower defaultTtl
      [⟨0, .put cartPut⟩] 1 "shop.com" "/eu/cart" := by
    refine ⟨cartPut, 0, [], ⟨?_, ⟨[], rfl⟩, by simp⟩, by decide, by decide⟩
    show String.ofList (shortDigest _ (keyText Text.asciiLower "Shop.com/eu" "/cart")) = _
    rw [htext]
    rfl
  obtain ⟨p, putAt, since, ⟨hpair, ⟨before, hhistory⟩, -⟩, -⟩ :=
    h.mp ((isSome_get_run wholeFloats rfl _ _ _ _).mpr hfound)
  cases before with
  | nil =>
    cases hhistory
    exact absurd hpair (by decide)
  | cons event before =>
    have hnil := (List.cons.inj hhistory).2
    simp at hnil

end Plaidify.SelectorCache
