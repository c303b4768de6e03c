import Plaidify.SelectorCache.Store

/-!
# The file of the selector cache

Entries read back from what is written of them, whatever their selectors are. Every
operation that changes the store writes it to the file, so that the file always holds
the store (`saved_apply`), and a cache that starts from it holds the same entries
(`new_of_saved`).
-/

namespace Plaidify.SelectorCache

open Digests

variable {F : Type} {fl : Floats F} {digest : Digest} {lower : String → String}

/-! ## The file -/

/-- A float is written as its `repr`, which reads back as the float. -/
theorem writable_floatJson (hfl : fl.Lawful) (x : F) :
    Json.Writable fl.floatRepr (floatJson fl x) := by
  refine ⟨hfl.floatText_repr x, ?_⟩
  show fl.repr (fl.ofText (fl.repr x)) = fl.repr x
  rw [hfl.ofText_repr]

/-- `None` is written as `null`. -/
theorem writable_optionJson (hfl : fl.Lawful) (x : Option F) :
    Json.Writable fl.floatRepr (optionJson fl x) := by
  cases x with
  | none => trivial
  | some x => exact writable_floatJson hfl x

/-- The keys of an entry are distinct, so that none of them hides another when it is
read back. -/
theorem writable_toDict (hfl : fl.Lawful) {entry : CacheEntry F}
    (h : Json.Writable fl.floatRepr (.obj entry.selectors)) :
    Json.Writable fl.floatRepr (entry.toDict fl) := by
  have hkeys : ["domain", "page_path", "selectors", "confidence", "created_at", "ttl",
      "failure_count", "last_failure_at", "last_success_at", "hit_count"].Nodup := by decide
  exact ⟨hkeys, trivial, trivial, h, writable_floatJson hfl _, writable_floatJson hfl _, trivial,
    trivial, writable_optionJson hfl _, writable_optionJson hfl _, trivial, trivial⟩

/-- `float(...)` of what was written. -/
theorem asFloat_floatJson (hfl : fl.Lawful) (x : F) : asFloat fl (floatJson fl x) = .ok x := by
  show Except.ok (fl.ofText (fl.repr x)) = Except.ok x
  rw [hfl.ofText_repr]

theorem asOption_optionJson (hfl : fl.Lawful) (x : Option F) :
    asOption fl (optionJson fl x) = .ok x := by
  cases x with
  | none => rfl
  | some x =>
    show (asFloat fl (floatJson fl x)).map some = _
    rw [asFloat_floatJson hfl]
    rfl

/-- An entry reads back from its dictionary. -/
theorem fromDict_toDict (hfl : fl.Lawful) (entry : CacheEntry F) :
    CacheEntry.fromDict fl (entry.toDict fl) = .ok entry := by
  have hconfidence := asFloat_floatJson hfl entry.confidence
  have hcreated := asFloat_floatJson hfl entry.createdAt
  have hfailure := asOption_optionJson hfl entry.lastFailureAt
  have hsuccess := asOption_optionJson hfl entry.lastSuccessAt
  have hbind : ∀ {α β : Type} (a : α) (f : α → Except LoadError β), (Except.ok a >>= f) = f a :=
    fun _ _ => rfl
  simp [CacheEntry.toDict, CacheEntry.fromDict, required, List.lookup_cons, asText, asDict, asInt, hbind,
    hconfidence, hcreated, hfailure, hsuccess]
  rfl

/-- Entries that are read behind those of other keys. -/
theorem loadEntries_rows (hfl : fl.Lawful) (rows : List (String × CacheEntry F)) (store : Store F)
    (hnodup : ((store.rows ++ rows).map Prod.fst).Nodup) :
    ∃ loaded, loadEntries fl store (rows.map fun row => (row.1, row.2.toDict fl)) = .ok loaded ∧
      loaded.rows = store.rows ++ rows := by
  -- over the rows, with the store that has been loaded so far
  induction rows generalizing store with
  | nil => exact ⟨store, rfl, (List.append_nil _).symm⟩
  | cons row rows ih =>
    obtain ⟨key, entry⟩ := row
    -- the key is new, so that the entry goes behind the others
    have hnew : key ∉ store.rows.map Prod.fst := by
      intro hmem
      rw [List.map_append, List.nodup_append] at hnodup
      exact hnodup.2.2 key hmem key (by simp) rfl
    have hrows : (store.assign (key, entry)).rows = store.rows ++ [(key, entry)] :=
      Table.assign_rows_of_not_mem hnew
    obtain ⟨loaded, hloaded, heq⟩ := ih (store.assign (key, entry)) (by
      rw [hrows, List.append_assoc]
      exact hnodup)
    refine ⟨loaded, ?_, by rw [heq, hrows, List.append_assoc, List.singleton_append]⟩
    rw [List.map_cons, loadEntries, fromDict_toDict hfl]
    exact hloaded

/-- Every entry's selectors are written without loss. -/
def WritableStore (fl : Floats F) (store : Store F) : Prop :=
  ∀ row ∈ store.rows, Json.Writable fl.floatRepr (.obj row.2.selectors)

/-- The keys of the file are those of the store, which are distinct. -/
theorem writable_storeJson (hfl : fl.Lawful) {store : Store F} (h : WritableStore fl store) :
    Json.Writable fl.floatRepr (storeJson fl store) := by
  refine ⟨?_, Json.writableMembers_iff.mpr ?_⟩
  · rw [List.map_map]
    exact store.nodup
  · intro m hm
    rcases List.mem_map.mp hm with ⟨row, hrow, rfl⟩
    exact writable_toDict hfl (h row hrow)

/-- The file is the one the store is written to. Before the first change there is none. -/
def Saved (fl : Floats F) (cache : Cache F) : Prop :=
  (cache.file = none ∧ cache.store = .empty) ∨
    cache.file = some (Json.dumpsIndent 2 (storeJson fl cache.store))

/-- Where there is no file, the store stays as it is. -/
theorem loadFromDisk_of_none {cache : Cache F} (h : cache.file = none) :
    cache.loadFromDisk fl = .ok cache := by
  unfold Cache.loadFromDisk
  rw [h]
  split <;> rfl

/-- A file that parses to an object has its members loaded one by one. -/
theorem loadFromDisk_of_loads {cache : Cache F} (hpersists : cache.persists = true)
    {text : String} (hfile : cache.file = some text) {data : Dict}
    (hloads : Json.loads fl.floatRepr text = some (.obj data)) :
    cache.loadFromDisk fl = (loadEntries fl cache.store data).map ({ cache with store := · }) := by
  rw [Cache.loadFromDisk, if_pos hpersists, hfile]
  dsimp only
  rw [hloads]

/-- A cache that starts from the file holds the same entries. -/
theorem new_of_saved (hfl : fl.Lawful) {cache : Cache F} (hpersists : cache.persists = true)
    (hwritable : WritableStore fl cache.store) (h : Saved fl cache) (ttl : Int) :
    Cache.new fl cache.persistPath ttl cache.file = .ok { cache with defaultTtl := ttl } := by
  let start : Cache F := { cache with store := .empty, defaultTtl := ttl }
  show start.loadFromDisk fl = _
  rcases h with ⟨hfile, hempty⟩ | hfile
  · -- nothing was saved, and nothing is in the store
    have hload : start.loadFromDisk fl = .ok start := loadFromDisk_of_none hfile
    rw [hload, hempty]
  · have hloads := Json.loads_dumpsIndent (writable_storeJson hfl hwritable) 2
    have hstart : start.persists = true := hpersists
    have hload := loadFromDisk_of_loads hstart hfile hloads
    obtain ⟨loaded, hloaded, hrows⟩ := loadEntries_rows hfl cache.store.rows .empty cache.store.nodup
    obtain rfl : loaded = cache.store := Table.ext_rows hrows
    have hentries : loadEntries fl start.store (cache.store.rows.map fun row =>
        (row.1, row.2.toDict fl)) = .ok cache.store := hloaded
    rw [hload, hentries]
    rfl

/-! ### Every change is saved -/

/-- Saving changes the file only. -/
@[simp] theorem saveToDisk_store (cache : Cache F) : (cache.saveToDisk fl).store = cache.store := by
  unfold Cache.saveToDisk
  split <;> rfl

@[simp] theorem saveToDisk_persistPath (cache : Cache F) :
    (cache.saveToDisk fl).persistPath = cache.persistPath := by
  unfold Cache.saveToDisk
  split <;> rfl

@[simp] theorem saveToDisk_defaultTtl (cache : Cache F) :
    (cache.saveToDisk fl).defaultTtl = cache.defaultTtl := by
  unfold Cache.saveToDisk
  split <;> rfl

/-- After a save the file holds the store, whatever it held before. -/
theorem saved_saveToDisk {cache : Cache F} (hpersists : cache.persists = true) :
    Saved fl (cache.saveToDisk fl) := by
  refine .inr ?_
  rw [saveToDisk_store, Cache.saveToDisk, if_pos hpersists]

variable (fl digest lower)

/-- A success or a failure of an entry that is not there is not recorded, and not saved. -/
theorem record_cases (change : CacheEntry F → CacheEntry F) (cache : Cache F)
    (domain pagePath : String) :
    cache.record fl digest lower change domain pagePath = cache ∨
      ∃ store, cache.record fl digest lower change domain pagePath =
        Cache.saveToDisk fl { cache with store } := by
  unfold Cache.record
  dsimp only
  split
  · exact .inr ⟨_, rfl⟩
  · exact .inl rfl

/-- What an operation does to the cache: nothing, or the store changes and is saved. -/
theorem apply_cases (cache : Cache F) (event : Event F) :
    cache.apply fl digest lower event = cache ∨
      ∃ store, cache.apply fl digest lower event = Cache.saveToDisk fl { cache with store } := by
  obtain ⟨now, op⟩ := event
  cases op with
  | put p => exact .inr ⟨_, rfl⟩
  -- the other operations save only where they find an entry
  | recordSuccess domain pagePath => exact record_cases fl digest lower _ cache domain pagePath
  | recordFailure domain pagePath => exact record_cases fl digest lower _ cache domain pagePath
  | invalidate domain pagePath =>
    unfold Cache.apply Cache.invalidate
    dsimp only
    split
    · exact .inr ⟨_, rfl⟩
    · exact .inl rfl
  | invalidateDomain domain =>
    unfold Cache.apply Cache.invalidateDomain
    dsimp only
    split
    · exact .inl rfl
    · exact .inr ⟨_, rfl⟩
  | clear => exact .inr ⟨_, rfl⟩

/-- The path of the file is set once. -/
theorem apply_persistPath (cache : Cache F) (event : Event F) :
    (cache.apply fl digest lower event).persistPath = cache.persistPath := by
  rcases apply_cases fl digest lower cache event with h | ⟨store, h⟩
  · rw [h]
  · rw [h, saveToDisk_persistPath]

theorem apply_defaultTtl (cache : Cache F) (event : Event F) :
    (cache.apply fl digest lower event).defaultTtl = cache.defaultTtl := by
  rcases apply_cases fl digest lower cache event with h | ⟨store, h⟩
  · rw [h]
  · rw [h, saveToDisk_defaultTtl]

/-- **Every change is saved.** An operation that leaves the store as it is leaves the
file, and every other one writes it. -/
theorem saved_apply {cache : Cache F} (hpersists : cache.persists = true) (h : Saved fl cache)
    (event : Event F) : Saved fl (cache.apply fl digest lower event) := by
  rcases apply_cases fl digest lower cache event with heq | ⟨store, heq⟩
  · rwa [heq]
  · rw [heq]
    exact saved_saveToDisk hpersists

end Plaidify.SelectorCache
