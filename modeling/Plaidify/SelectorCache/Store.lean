import Plaidify.Lib.Digests
import Plaidify.Lib.JsonIndent
import Plaidify.Lib.Table
import Plaidify.Lib.Text

/-!
# The store of the selector cache

`SelectorCache` of `src/src/core/selector_cache.py`: entries under a digest of domain
and page path, each with the selectors of an LLM answer, its age and its failures. With
a path the store is written to a file after every change, and a new cache starts from
the file.

Times and confidences are floating-point numbers; what they are is a parameter, with
the text a number prints as. `get` is the only place where they are compared.
-/

namespace Plaidify.SelectorCache

open Digests

/-! ## Floating-point numbers -/

/-- What the cache uses of `float`. -/
structure Floats (F : Type) where
  zero : F
  /-- `x + n`. -/
  addInt : F → Int → F
  /-- `x < y`. -/
  lt : F → F → Bool
  /-- `repr(x)`. -/
  repr : F → String
  /-- `float(text)`. -/
  ofText : String → F

/-- What the text of a JSON number is printed as again. -/
def Floats.floatRepr {F : Type} (fl : Floats F) (text : String) : String :=
  fl.repr (fl.ofText text)

/-- A number prints as a JSON number, and reads back from what it prints as. -/
structure Floats.Lawful {F : Type} (fl : Floats F) : Prop where
  floatText_repr (x : F) : Json.FloatText (fl.repr x).toList
  ofText_repr (x : F) : fl.ofText (fl.repr x) = x

/-! ## Entries -/

/-- `DEFAULT_TTL`. -/
def defaultTtl : Int := 86400 * 7

/-- `MAX_FAILURES`. -/
def maxFailures : Int := 3

/-- A Python dictionary with string keys. -/
abbrev Dict := List (String × Json)

structure CacheEntry (F : Type) where
  domain : String
  pagePath : String
  selectors : Dict
  confidence : F
  createdAt : F
  ttl : Int := defaultTtl
  failureCount : Int := 0
  lastFailureAt : Option F := none
  lastSuccessAt : Option F := none
  hitCount : Int := 0

section

variable {F : Type} (fl : Floats F)

/-- `is_expired`. -/
def CacheEntry.isExpired (now : F) (entry : CacheEntry F) : Bool :=
  fl.lt (fl.addInt entry.createdAt entry.ttl) now

/-- `is_invalidated`. -/
def CacheEntry.isInvalidated (entry : CacheEntry F) : Bool :=
  decide (maxFailures ≤ entry.failureCount)

/-- `is_usable`. -/
def CacheEntry.isUsable (now : F) (entry : CacheEntry F) : Bool :=
  !entry.isExpired fl now && !entry.isInvalidated

def CacheEntry.recordSuccess (now : F) (entry : CacheEntry F) : CacheEntry F :=
  { entry with failureCount := 0, lastSuccessAt := some now, hitCount := entry.hitCount + 1 }

def CacheEntry.recordFailure (now : F) (entry : CacheEntry F) : CacheEntry F :=
  { entry with failureCount := entry.failureCount + 1, lastFailureAt := some now }

def floatJson (x : F) : Json :=
  .float (fl.repr x)

/-- A number, or null for `None`. -/
def optionJson : Option F → Json
  | none => .null
  | some x => floatJson fl x

def CacheEntry.toDict (entry : CacheEntry F) : Json :=
  .obj [("domain", .str entry.domain), ("page_path", .str entry.pagePath),
    ("selectors", .obj entry.selectors), ("confidence", floatJson fl entry.confidence),
    ("created_at", floatJson fl entry.createdAt), ("ttl", .int entry.ttl),
    ("failure_count", .int entry.failureCount),
    ("last_failure_at", optionJson fl entry.lastFailureAt),
    ("last_success_at", optionJson fl entry.lastSuccessAt), ("hit_count", .int entry.hitCount)]

/-- Why a file does not load. A value of another type, which the model refuses when it
is read, is one that Python fails on when it is used. -/
inductive LoadError where
  | keyError
  | typeError

/-- `data[key]`. -/
def required (data : Dict) (key : String) : Except LoadError Json :=
  match data.lookup key with
  | some v => .ok v
  | none => .error .keyError

def asText : Json → Except LoadError String
  | .str s => .ok s
  | _ => .error .typeError

def asDict : Json → Except LoadError Dict
  | .obj kvs => .ok kvs
  | _ => .error .typeError

def asInt : Json → Except LoadError Int
  | .int n => .ok n
  | _ => .error .typeError

def asFloat : Json → Except LoadError F
  | .float text => .ok (fl.ofText text)
  | _ => .error .typeError

def asOption : Json → Except LoadError (Option F)
  | .null => .ok none
  | v => (asFloat fl v).map some

/-- `from_dict`. -/
def CacheEntry.fromDict : Json → Except LoadError (CacheEntry F)
  | .obj data => do
      let domain ← required data "domain" >>= asText
      let pagePath ← required data "page_path" >>= asText
      let selectors ← required data "selectors" >>= asDict
      let confidence ← ((data.lookup "confidence").map (asFloat fl)).getD (.ok fl.zero)
      let createdAt ← required data "created_at" >>= asFloat fl
      let ttl ← ((data.lookup "ttl").map asInt).getD (.ok defaultTtl)
      let failureCount ← ((data.lookup "failure_count").map asInt).getD (.ok 0)
      let lastFailureAt ← ((data.lookup "last_failure_at").map (asOption fl)).getD (.ok none)
      let lastSuccessAt ← ((data.lookup "last_success_at").map (asOption fl)).getD (.ok none)
      let hitCount ← ((data.lookup "hit_count").map asInt).getD (.ok 0)
      return { domain, pagePath, selectors, confidence, createdAt, ttl, failureCount,
               lastFailureAt, lastSuccessAt, hitCount }
  | _ => .error .typeError

end

/-! ## Keys -/

section

variable (digest : Digest) (lower : String → String)

/-- `domain.lower().strip()`. -/
def normalizeDomain (domain : String) : String :=
  Text.strip (lower domain)

/-- `page_path.strip("/")`. -/
def trimSlashes (pagePath : String) : String :=
  String.ofList ((pagePath.toList.dropWhile (· == '/')).rdropWhile (· == '/'))

/-- The text that is hashed. -/
def keyText (domain pagePath : String) : String :=
  normalizeDomain lower domain ++ "/" ++ trimSlashes pagePath

def makeCacheKey (domain pagePath : String) : String :=
  String.ofList (shortDigest digest (keyText lower domain pagePath))

end

/-! ## The cache -/

/-- Entries under their keys, in the order in which the keys were first put. -/
abbrev Store (F : Type) := Table (String × CacheEntry F) Prod.fst

structure Cache (F : Type) where
  store : Store F
  persistPath : Option String
  defaultTtl : Int
  /-- What is in the file at the path; none when there is no file. -/
  file : Option String

/-- The arguments of `put`. -/
structure Put (F : Type) where
  domain : String
  pagePath : String
  selectors : Dict
  confidence : F
  ttl : Option Int := none

section

variable {F : Type} (fl : Floats F)

/-- The truth value of `_persist_path`. -/
def Cache.persists (cache : Cache F) : Bool :=
  cache.persistPath.any (· ≠ "")

/-- `{k: v.to_dict() for k, v in self._store.items()}`. -/
def storeJson (store : Store F) : Json :=
  .obj (store.rows.map fun row => (row.1, row.2.toDict fl))

/-- `_save_to_disk`. -/
def Cache.saveToDisk (cache : Cache F) : Cache F :=
  if cache.persists then { cache with file := some (Json.dumpsIndent 2 (storeJson fl cache.store)) }
  else cache

/-- The loop of `_load_from_disk`: what was read before a missing key stays. -/
def loadEntries (store : Store F) : Dict → Except LoadError (Store F)
  | [] => .ok store
  | (key, data) :: rest =>
      match CacheEntry.fromDict fl data with
      | .ok entry => loadEntries (store.assign (key, entry)) rest
      | .error .keyError => .ok store
      | .error .typeError => .error .typeError

/-- `_load_from_disk`. A file that is no JSON is passed over. -/
def Cache.loadFromDisk (cache : Cache F) : Except LoadError (Cache F) :=
  if cache.persists then
    match cache.file with
    | none => .ok cache
    | some text =>
        match Json.loads fl.floatRepr text with
        | none => .ok cache
        | some (.obj data) => (loadEntries fl cache.store data).map ({ cache with store := · })
        | some _ => .error .typeError
  else .ok cache

/-- `SelectorCache(persist_path, ttl)`, with what is in the file then. -/
def Cache.new (persistPath : Option String) (ttl : Int) (file : Option String) :
    Except LoadError (Cache F) :=
  Cache.loadFromDisk fl { store := .empty, persistPath, defaultTtl := ttl, file }

/-- `ttl or self._default_ttl`. -/
def effectiveTtl (default : Int) : Option Int → Int
  | some ttl => if ttl ≠ 0 then ttl else default
  | none => default

variable (digest : Digest) (lower : String → String)

/-- The entry that `put` makes. -/
def Put.entry (default : Int) (now : F) (p : Put F) : CacheEntry F :=
  { domain := normalizeDomain lower p.domain
    pagePath := p.pagePath
    selectors := p.selectors
    confidence := p.confidence
    createdAt := now
    ttl := effectiveTtl default p.ttl }

def Put.key (p : Put F) : String :=
  makeCacheKey digest lower p.domain p.pagePath

namespace Cache

def get (cache : Cache F) (now : F) (domain pagePath : String) : Option (CacheEntry F) :=
  match cache.store.get? (makeCacheKey digest lower domain pagePath) with
  | none => none
  | some (_, entry) => if entry.isUsable fl now then some entry else none

def put (cache : Cache F) (now : F) (p : Put F) : Cache F × CacheEntry F :=
  let entry := p.entry lower cache.defaultTtl now
  (saveToDisk fl { cache with store := cache.store.assign (p.key digest lower, entry) }, entry)

/-- The common part of `record_success` and `record_failure`: the entry changes in place. -/
def record (change : CacheEntry F → CacheEntry F) (cache : Cache F) (domain pagePath : String) :
    Cache F :=
  let key := makeCacheKey digest lower domain pagePath
  match cache.store.get? key with
  | some (_, entry) => saveToDisk fl { cache with store := cache.store.put (key, change entry) }
  | none => cache

def recordSuccess (cache : Cache F) (now : F) (domain pagePath : String) : Cache F :=
  record fl digest lower (·.recordSuccess now) cache domain pagePath

def recordFailure (cache : Cache F) (now : F) (domain pagePath : String) : Cache F :=
  record fl digest lower (·.recordFailure now) cache domain pagePath

def invalidate (cache : Cache F) (domain pagePath : String) : Cache F × Bool :=
  let key := makeCacheKey digest lower domain pagePath
  if (cache.store.get? key).isSome then
    (saveToDisk fl { cache with store := cache.store.delete fun row => row.1 == key }, true)
  else (cache, false)

def invalidateDomain (cache : Cache F) (domain : String) : Cache F × Nat :=
  let toRemove := cache.store.rows.filter fun row => row.2.domain == normalizeDomain lower domain
  if toRemove.isEmpty then (cache, 0)
  else
    (saveToDisk fl { cache with
        store := cache.store.delete fun row => row.2.domain == normalizeDomain lower domain },
      toRemove.length)

def clear (cache : Cache F) : Cache F :=
  saveToDisk fl { cache with store := .empty }

end Cache

/-! ## Runs -/

inductive Op (F : Type) where
  | put (p : Put F)
  | recordSuccess (domain pagePath : String)
  | recordFailure (domain pagePath : String)
  | invalidate (domain pagePath : String)
  | invalidateDomain (domain : String)
  | clear

/-- An operation and the time at which it is called. -/
structure Event (F : Type) where
  now : F
  op : Op F

def Cache.apply (cache : Cache F) (event : Event F) : Cache F :=
  match event.op with
  | .put p => (cache.put fl digest lower event.now p).1
  | .recordSuccess domain pagePath => cache.recordSuccess fl digest lower event.now domain pagePath
  | .recordFailure domain pagePath => cache.recordFailure fl digest lower event.now domain pagePath
  | .invalidate domain pagePath => (cache.invalidate fl digest lower domain pagePath).1
  | .invalidateDomain domain => (cache.invalidateDomain fl lower domain).1
  | .clear => cache.clear fl

/-- A cache after a sequence of operations. -/
def Cache.run (cache : Cache F) (history : List (Event F)) : Cache F :=
  history.foldl (Cache.apply fl digest lower) cache

end

end Plaidify.SelectorCache
