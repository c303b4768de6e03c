import Plaidify.Lib.HashChain
import Plaidify.Lib.Json
import Plaidify.Lib.Separated
import Mathlib.Data.Set.Function

/-!
# The audit log

`src/src/audit.py` and the `audit_logs` table of `src/src/database.py`: the
hash of an entry, the writer `record_audit_event`, and the verifier
`verify_audit_chain`. SHA-256 is a parameter, from the bytes of the payload to
the hex digest.

The table is a list in ascending `id` order; the order is a field of
`AuditTable`, so that a query ordered by `id` is a position in the list.
-/

namespace Plaidify.Audit

/-! ## Timestamps -/

/-- A naive UTC `datetime`, in microseconds since `datetime.min`. -/
abbrev Timestamp := Nat

def microsPerDay : Nat := 86400000000

def daysBeforeMonth (leap : Bool) (month : Nat) : Nat :=
  let days := [0, 31, 59, 90, 120, 151, 181, 212, 243, 273, 304, 334].getD (month - 1) 0
  if leap && 2 < month then days + 1 else days

/-- Year, month and day of a day counted from 0001-01-01. -/
def ymdOfDay (day : Nat) : Nat × Nat × Nat :=
  let n400 := day / 146097
  let r400 := day % 146097
  let n100 := r400 / 36524
  let r100 := r400 % 36524
  let n4 := r100 / 1461
  let r4 := r100 % 1461
  let n1 := r4 / 365
  let n := r4 % 365
  let year := n400 * 400 + n100 * 100 + n4 * 4 + n1 + 1
  if n1 = 4 ∨ n100 = 4 then
    -- the last day of a leap cycle
    (year - 1, 12, 31)
  else
    let leap := n1 = 3 ∧ (n4 ≠ 24 ∨ n100 = 3)
    let guess := (n + 50) / 32
    let month := if n < daysBeforeMonth leap guess then guess - 1 else guess
    (year, month, n - daysBeforeMonth leap month + 1)

/-- A number in at least `width` decimal digits. -/
def zfill (width n : Nat) : String :=
  String.ofList ((Nat.toDigits 10 n).leftpad width '0')

/-- `datetime.isoformat`: the microseconds appear only when there are some. -/
def isoformat (ts : Timestamp) : String :=
  let (year, month, day) := ymdOfDay (ts / microsPerDay)
  let micros := ts % microsPerDay
  let seconds := micros / 1000000
  let date := zfill 4 year ++ "-" ++ zfill 2 month ++ "-" ++ zfill 2 day
  let time := zfill 2 (seconds / 3600) ++ ":" ++ zfill 2 (seconds / 60 % 60) ++ ":"
    ++ zfill 2 (seconds % 60)
  if micros % 1000000 = 0 then date ++ "T" ++ time
  else date ++ "T" ++ time ++ "." ++ zfill 6 (micros % 1000000)

/-! ## Rows -/

/-- A row of `audit_logs`. -/
structure AuditLog where
  id : Nat
  eventType : String
  userId : Option Int
  agentId : Option String
  resource : Option String
  action : String
  metadataJson : Option String
  ipAddress : Option String
  timestamp : Timestamp
  prevHash : Option String
  entryHash : String
deriving Repr, DecidableEq

/-- What a Python f-string prints for an optional value. -/
def strOrNone : Option String → String
  | some s => s
  | none => "None"

/-- The fields of a payload before the previous hash, as the f-string prints
them. -/
def printedFields (eventType : String) (userId : Option Int) (agentId resource : Option String)
    (action : String) (metadataJson ipAddress : Option String) (timestamp : String) :
    List String :=
  [eventType, strOrNone (userId.map toString), strOrNone agentId, strOrNone resource, action,
    strOrNone metadataJson, strOrNone ipAddress, timestamp]

/-- The f-string that `_compute_hash` hashes: nine fields with `|` between. -/
def hashPayload (eventType : String) (userId : Option Int) (agentId resource : Option String)
    (action : String) (metadataJson ipAddress : Option String) (timestamp : String)
    (prevHash : Option String) : String :=
  "|".intercalate (printedFields eventType userId agentId resource action metadataJson ipAddress
    timestamp ++ [strOrNone prevHash])

section

variable (sha256 : ByteArray → String)

/-- `_compute_hash`. -/
def computeHash (eventType : String) (userId : Option Int) (agentId resource : Option String)
    (action : String) (metadataJson ipAddress : Option String) (timestamp : String)
    (prevHash : Option String) : String :=
  let payload := hashPayload eventType userId agentId resource action metadataJson ipAddress
    timestamp prevHash
  sha256 payload.toUTF8

/-! ## The table -/

/-- The table in ascending `id` order. -/
structure AuditTable where
  rows : List AuditLog
  ordered : rows.Pairwise fun a b => a.id < b.id

def AuditTable.empty : AuditTable := ⟨[], List.Pairwise.nil⟩

/-- Insert a row under an id above all the ids in the table. -/
def AuditTable.insert? (t : AuditTable) (entry : AuditLog) : Option AuditTable :=
  if h : ∀ r ∈ t.rows, r.id < entry.id then
    some ⟨t.rows ++ [entry], List.pairwise_append.mpr
      ⟨t.ordered, List.pairwise_singleton _ _, by simpa using h⟩⟩
  else none

/-- `DELETE` of the rows that meet `p`. -/
def AuditTable.delete (t : AuditTable) (p : AuditLog → Bool) : AuditTable :=
  ⟨t.rows.filter fun r => !p r, t.ordered.filter _⟩

/-- `order_by(AuditLog.id.desc()).first()`. -/
def AuditTable.lastEntry (t : AuditTable) : Option AuditLog :=
  t.rows.getLast?

/-! ## Writing -/

/-- The arguments of a `record_audit_event` call. A metadata value that JSON
cannot hold is given as the string that `default=str` makes of it. -/
structure AuditEvent where
  eventType : String
  action : String
  userId : Option Int := none
  agentId : Option String := none
  resource : Option String := none
  metadata : Option (List (String × Json)) := none
  ipAddress : Option String := none

/-- `json.dumps(metadata, default=str) if metadata else None`. -/
def dumpMetadata : Option (List (String × Json)) → Option String
  | none => none
  | some [] => none
  | some kvs => some (Json.dumps (.obj kvs))

/-- The row that `record_audit_event` builds after its query returned
`lastEntry`. -/
def buildEntry (id : Nat) (ts : Timestamp) (event : AuditEvent) (lastEntry : Option AuditLog) :
    AuditLog :=
  let prevHash := lastEntry.map (·.entryHash)
  let metadataJson := dumpMetadata event.metadata
  { id
    eventType := event.eventType
    userId := event.userId
    agentId := event.agentId
    resource := event.resource
    action := event.action
    metadataJson
    ipAddress := event.ipAddress
    timestamp := ts
    prevHash
    entryHash := computeHash sha256 event.eventType event.userId event.agentId event.resource
      event.action metadataJson event.ipAddress (isoformat ts) prevHash }

/-- `record_audit_event`, run alone: `id` is what the database assigns and `ts`
the time of the call. -/
def recordAuditEvent (t : AuditTable) (id : Nat) (ts : Timestamp) (event : AuditEvent) :
    Option AuditTable :=
  t.insert? (buildEntry sha256 id ts event t.lastEntry)

/-! ## Verifying -/

/-- An element of the verifier's `errors`. -/
structure ChainError where
  id : Nat
  error : String
  expected : Option String
  actual : Option String
deriving Repr, DecidableEq

/-- What `verify_audit_chain` returns. -/
structure ChainReport where
  valid : Bool
  total : Nat
  errors : List ChainError
deriving Repr, DecidableEq

/-- The hash of a stored row, from its stored columns. -/
def rowHash (entry : AuditLog) : String :=
  computeHash sha256 entry.eventType entry.userId entry.agentId entry.resource entry.action
    entry.metadataJson entry.ipAddress (isoformat entry.timestamp) entry.prevHash

/-- The linkage check of one row. -/
def linkErrors (prevHash : Option String) (entry : AuditLog) : List ChainError :=
  if entry.prevHash ≠ prevHash then
    [{ id := entry.id, error := "prev_hash mismatch", expected := prevHash,
       actual := entry.prevHash }]
  else []

/-- The content check of one row. -/
def hashErrors (entry : AuditLog) : List ChainError :=
  let expectedHash := rowHash sha256 entry
  if entry.entryHash ≠ expectedHash then
    [{ id := entry.id, error := "entry_hash mismatch", expected := some expectedHash,
       actual := some entry.entryHash }]
  else []

/-- The loop of `verify_audit_chain`. -/
def verifyFrom : Option String → List AuditLog → List ChainError
  | _, [] => []
  | prevHash, entry :: rest =>
      linkErrors prevHash entry ++ hashErrors sha256 entry ++ verifyFrom (some entry.entryHash) rest

/-- `verify_audit_chain`. -/
def verifyAuditChain (t : AuditTable) : ChainReport :=
  let errors := verifyFrom sha256 none t.rows
  { valid := errors.length == 0, total := t.rows.length, errors }

end

/-! ## Digests given by a table -/

/-- SHA-256 digests are printed in lower-case hexadecimal. -/
def HexDigest (sha256 : ByteArray → String) : Prop :=
  ∀ payload, ∀ c ∈ (sha256 payload).toList, c ∈ "0123456789abcdef".toList

local instance (priority := 1100) payloadDecEq : DecidableEq ByteArray :=
  ByteArray.instDecidableEq

/-- SHA-256 on the listed payloads, to evaluate it where they are the only ones
that matter. -/
def digests (known : List (String × String)) (payload : ByteArray) : String :=
  match known.find? fun e => decide (e.1.toUTF8 = payload) with
  | some e => e.2
  | none => ""

theorem digests_of_mem {known : List (String × String)} (hkeys : (known.map (·.1)).Nodup)
    {e : String × String} (he : e ∈ known) : digests known e.1.toUTF8 = e.2 := by
  unfold digests
  split
  · rename_i e' hfind
    have hkey : e'.1 = e.1 := by
      have hbytes := List.find?_some hfind
      exact String.toByteArray_inj.mp (by simpa using hbytes)
    have hmem := List.mem_of_find?_eq_some hfind
    rw [List.inj_on_of_nodup_map hkeys hmem he hkey]
  · rename_i hfind
    exact absurd (List.find?_eq_none.mp hfind e he) (by simp)

/-- Distinct digests make the table injective on its payloads. -/
theorem digests_injOn {known : List (String × String)} (hkeys : (known.map (·.1)).Nodup)
    (hdigests : (known.map (·.2)).Nodup) :
    Set.InjOn (digests known) {b | ∃ e ∈ known, b = e.1.toUTF8} := by
  rintro _ ⟨e, he, rfl⟩ _ ⟨e', he', rfl⟩ h
  rw [digests_of_mem hkeys he, digests_of_mem hkeys he'] at h
  rw [List.inj_on_of_nodup_map hdigests he he' h]

theorem digests_hex {known : List (String × String)}
    (h : (known.all fun e => e.2.toList.all fun c => "0123456789abcdef".toList.contains c) = true) :
    HexDigest (digests known) := by
  intro payload c hc
  unfold digests at hc
  split at hc
  · rename_i e hfind
    have hall := List.all_eq_true.mp h e (List.mem_of_find?_eq_some hfind)
    exact List.contains_iff_mem.mp (List.all_eq_true.mp hall c hc)
  · exact absurd hc (by simp)

/-! ## The table's operations -/

theorem AuditTable.insert?_eq_some {t t' : AuditTable} {entry : AuditLog} :
    t.insert? entry = some t' ↔ (∀ r ∈ t.rows, r.id < entry.id) ∧ t'.rows = t.rows ++ [entry] := by
  unfold AuditTable.insert?
  split
  · rename_i h
    constructor
    · intro heq
      obtain rfl := Option.some.inj heq
      exact ⟨h, rfl⟩
    · rintro ⟨-, hrows⟩
      cases t'
      simp_all
  · rename_i h
    simp [h]

@[simp] theorem AuditTable.delete_rows (t : AuditTable) (p : AuditLog → Bool) :
    (t.delete p).rows = t.rows.filter fun r => !p r := rfl

@[simp] theorem AuditTable.empty_rows : AuditTable.empty.rows = [] := rfl

/-! ## What the verifier accepts -/

variable {sha256 : ByteArray → String}

/-- The rows link up from `k`, the abstract reading of the linkage check. -/
abbrev Linked (k : Option String) (rows : List AuditLog) : Prop :=
  HashChain.Linked AuditLog.prevHash AuditLog.entryHash k rows

/-- A row's stored hash is the hash of its stored columns. -/
def Sealed (sha256 : ByteArray → String) (entry : AuditLog) : Prop :=
  entry.entryHash = rowHash sha256 entry

@[simp] theorem linkErrors_eq_nil {k : Option String} {entry : AuditLog} :
    linkErrors k entry = [] ↔ entry.prevHash = k := by
  simp [linkErrors]

@[simp] theorem hashErrors_eq_nil {entry : AuditLog} :
    hashErrors sha256 entry = [] ↔ Sealed sha256 entry := by
  simp [hashErrors, Sealed]

theorem verifyFrom_eq_nil {k : Option String} {rows : List AuditLog} :
    verifyFrom sha256 k rows = [] ↔ Linked k rows ∧ ∀ r ∈ rows, Sealed sha256 r := by
  induction rows generalizing k with
  | nil => simp [verifyFrom]
  | cons entry rest ih =>
      simp only [verifyFrom, List.append_eq_nil_iff, linkErrors_eq_nil, hashErrors_eq_nil, ih,
        HashChain.Linked, List.forall_mem_cons]
      tauto

/-- A table verifies exactly when it is one chain of sealed rows that starts
with a row without predecessor. -/
theorem verifyAuditChain_valid {t : AuditTable} :
    (verifyAuditChain sha256 t).valid = true ↔
      Linked none t.rows ∧ ∀ r ∈ t.rows, Sealed sha256 r := by
  simp [verifyAuditChain, ← verifyFrom_eq_nil]

/-! ## What the writer builds -/

theorem buildEntry_sealed (id : Nat) (ts : Timestamp) (event : AuditEvent)
    (lastEntry : Option AuditLog) : Sealed sha256 (buildEntry sha256 id ts event lastEntry) := rfl

theorem tip_eq_lastEntry (rows : List AuditLog) :
    HashChain.tip AuditLog.entryHash none rows = rows.getLast?.map (·.entryHash) := by
  cases h : rows.getLast? with
  | none => simp [HashChain.tip, h]
  | some r => simp [HashChain.tip, h]

/-- `record_audit_event` appends one sealed row that names the last one. -/
theorem recordAuditEvent_eq_some {t t' : AuditTable} {id : Nat} {ts : Timestamp}
    {event : AuditEvent} (h : recordAuditEvent sha256 t id ts event = some t') :
    ∃ entry, t'.rows = t.rows ++ [entry] ∧ entry.timestamp = ts ∧ Sealed sha256 entry ∧
      entry.prevHash = HashChain.tip AuditLog.entryHash none t.rows := by
  obtain ⟨-, hrows⟩ := AuditTable.insert?_eq_some.mp h
  exact ⟨_, hrows, rfl, buildEntry_sealed id ts event t.lastEntry, (tip_eq_lastEntry t.rows).symm⟩

/-- Recording keeps a valid chain valid. -/
theorem recordAuditEvent_valid {t t' : AuditTable} {id : Nat} {ts : Timestamp}
    {event : AuditEvent} (h : recordAuditEvent sha256 t id ts event = some t')
    (hv : (verifyAuditChain sha256 t).valid = true) : (verifyAuditChain sha256 t').valid = true := by
  rw [verifyAuditChain_valid] at hv ⊢
  obtain ⟨entry, hrows, -, hsealed, hprev⟩ := recordAuditEvent_eq_some h
  rw [hrows]
  refine ⟨HashChain.linked_concat.mpr ⟨hv.1, hprev⟩, ?_⟩
  intro r hr
  rcases List.mem_append.mp hr with hr | hr
  · exact hv.2 r hr
  · obtain rfl : r = entry := by simpa using hr
    exact hsealed

end Plaidify.Audit
