import Plaidify.Audit.Tamper
import Plaidify.Lib.Parties
import Mathlib.Data.Multiset.AddSub
import Mathlib.Data.Multiset.ZeroCons
import Mathlib.Data.List.Perm.Lattice

/-!
# Concurrent writers of the audit log

`record_audit_event` taken apart at the points where other calls can come in
between: the query for the last entry, the row lock of `with_for_update`, the
insert and the commit. The database shows committed rows only (READ
COMMITTED). The lock covers the row that the query picked; a query that waits
for it goes on, once the holder commits, with the row it picked before. On
SQLite there is no row lock, and one transaction at a time holds the write lock
from its insert to its commit.

`single_chain_iff` says which runs leave a single chain: exactly those in which
no call queries while another is under way.
-/

namespace Plaidify.Audit.Writers

inductive Backend where
  | postgresql
  | sqlite
deriving Repr, DecidableEq

/-- How far a call has come. -/
inductive Phase where
  /-- The query picked its row and waits for the lock on it. -/
  | querying
  /-- The query returned. -/
  | queried
  /-- The row with this id is inserted, the transaction is open. -/
  | flushed (id : Nat)
deriving Repr, DecidableEq

/-- A `record_audit_event` call under way. -/
structure Call where
  caller : Nat
  event : AuditEvent
  lastEntry : Option AuditLog
  phase : Phase

/-- The table, with the rows of open transactions, and the calls under way. -/
structure State where
  table : AuditTable
  active : List Call

def init : State := ⟨AuditTable.empty, []⟩

/-- The row is part of an open transaction. -/
def uncommitted (s : State) (r : AuditLog) : Bool :=
  s.active.any fun k => k.phase == .flushed r.id

/-- What `last_query.first()` sees. -/
def lastCommitted (s : State) : Option AuditLog :=
  (s.table.rows.filter fun r => !uncommitted s r).getLast?

/-- The call holds the lock on its last entry until it commits. -/
def holds (k : Call) (r : AuditLog) : Bool :=
  k.phase != .querying && k.lastEntry.any fun r' => r'.id == r.id

/-- The lock on the row that the query picked can be granted. -/
def lockFree (backend : Backend) (s : State) (call : Call) : Bool :=
  match backend, call.lastEntry with
  | .sqlite, _ => true
  | .postgresql, none => true
  | .postgresql, some r => s.active.all fun k => !holds k r

/-- The insert can start its write transaction. -/
def writeFree (backend : Backend) (s : State) : Bool :=
  match backend with
  | .sqlite => s.active.all fun k => k.phase == .querying || k.phase == .queried
  | .postgresql => true

inductive Label where
  | query (caller : Nat) (event : AuditEvent)
  | lock (caller : Nat)
  | insert (caller id : Nat) (now : Timestamp)
  | commit (caller : Nat)

/-- The call of a caller and the other calls. -/
def pickCall (s : State) (caller : Nat) : Option (Call × List Call) :=
  Parties.pick (·.caller == caller) s.active

/-- One step of one call. -/
def step (sha256 : ByteArray → String) (backend : Backend) (s : State) : Label → Option State
  | .query caller event =>
      if s.active.any (·.caller == caller) then none
      else
        let call := { caller, event, lastEntry := lastCommitted s, phase := .querying }
        some { s with active := call :: s.active }
  | .lock caller => do
      let (call, others) ← pickCall s caller
      if call.phase = .querying ∧ lockFree backend s call = true then
        some { s with active := { call with phase := .queried } :: others }
      else none
  | .insert caller id now => do
      let (call, others) ← pickCall s caller
      if call.phase = .queried ∧ writeFree backend s = true then
        let table ← s.table.insert? (buildEntry sha256 id now call.event call.lastEntry)
        some { table, active := { call with phase := .flushed id } :: others }
      else none
  | .commit caller => do
      let (call, others) ← pickCall s caller
      match call.phase with
      | .flushed _ => some { s with active := others }
      | _ => none

/-- The state that a run leaves, starting from an empty table. -/
def run (sha256 : ByteArray → String) (backend : Backend) (tr : List Label) : Option State :=
  Runs.exec (step sha256 backend) init tr

/-- A call queries while no other call is under way. -/
def Alone (s : State) : Label → Prop
  | .query _ _ => s.active = []
  | _ => True

variable {sha256 : ByteArray → String} {backend : Backend}

/-! ## What a step can do -/

theorem step_query {s t : State} {caller : Nat} {event : AuditEvent}
    (h : step sha256 backend s (.query caller event) = some t) :
    t = { s with active := ⟨caller, event, lastCommitted s, .querying⟩ :: s.active } := by
  simp only [step] at h
  split at h
  · exact absurd h (by simp)
  · exact (Option.some.inj h).symm

theorem step_lock {s t : State} {caller : Nat} (h : step sha256 backend s (.lock caller) = some t) :
    ∃ call others, s.active.Perm (call :: others) ∧ call.phase = .querying ∧
      t = { s with active := { call with phase := .queried } :: others } := by
  simp only [step, Option.bind_eq_bind, Option.bind_eq_some_iff] at h
  obtain ⟨⟨call, others⟩, hpick, h⟩ := h
  split at h
  · rename_i hc
    exact ⟨call, others, Parties.pick_perm hpick, hc.1, (Option.some.inj h).symm⟩
  · exact absurd h (by simp)

theorem step_insert {s t : State} {caller id : Nat} {now : Timestamp}
    (h : step sha256 backend s (.insert caller id now) = some t) :
    ∃ call others, s.active.Perm (call :: others) ∧ call.phase = .queried ∧
      (∀ r ∈ s.table.rows, r.id < id) ∧
      t.table.rows = s.table.rows ++ [buildEntry sha256 id now call.event call.lastEntry] ∧
      t.active = { call with phase := .flushed id } :: others := by
  simp only [step, Option.bind_eq_bind, Option.bind_eq_some_iff] at h
  obtain ⟨⟨call, others⟩, hpick, h⟩ := h
  split at h
  · rename_i hc
    obtain ⟨table, htable, h⟩ := Option.bind_eq_some_iff.mp h
    obtain ⟨hid, hrows⟩ := AuditTable.insert?_eq_some.mp htable
    obtain rfl := Option.some.inj h
    exact ⟨call, others, Parties.pick_perm hpick, hc.1, hid, hrows, rfl⟩
  · exact absurd h (by simp)

theorem step_commit {s t : State} {caller : Nat}
    (h : step sha256 backend s (.commit caller) = some t) :
    ∃ call others id, s.active.Perm (call :: others) ∧ call.phase = .flushed id ∧
      t = { s with active := others } := by
  simp only [step, Option.bind_eq_bind, Option.bind_eq_some_iff] at h
  obtain ⟨⟨call, others⟩, hpick, h⟩ := h
  split at h
  · rename_i id hphase
    exact ⟨call, others, id, Parties.pick_perm hpick, hphase, (Option.some.inj h).symm⟩
  · exact absurd h (by simp)

/-! ## Claims

A call claims the place after the entry that its query returned, first as a
call under way and then as the `prev_hash` of its row. Steps add claims and
never take one back, so a place claimed twice is never repaired. -/

/-- The place that a call is going to take. -/
def pendingClaim (k : Call) : List (Option String) :=
  match k.phase with
  | .flushed _ => []
  | _ => [k.lastEntry.map (·.entryHash)]

def claims (s : State) : Multiset (Option String) :=
  (s.table.rows.map AuditLog.prevHash : Multiset _) + (s.active.flatMap pendingClaim : Multiset _)

theorem pendingClaims_perm {l : List Call} {call : Call} {others : List Call}
    (h : l.Perm (call :: others)) :
    (l.flatMap pendingClaim : Multiset (Option String)) =
      (pendingClaim call : Multiset _) + (others.flatMap pendingClaim : Multiset _) := by
  rw [Multiset.coe_add, Multiset.coe_eq_coe, ← List.flatMap_cons]
  exact h.flatMap_right _

theorem claims_query {s t : State} {caller : Nat} {event : AuditEvent}
    (h : step sha256 backend s (.query caller event) = some t) :
    claims t = (lastCommitted s).map (·.entryHash) ::ₘ claims s := by
  rw [step_query h]
  simp [claims, pendingClaim, List.flatMap_cons, ← Multiset.cons_coe]

theorem claims_step {s t : State} {l : Label} (h : step sha256 backend s l = some t) :
    claims s ≤ claims t := by
  cases l with
  | query caller event =>
      rw [claims_query h]
      exact Multiset.le_cons_self _ _
  | lock caller =>
      obtain ⟨call, others, hperm, hphase, rfl⟩ := step_lock h
      simp only [claims, pendingClaims_perm hperm, List.flatMap_cons]
      simp [pendingClaim, hphase]
  | insert caller id now =>
      obtain ⟨call, others, hperm, hphase, -, hrows, hactive⟩ := step_insert h
      simp only [claims, pendingClaims_perm hperm, hrows, hactive, List.flatMap_cons]
      simp [pendingClaim, hphase, buildEntry, ← Multiset.coe_add, Multiset.add_assoc]
  | commit caller =>
      obtain ⟨call, others, id, hperm, hphase, rfl⟩ := step_commit h
      simp only [claims, pendingClaims_perm hperm]
      simp [pendingClaim, hphase]

theorem claims_run {s u : State} {tr : List Label}
    (h : Runs.exec (step sha256 backend) s tr = some u) : claims s ≤ claims u :=
  Runs.relation (R := fun s t => claims s ≤ claims t) (fun _ => le_refl _) (fun _ _ _ => le_trans)
    (fun _ _ _ => claims_step) h

/-! ## Runs in which every call queries alone -/

/-- At most one call is under way, and it continues the chain. -/
inductive Sequential (s : State) : Prop
  | idle (hactive : s.active = [])
  | reading (call : Call) (hactive : s.active = [call]) (hphase : ∀ id, call.phase ≠ .flushed id)
      (hlast : call.lastEntry = s.table.rows.getLast?)
  | writing (call : Call) (before : List AuditLog) (entry : AuditLog) (hactive : s.active = [call])
      (hphase : call.phase = .flushed entry.id) (hrows : s.table.rows = before ++ [entry])
      (hprev : entry.prevHash = before.getLast?.map (·.entryHash))

/-- What holds in every state of a run whose queries are alone. -/
structure Inv (sha256 : ByteArray → String) (s : State) : Prop where
  valid : (verifyAuditChain sha256 s.table).valid = true
  sequential : Sequential s

theorem init_inv : Inv sha256 init := ⟨rfl, .idle rfl⟩

theorem lastCommitted_of_nothing_flushed {s : State}
    (h : ∀ k ∈ s.active, ∀ id, k.phase ≠ .flushed id) :
    lastCommitted s = s.table.rows.getLast? := by
  unfold lastCommitted
  congr 1
  refine List.filter_eq_self.mpr fun r _ => ?_
  simpa [uncommitted] using fun k hk => h k hk r.id

theorem lastCommitted_of_flushed {s : State} {call : Call} {before : List AuditLog}
    {entry : AuditLog} (hactive : s.active = [call]) (hphase : call.phase = .flushed entry.id)
    (hrows : s.table.rows = before ++ [entry]) : lastCommitted s = before.getLast? := by
  have hordered := s.table.ordered
  rw [hrows] at hordered
  have hlt : ∀ r ∈ before, r.id < entry.id := fun r hr =>
    (List.pairwise_append.mp hordered).2.2 r hr entry (by simp)
  unfold lastCommitted
  congr 1
  rw [hrows, List.filter_append, List.filter_eq_self.mpr, List.filter_eq_nil_iff.mpr,
    List.append_nil]
  · simp [uncommitted, hactive, hphase]
  · intro r hr
    have hne : entry.id ≠ r.id := Nat.ne_of_gt (hlt r hr)
    simp [uncommitted, hactive, hphase, hne]

/-- In a sequential state with a call under way, whoever queries now claims the
place of that call. -/
theorem lastCommitted_mem_claims {s : State} (hs : Sequential s) (hne : s.active ≠ []) :
    (lastCommitted s).map (·.entryHash) ∈ claims s := by
  cases hs with
  | idle hactive => exact absurd hactive hne
  | reading call hactive hphase hlast =>
      rw [lastCommitted_of_nothing_flushed (by simpa [hactive] using hphase), ← hlast]
      have hpending : pendingClaim call = [call.lastEntry.map (·.entryHash)] := by
        unfold pendingClaim
        split
        · rename_i id h
          exact absurd h (hphase id)
        · rfl
      simp [claims, hactive, hpending]
  | writing call before entry hactive hphase hrows hprev =>
      rw [lastCommitted_of_flushed hactive hphase hrows, ← hprev]
      simp [claims, hrows]

/-- The one call under way is the one that takes the step. -/
theorem others_eq_nil {s : State} (hs : Sequential s) {call : Call} {others : List Call}
    (hperm : s.active.Perm (call :: others)) : s.active = [call] ∧ others = [] := by
  have honly : ∀ k, s.active = [k] → s.active = [call] ∧ others = [] := by
    intro k hk
    rw [hk] at hperm ⊢
    have h := List.singleton_perm.mp hperm
    exact ⟨by rw [(List.cons.inj h).1], (List.cons.inj h).2.symm⟩
  cases hs with
  | idle hactive =>
      rw [hactive] at hperm
      exact absurd hperm.length_eq (by simp)
  | reading k hactive _ _ => exact honly k hactive
  | writing k _ _ hactive _ _ _ => exact honly k hactive

theorem step_inv {s t : State} {l : Label} (hs : Inv sha256 s) (hC : Alone s l)
    (h : step sha256 backend s l = some t) : Inv sha256 t := by
  cases l with
  | query caller event =>
      have hactive : s.active = [] := hC
      obtain rfl := step_query h
      refine ⟨hs.valid, .reading _ (by rw [hactive]) (by simp) ?_⟩
      exact lastCommitted_of_nothing_flushed (by simp [hactive])
  | lock caller =>
      obtain ⟨call, others, hperm, hphase, rfl⟩ := step_lock h
      obtain ⟨hactive, rfl⟩ := others_eq_nil hs.sequential hperm
      refine ⟨hs.valid, ?_⟩
      rcases hs.sequential with hidle | ⟨k, hk, -, hlast⟩ | ⟨k, _, _, hk, hflushed, _, _⟩
      · rw [hidle] at hactive
        exact absurd hactive (by simp)
      · obtain rfl : k = call := by simpa [hk] using hactive
        exact .reading _ rfl (by simp) hlast
      · obtain rfl : k = call := by simpa [hk] using hactive
        rw [hphase] at hflushed
        exact absurd hflushed (by simp)
  | insert caller id now =>
      obtain ⟨call, others, hperm, hphase, -, hrows, hactive'⟩ := step_insert h
      obtain ⟨hactive, rfl⟩ := others_eq_nil hs.sequential hperm
      rcases hs.sequential with hidle | ⟨k, hk, -, hlast⟩ | ⟨k, _, _, hk, hflushed, _, _⟩
      · rw [hidle] at hactive
        exact absurd hactive (by simp)
      · obtain rfl : k = call := by simpa [hk] using hactive
        have hvalid := verifyAuditChain_valid.mp hs.valid
        refine ⟨verifyAuditChain_valid.mpr ?_, .writing _ _ _ hactive' rfl hrows ?_⟩
        · rw [hrows]
          refine ⟨HashChain.linked_concat.mpr ⟨hvalid.1, ?_⟩, ?_⟩
          · rw [tip_eq_lastEntry, ← hlast]
            rfl
          · intro r hr
            rcases List.mem_append.mp hr with hr | hr
            · exact hvalid.2 r hr
            · obtain rfl := List.mem_singleton.mp hr
              exact buildEntry_sealed _ _ _ _
        · rw [← hlast]
          rfl
      · obtain rfl : k = call := by simpa [hk] using hactive
        rw [hphase] at hflushed
        exact absurd hflushed (by simp)
  | commit caller =>
      obtain ⟨call, others, id, hperm, -, rfl⟩ := step_commit h
      obtain ⟨-, rfl⟩ := others_eq_nil hs.sequential hperm
      exact ⟨hs.valid, .idle rfl⟩

/-- From a sequential state, a run that ends without a place claimed twice
queried alone at every step. -/
theorem alone_of_nodup_claims {s u : State} {tr : List Label} (hs : Inv sha256 s)
    (h : Runs.exec (step sha256 backend) s tr = some u) (hnodup : (claims u).Nodup) :
    Runs.Along (step sha256 backend) Alone s tr := by
  induction tr generalizing s with
  | nil => trivial
  | cons l tr ih =>
      obtain ⟨t, hl, htr⟩ := Runs.exec_cons.mp h
      have hnodup' : (claims t).Nodup := Multiset.nodup_of_le (claims_run htr) hnodup
      have hC : Alone s l := by
        cases l with
        | query caller event =>
            by_contra hne
            rw [claims_query hl, Multiset.nodup_cons] at hnodup'
            exact hnodup'.1 (lastCommitted_mem_claims hs.sequential hne)
        | lock _ => trivial
        | insert _ _ _ => trivial
        | commit _ => trivial
      exact (Runs.along_cons hl).mpr ⟨hC, ih (step_inv hs hC hl) htr⟩

/-- A run that ends with no call under way leaves a single chain, with no two
entries of one predecessor, exactly when every call queried while no other call
was under way. -/
theorem single_chain_iff {tr : List Label} {s : State} (h : run sha256 backend tr = some s)
    (hdone : s.active = []) (hhex : HexDigest sha256)
    (hinj : Set.InjOn sha256 (Tamper.hashedBytes s.table)) :
    ((s.table.rows.map AuditLog.prevHash).Nodup ∧ (verifyAuditChain sha256 s.table).valid = true) ↔
      Runs.Along (step sha256 backend) Alone init tr := by
  constructor
  · rintro ⟨hnodup, -⟩
    refine alone_of_nodup_claims init_inv h ?_
    simpa [claims, hdone] using hnodup
  · intro hC
    have hvalid := (Runs.invariant_along (fun _ _ _ => step_inv) init_inv hC h).valid
    refine ⟨?_, hvalid⟩
    exact HashChain.nodup_prev (verifyAuditChain_valid.mp hvalid).1
      (Tamper.prevHash_eq_of_entryHash_eq hhex hvalid hinj)

/-- A login by the user with this id. -/
def login (userId : Int) : AuditEvent :=
  { eventType := "auth", action := "login", userId := some userId }

/-- Payload and digest of a login of user 7. -/
def firstLogin : String × String :=
  ("auth|7|None|None|login|None|None|2021-07-30T00:00:00|None",
   "18367d975549803df044456acb7dee4888f03e45af81d8441d5adbc67a22dd77")

/-- Payload and digest of a login of user 8, after that of user 7. -/
def secondLogin : String × String :=
  ("auth|8|None|None|login|None|None|2021-07-30T00:00:01|" ++ firstLogin.2,
   "dcb41ce79ecba1d51f49a9792de7754033a65757cf33ee81308d7be6492b7e18")

/-- Payload and digest of a login of user 9, after that of user 7. -/
def rivalLogin : String × String :=
  ("auth|9|None|None|login|None|None|2021-07-30T00:00:02|" ++ firstLogin.2,
   "a3bea8da2515e4e4d948fb9fba7743274b853c74e39762c37bb8ef8f9bd45c30")

/-- SHA-256 on these payloads. -/
def loginDigests : ByteArray → String :=
  digests [firstLogin, secondLogin, rivalLogin]

/-- Users 8 and 9 log in at once, after user 7: both queries return the entry of
user 7, the second one only when the first call has committed. -/
def race : List Label :=
  [.query 0 (login 7), .lock 0, .insert 0 1 (738000 * microsPerDay), .commit 0,
   .query 1 (login 8), .query 2 (login 9),
   .lock 1, .insert 1 2 (738000 * microsPerDay + 1000000), .commit 1,
   .lock 2, .insert 2 3 (738000 * microsPerDay + 2000000), .commit 2]

/-- The entry of user 7. -/
def firstEntry : AuditLog :=
  buildEntry loginDigests 1 (738000 * microsPerDay) (login 7) none

/-- The entry of user 8, after that of user 7. -/
def secondEntry : AuditLog :=
  buildEntry loginDigests 2 (738000 * microsPerDay + 1000000) (login 8) (some firstEntry)

/-- The entry of user 9, after that of user 7. -/
def rivalEntry : AuditLog :=
  buildEntry loginDigests 3 (738000 * microsPerDay + 2000000) (login 9) (some firstEntry)

theorem firstEntry_payload : Tamper.rowPayload firstEntry = firstLogin.1 := by
  decide +kernel

theorem firstEntry_hash : firstEntry.entryHash = firstLogin.2 := by
  calc firstEntry.entryHash
      = rowHash loginDigests firstEntry := buildEntry_sealed _ _ _ _
    _ = loginDigests (Tamper.rowPayload firstEntry).toUTF8 := Tamper.rowHash_eq _
    _ = loginDigests firstLogin.1.toUTF8 := by rw [firstEntry_payload]
    _ = firstLogin.2 := digests_of_mem (by decide +kernel) List.mem_cons_self

theorem secondEntry_payload : Tamper.rowPayload secondEntry = secondLogin.1 := by
  have hprinted : Tamper.rowPayload secondEntry =
      hashPayload "auth" (some 8) none none "login" none none
        (isoformat (738000 * microsPerDay + 1000000)) (some firstEntry.entryHash) := by
    simp only [Tamper.rowPayload, secondEntry, buildEntry, login, dumpMetadata, Option.map_some]
  rw [hprinted, firstEntry_hash]
  decide +kernel

theorem secondEntry_hash : secondEntry.entryHash = secondLogin.2 := by
  calc secondEntry.entryHash
      = rowHash loginDigests secondEntry := buildEntry_sealed _ _ _ _
    _ = loginDigests (Tamper.rowPayload secondEntry).toUTF8 := Tamper.rowHash_eq _
    _ = loginDigests secondLogin.1.toUTF8 := by rw [secondEntry_payload]
    _ = secondLogin.2 := digests_of_mem (by decide +kernel) (List.mem_cons_of_mem _ List.mem_cons_self)

/-- The race leaves two entries with one predecessor, and the log does not
verify. -/
theorem race_forks_chain :
    run loginDigests .postgresql race =
        some ⟨⟨[firstEntry, secondEntry, rivalEntry], by decide⟩, []⟩ ∧
      secondEntry.prevHash = rivalEntry.prevHash ∧
      (verifyAuditChain loginDigests
        ⟨[firstEntry, secondEntry, rivalEntry], by decide⟩).valid = false := by
  refine ⟨rfl, rfl, Bool.eq_false_iff.mpr ?_⟩
  intro hv
  -- The third entry names the first one where the verifier expects the second.
  have hthird : rivalEntry.prevHash = some secondEntry.entryHash :=
    (verifyAuditChain_valid.mp hv).1.2.2.1
  have hfirst : rivalEntry.prevHash = some firstEntry.entryHash := rfl
  rw [hfirst, firstEntry_hash, secondEntry_hash] at hthird
  exact absurd hthird (by decide +kernel)

/-- User 8 logs in when user 7 is done. -/
def inTurn : List Label :=
  [.query 0 (login 7), .lock 0, .insert 0 1 (738000 * microsPerDay), .commit 0,
   .query 1 (login 8), .lock 1, .insert 1 2 (738000 * microsPerDay + 1000000), .commit 1]

theorem inTurn_single_chain :
    ([firstEntry, secondEntry].map AuditLog.prevHash).Nodup ∧
      (verifyAuditChain loginDigests ⟨[firstEntry, secondEntry], by decide⟩).valid = true := by
  have hrun : run loginDigests .postgresql inTurn =
      some ⟨⟨[firstEntry, secondEntry], by decide⟩, []⟩ := rfl
  refine (single_chain_iff hrun rfl (digests_hex (by decide +kernel))
    ((digests_injOn (by decide +kernel) (by decide +kernel)).mono ?_)).mpr ?_
  · rintro c ⟨r, hr, rfl⟩
    rcases List.mem_cons.mp hr with rfl | hr
    · exact ⟨_, List.mem_cons_self, rfl⟩
    · obtain rfl := List.mem_singleton.mp hr
      exact ⟨_, List.mem_cons_of_mem _ List.mem_cons_self, by rw [secondEntry_payload]⟩
  · exact ⟨rfl, trivial, trivial, trivial, rfl, trivial, trivial, trivial, trivial⟩

end Plaidify.Audit.Writers
