import Plaidify.Audit.Log
import Plaidify.Lib.Runs

/-!
# Tamper evidence of the audit log

What a change of the stored content fields does to `verify_audit_chain` when it
leaves `prev_hash` and `entry_hash` alone, SHA-256 being injective on the
payloads at hand.

The payload joins the printed fields with `|`, prints a missing value as
`None`, and escapes neither. So it determines the fields only up to their
`pieces`, and `altered_valid_iff` says just that: the verifier notices a change
exactly when it changes the pieces of some row.
-/

namespace Plaidify.Audit.Tamper

/-! ## The payload as an encoding -/

/-- The payload that a stored row hashes to. -/
def rowPayload (entry : AuditLog) : String :=
  hashPayload entry.eventType entry.userId entry.agentId entry.resource entry.action
    entry.metadataJson entry.ipAddress (isoformat entry.timestamp) entry.prevHash

/-- The content fields of a row as the payload prints them. -/
def rowFields (entry : AuditLog) : List String :=
  printedFields entry.eventType entry.userId entry.agentId entry.resource entry.action
    entry.metadataJson entry.ipAddress (isoformat entry.timestamp)

/-- The content fields of a row, printed and cut at every `|`. -/
def fieldPieces (entry : AuditLog) : List (List Char) :=
  Separated.pieces '|' ((rowFields entry).map String.toList)

theorem rowPayload_toList (entry : AuditLog) :
    (rowPayload entry).toList =
      ['|'].intercalate ((rowFields entry).map String.toList ++
        [(strOrNone entry.prevHash).toList]) := by
  simp only [rowPayload, hashPayload, rowFields, String.toList_intercalate, List.map_append,
    List.map_cons, List.map_nil]
  rfl

/-- Two rows with the same predecessor have one payload exactly when their
fields have the same pieces. -/
theorem rowPayload_eq_iff {a b : AuditLog} (hprev : a.prevHash = b.prevHash) :
    rowPayload a = rowPayload b ↔ fieldPieces a = fieldPieces b := by
  rw [← String.toList_inj, rowPayload_toList, rowPayload_toList,
    Separated.join_eq_join_iff '|' (by simp) (by simp), Separated.pieces_append,
    Separated.pieces_append, hprev]
  exact List.append_left_inj _

/-- Without a `|` in the printed fields, the pieces are the printed fields. -/
theorem fieldPieces_of_no_bar {entry : AuditLog} (h : ∀ f ∈ rowFields entry, '|' ∉ f.toList) :
    fieldPieces entry = (rowFields entry).map String.toList :=
  Separated.pieces_eq_self (by simpa using h)

/-- A printed digest is neither cut at a `|` nor mistaken for a missing one. -/
theorem strOrNone_digest {sha256 : ByteArray → String} (hhex : HexDigest sha256)
    {prev : Option String} (h : prev = none ∨ ∃ payload, prev = some (sha256 payload)) :
    '|' ∉ (strOrNone prev).toList ∧ (strOrNone prev = "None" → prev = none) := by
  rcases h with rfl | ⟨payload, rfl⟩
  · exact ⟨by decide, fun _ => rfl⟩
  · refine ⟨fun hbar => absurd (hhex payload '|' hbar) (by decide), ?_⟩
    intro hnone
    have hN : 'N' ∈ (sha256 payload).toList := by
      have hnone' : sha256 payload = "None" := hnone
      rw [hnone']
      decide
    exact absurd (hhex payload 'N' hN) (by decide)

/-- The payload determines the previous hash. -/
theorem prevHash_eq_of_rowPayload_eq {sha256 : ByteArray → String} (hhex : HexDigest sha256)
    {a b : AuditLog} (ha : a.prevHash = none ∨ ∃ payload, a.prevHash = some (sha256 payload))
    (hb : b.prevHash = none ∨ ∃ payload, b.prevHash = some (sha256 payload))
    (h : rowPayload a = rowPayload b) : a.prevHash = b.prevHash := by
  obtain ⟨hbara, hnonea⟩ := strOrNone_digest hhex ha
  obtain ⟨hbarb, hnoneb⟩ := strOrNone_digest hhex hb
  rw [← String.toList_inj, rowPayload_toList, rowPayload_toList,
    Separated.join_eq_join_iff '|' (by simp) (by simp)] at h
  have hprinted := String.toList_inj.mp (Separated.last_eq_of_pieces_eq hbara hbarb h)
  cases hpa : a.prevHash with
  | none =>
      rw [hpa] at hprinted
      exact (hnoneb hprinted.symm).symm
  | some x =>
      cases hpb : b.prevHash with
      | none =>
          rw [hpb] at hprinted
          exact absurd (hnonea hprinted) (by simp [hpa])
      | some y =>
          rw [hpa, hpb] at hprinted
          exact congrArg some hprinted

/-! ## Logs and their alterations -/

/-- A `record_audit_event` call: its arguments, the id the database assigns and
the time. -/
structure RecordCall where
  id : Nat
  now : Timestamp
  event : AuditEvent

/-- The table that a sequence of calls leaves, starting from an empty one. -/
def recordAll (sha256 : ByteArray → String) (calls : List RecordCall) : Option AuditTable :=
  Runs.exec (fun t (c : RecordCall) => recordAuditEvent sha256 t c.id c.now c.event)
    AuditTable.empty calls

/-- A row whose content fields may have changed, and nothing else. -/
def SameHashes (before after : AuditLog) : Prop :=
  after.id = before.id ∧ after.prevHash = before.prevHash ∧ after.entryHash = before.entryHash

/-- Content fields of some rows were overwritten in place. -/
def Altered (before after : AuditTable) : Prop :=
  List.Forall₂ SameHashes before.rows after.rows

/-- The byte strings that hashing the rows of a table applies SHA-256 to. -/
def hashedBytes (t : AuditTable) : Set ByteArray :=
  {b | ∃ r ∈ t.rows, b = (rowPayload r).toUTF8}

variable {sha256 : ByteArray → String}

theorem rowHash_eq (entry : AuditLog) :
    rowHash sha256 entry = sha256 (rowPayload entry).toUTF8 := rfl

/-- Every recorded log verifies. -/
theorem recordAll_valid {calls : List RecordCall} {t : AuditTable}
    (h : recordAll sha256 calls = some t) : (verifyAuditChain sha256 t).valid = true :=
  Runs.invariant (I := fun t => (verifyAuditChain sha256 t).valid = true)
    (fun _ _ _ hv hstep => recordAuditEvent_valid hstep hv) rfl h

/-- The linkage check does not see the content fields. -/
theorem linked_of_sameHashes {k : Option String} {rows rows' : List AuditLog}
    (h : List.Forall₂ SameHashes rows rows') (hl : Linked k rows) : Linked k rows' := by
  induction h generalizing k with
  | nil => trivial
  | cons hsame _ ih =>
      obtain ⟨hprev, hrest⟩ := hl
      obtain ⟨-, hprev', hentry'⟩ := hsame
      refine ⟨hprev'.trans hprev, ?_⟩
      rw [hentry']
      exact ih hrest

/-- The content check of an altered row compares the pieces. -/
theorem sealed_altered_iff {before after : AuditLog} (hsame : SameHashes before after)
    (hsealed : Sealed sha256 before)
    (hinj : sha256 (rowPayload after).toUTF8 = sha256 (rowPayload before).toUTF8 →
      (rowPayload after).toUTF8 = (rowPayload before).toUTF8) :
    Sealed sha256 after ↔ fieldPieces after = fieldPieces before := by
  obtain ⟨-, hprev, hentry⟩ := hsame
  calc Sealed sha256 after
      ↔ sha256 (rowPayload after).toUTF8 = sha256 (rowPayload before).toUTF8 := by
        unfold Sealed
        rw [hentry, hsealed, rowHash_eq, rowHash_eq]
        exact eq_comm
    _ ↔ (rowPayload after).toUTF8 = (rowPayload before).toUTF8 :=
        ⟨hinj, fun h => by rw [h]⟩
    _ ↔ rowPayload after = rowPayload before := String.toByteArray_inj
    _ ↔ fieldPieces after = fieldPieces before := rowPayload_eq_iff hprev

theorem sealed_rows_altered_iff {rows rows' : List AuditLog}
    (h : List.Forall₂ SameHashes rows rows') (hsealed : ∀ r ∈ rows, Sealed sha256 r)
    (hinj : ∀ a ∈ rows', ∀ b ∈ rows, sha256 (rowPayload a).toUTF8 = sha256 (rowPayload b).toUTF8 →
      (rowPayload a).toUTF8 = (rowPayload b).toUTF8) :
    (∀ r ∈ rows', Sealed sha256 r) ↔ rows'.map fieldPieces = rows.map fieldPieces := by
  induction h with
  | nil => simp
  | @cons before after rest rest' hsame _ ih =>
      have hrow := sealed_altered_iff hsame (hsealed before (by simp))
        (hinj after (by simp) before (by simp))
      have hrest := ih (fun r hr => hsealed r (by simp [hr]))
        fun a ha b hb => hinj a (by simp [ha]) b (by simp [hb])
      rw [List.forall_mem_cons, hrow, hrest, List.map_cons, List.map_cons, List.cons.injEq]

/-- In a verified log, rows with one hash name one predecessor. -/
theorem prevHash_eq_of_entryHash_eq {t : AuditTable} (hhex : HexDigest sha256)
    (hv : (verifyAuditChain sha256 t).valid = true) (hinj : Set.InjOn sha256 (hashedBytes t)) :
    ∀ x ∈ t.rows, ∀ y ∈ t.rows, x.entryHash = y.entryHash → x.prevHash = y.prevHash := by
  obtain ⟨hlinked, hsealed⟩ := verifyAuditChain_valid.mp hv
  have hdigest : ∀ x ∈ t.rows,
      x.prevHash = none ∨ ∃ payload, x.prevHash = some (sha256 payload) := by
    intro x hx
    rcases HashChain.prev_mem hlinked hx with hnone | ⟨w, hw, hxw⟩
    · exact Or.inl hnone
    · exact Or.inr ⟨_, by rw [hxw, hsealed w hw, rowHash_eq]⟩
  intro x hx y hy hxy
  rw [hsealed x hx, hsealed y hy, rowHash_eq, rowHash_eq] at hxy
  have hbytes := hinj ⟨x, hx, rfl⟩ ⟨y, hy, rfl⟩ hxy
  exact prevHash_eq_of_rowPayload_eq hhex (hdigest x hx) (hdigest y hy)
    (String.toByteArray_inj.mp hbytes)

/-- An altered log fails to verify exactly when some row's fields, printed and
cut at every `|`, are no longer what they were. -/
theorem altered_valid_iff {calls : List RecordCall} {t t' : AuditTable}
    (h : recordAll sha256 calls = some t) (halt : Altered t t')
    (hinj : Set.InjOn sha256 (hashedBytes t ∪ hashedBytes t')) :
    (verifyAuditChain sha256 t').valid = false ↔
      t'.rows.map fieldPieces ≠ t.rows.map fieldPieces := by
  obtain ⟨hlinked, hsealed⟩ := verifyAuditChain_valid.mp (recordAll_valid h)
  have hrows := sealed_rows_altered_iff halt hsealed fun a ha b hb heq =>
    hinj (Or.inr ⟨a, ha, rfl⟩) (Or.inl ⟨b, hb, rfl⟩) heq
  rw [Bool.eq_false_iff, ne_eq, ne_eq, verifyAuditChain_valid, ← hrows]
  simp [linked_of_sameHashes halt hlinked]

/-- A login by user 7, through no agent. -/
def login : RecordCall :=
  ⟨1, 738000 * microsPerDay, { eventType := "auth", action := "login", userId := some 7 }⟩

/-- SHA-256 on the payloads of that login and of a logout. -/
def loginDigests : ByteArray → String :=
  digests
    [("auth|7|None|None|login|None|None|2021-07-30T00:00:00|None",
      "18367d975549803df044456acb7dee4888f03e45af81d8441d5adbc67a22dd77"),
     ("auth|7|None|None|logout|None|None|2021-07-30T00:00:00|None",
      "b18984dee1179e88513a30f797e990f66b03d5049fd4cb11ead53beb807c3cc8")]

def loginRow : AuditLog := buildEntry loginDigests login.id login.now login.event none

/-- The log of that login, with the columns `agent_id` and `action` overwritten. -/
def loginTable (agentId : Option String) (action : String) : AuditTable :=
  ⟨[{ loginRow with agentId, action }], List.pairwise_singleton _ _⟩

/-- Setting a null `agent_id` to the text `None` goes unnoticed. -/
theorem none_agent_not_noticed :
    recordAll loginDigests [login] = some (loginTable none "login") ∧
      Altered (loginTable none "login") (loginTable (some "None") "login") ∧
      loginTable (some "None") "login" ≠ loginTable none "login" ∧
      Set.InjOn loginDigests (hashedBytes (loginTable none "login") ∪
        hashedBytes (loginTable (some "None") "login")) ∧
      (verifyAuditChain loginDigests (loginTable (some "None") "login")).valid = true := by
  refine ⟨rfl, List.Forall₂.cons ⟨rfl, rfl, rfl⟩ List.Forall₂.nil, ?_, ?_, ?_⟩
  · intro h
    have hagent := congrArg (fun t : AuditTable => t.rows.map AuditLog.agentId) h
    exact absurd hagent (by decide)
  · refine (digests_injOn (by decide) (by decide)).mono ?_
    rintro c (⟨r, hr, rfl⟩ | ⟨r, hr, rfl⟩)
    · obtain rfl := List.mem_singleton.mp hr
      exact ⟨_, List.mem_cons_self, rfl⟩
    · obtain rfl := List.mem_singleton.mp hr
      exact ⟨_, List.mem_cons_self, rfl⟩
  · rw [verifyAuditChain_valid]
    refine ⟨⟨rfl, trivial⟩, ?_⟩
    intro r hr
    obtain rfl := List.mem_singleton.mp hr
    rfl

/-- Turning the login into a logout is noticed. -/
theorem logout_noticed :
    (verifyAuditChain loginDigests (loginTable none "logout")).valid = false := by
  have hrec : recordAll loginDigests [login] = some (loginTable none "login") := rfl
  have halt : Altered (loginTable none "login") (loginTable none "logout") :=
    List.Forall₂.cons ⟨rfl, rfl, rfl⟩ List.Forall₂.nil
  refine (altered_valid_iff hrec halt
    ((digests_injOn (by decide) (by decide)).mono ?_)).mpr ?_
  · rintro c (⟨r, hr, rfl⟩ | ⟨r, hr, rfl⟩)
    · obtain rfl := List.mem_singleton.mp hr
      exact ⟨_, List.mem_cons_self, rfl⟩
    · obtain rfl := List.mem_singleton.mp hr
      exact ⟨_, List.mem_cons_of_mem _ List.mem_cons_self, rfl⟩
  · intro heq
    have hprev : ({ loginRow with agentId := none, action := "logout" } : AuditLog).prevHash =
        ({ loginRow with agentId := none, action := "login" } : AuditLog).prevHash := rfl
    have hpayload := (rowPayload_eq_iff hprev).mpr (List.cons.inj heq).1
    exact absurd hpayload (by decide)

end Plaidify.Audit.Tamper
