import Plaidify.Audit.Log
import Plaidify.Lib.Runs

/-!
# The audit chain under retention

`_cleanup_old_audit_logs` of `src/src/app.py` deletes the entries older than
the retention period; the verifier knows nothing about it. A history is any
sequence of recorded events and cleanup runs.

`verify_after_every_step_iff` says when the log verifies all along a history:
exactly when every cleanup run finds no expired entry or only expired entries.
A run that deletes some entries and keeps others leaves a first row that names
a deleted one, and the verifier reports it.
-/

namespace Plaidify.Audit.Retention

/-- One step of a history. -/
inductive Step where
  /-- `record_audit_event`, with the id the database assigns and the time. -/
  | record (id : Nat) (now : Timestamp) (event : AuditEvent)
  /-- One turn of the cleanup loop. -/
  | cleanup (now : Timestamp)

section

variable (sha256 : ByteArray → String) (auditRetentionDays : Int)

/-- `datetime.now(timezone.utc) - timedelta(days=settings.audit_retention_days)`. -/
def cutoff (now : Timestamp) : Int :=
  now - auditRetentionDays * microsPerDay

/-- `AuditLog.timestamp < cutoff`. -/
def expired (now : Timestamp) (entry : AuditLog) : Bool :=
  decide ((entry.timestamp : Int) < cutoff auditRetentionDays now)

/-- The body of the loop of `_cleanup_old_audit_logs`. -/
def cleanupOldAuditLogs (t : AuditTable) (now : Timestamp) : AuditTable :=
  t.delete (expired auditRetentionDays now)

/-- A step is enabled when it keeps the timestamps non-decreasing in `id`. -/
def step (t : AuditTable) : Step → Option AuditTable
  | .record id now event =>
      if ∀ r ∈ t.rows, r.timestamp ≤ now then recordAuditEvent sha256 t id now event else none
  | .cleanup now => some (cleanupOldAuditLogs auditRetentionDays t now)

/-- The table that a history leaves, starting from an empty one. -/
def run (history : List Step) : Option AuditTable :=
  Runs.exec (step sha256 auditRetentionDays) AuditTable.empty history

/-- A cleanup run keeps every entry or none. -/
def AllOrNothing (t : AuditTable) : Step → Prop
  | .record _ _ _ => True
  | .cleanup now =>
      (∀ r ∈ t.rows, expired auditRetentionDays now r = false) ∨
        ∀ r ∈ t.rows, expired auditRetentionDays now r = true

end

variable {sha256 : ByteArray → String} {auditRetentionDays : Int}

/-! ## What a step can do -/

theorem step_record {t t' : AuditTable} {id : Nat} {now : Timestamp} {event : AuditEvent}
    (h : step sha256 auditRetentionDays t (.record id now event) = some t') :
    (∀ r ∈ t.rows, r.timestamp ≤ now) ∧ recordAuditEvent sha256 t id now event = some t' := by
  simp only [step] at h
  split at h
  · rename_i hmono
    exact ⟨hmono, h⟩
  · exact absurd h (by simp)

theorem step_cleanup {t t' : AuditTable} {now : Timestamp}
    (h : step sha256 auditRetentionDays t (.cleanup now) = some t') :
    t'.rows = t.rows.filter fun r => !expired auditRetentionDays now r := by
  obtain rfl := Option.some.inj h
  rfl

/-! ## Timestamps stay in order -/

/-- Timestamps are non-decreasing in `id`. -/
def TimeOrdered (t : AuditTable) : Prop :=
  t.rows.Pairwise fun a b => a.timestamp ≤ b.timestamp

theorem init_inv : TimeOrdered AuditTable.empty := List.Pairwise.nil

theorem step_inv {t t' : AuditTable} {l : Step} (ht : TimeOrdered t)
    (h : step sha256 auditRetentionDays t l = some t') : TimeOrdered t' := by
  cases l with
  | record id now event =>
      obtain ⟨hmono, hrec⟩ := step_record h
      obtain ⟨entry, hrows, htime, -, -⟩ := recordAuditEvent_eq_some hrec
      unfold TimeOrdered
      rw [hrows]
      refine List.pairwise_append.mpr ⟨ht, List.pairwise_singleton _ _, ?_⟩
      intro a ha b hb
      obtain rfl : b = entry := by simpa using hb
      rw [htime]
      exact hmono a ha
  | cleanup now =>
      unfold TimeOrdered
      rw [step_cleanup h]
      exact List.Pairwise.filter _ ht

/-! ## What a cleanup run leaves -/

/-- In a list ordered by a key, deleting what lies below a bound deletes a
front of the list. -/
theorem filter_eq_suffix (auditRetentionDays : Int) (now : Timestamp) {rows : List AuditLog}
    (h : rows.Pairwise fun a b => a.timestamp ≤ b.timestamp) :
    ∃ front, rows = front ++ rows.filter (fun r => !expired auditRetentionDays now r) ∧
      ∀ r ∈ front, expired auditRetentionDays now r = true := by
  induction rows with
  | nil => exact ⟨[], rfl, by simp⟩
  | cons r rest ih =>
      obtain ⟨hle, hrest⟩ := List.pairwise_cons.mp h
      by_cases hr : expired auditRetentionDays now r = true
      · obtain ⟨front, heq, hall⟩ := ih hrest
        refine ⟨r :: front, ?_, ?_⟩
        · rw [List.filter_cons_of_neg (by simpa using hr), List.cons_append, ← heq]
        · simpa [hr] using hall
      · -- The first row stays, and with it every later one.
        have hkeep : ∀ a ∈ r :: rest, (!expired auditRetentionDays now a) = true := by
          intro a ha
          have hle' : (r.timestamp : Int) ≤ a.timestamp := by
            rcases List.mem_cons.mp ha with rfl | ha
            · exact Int.le_refl _
            · exact Int.ofNat_le.mpr (hle a ha)
          simp only [expired, decide_eq_true_eq, Int.not_lt, Bool.not_eq_true',
            decide_eq_false_iff_not] at hr ⊢
          omega
        exact ⟨[], by rw [List.filter_eq_self.mpr hkeep, List.nil_append], by simp⟩

/-- A cleanup run that is not all-or-nothing leaves a log that does not verify. -/
theorem cleanup_invalid {t t' : AuditTable} {now : Timestamp} (ht : TimeOrdered t)
    (hv : (verifyAuditChain sha256 t).valid = true)
    (hstep : step sha256 auditRetentionDays t (.cleanup now) = some t')
    (hsome : ¬ AllOrNothing auditRetentionDays t (.cleanup now)) :
    (verifyAuditChain sha256 t').valid ≠ true := by
  intro hv'
  obtain ⟨hlinked, -⟩ := verifyAuditChain_valid.mp hv
  obtain ⟨hlinked', -⟩ := verifyAuditChain_valid.mp hv'
  obtain ⟨front, heq, hfront⟩ := filter_eq_suffix auditRetentionDays now ht
  rw [step_cleanup hstep] at hlinked'
  have hne₁ : front ≠ [] := by
    rintro rfl
    refine hsome (Or.inl ?_)
    rw [List.nil_append] at heq
    intro r hr
    rw [heq] at hr
    simpa using (List.mem_filter.mp hr).2
  have hne₂ : t.rows.filter (fun r => !expired auditRetentionDays now r) ≠ [] := by
    intro hnil
    refine hsome (Or.inr ?_)
    rw [hnil, List.append_nil] at heq
    rw [heq]
    exact hfront
  rw [heq] at hlinked
  exact HashChain.not_linked_of_dropped hlinked hne₁ hne₂ hlinked'

/-- An all-or-nothing step keeps the log verifying. -/
theorem step_valid {t t' : AuditTable} {l : Step} (hv : (verifyAuditChain sha256 t).valid = true)
    (hC : AllOrNothing auditRetentionDays t l)
    (h : step sha256 auditRetentionDays t l = some t') :
    (verifyAuditChain sha256 t').valid = true := by
  cases l with
  | record id now event => exact recordAuditEvent_valid (step_record h).2 hv
  | cleanup now =>
      rw [verifyAuditChain_valid] at hv ⊢
      rw [step_cleanup h]
      rcases hC with hnone | hall
      · rw [List.filter_eq_self.mpr (by simpa using hnone)]
        exact hv
      · rw [List.filter_eq_nil_iff.mpr (by simpa using hall)]
        simp

/-! ## Every history -/

/-- From a verifying log, a step leaves a verifying log exactly when it is
all-or-nothing. -/
theorem step_valid_iff {t t' : AuditTable} {l : Step} (ht : TimeOrdered t)
    (hv : (verifyAuditChain sha256 t).valid = true)
    (h : step sha256 auditRetentionDays t l = some t') :
    (verifyAuditChain sha256 t').valid = true ↔ AllOrNothing auditRetentionDays t l := by
  constructor
  · intro hv'
    cases l with
    | record id now event => trivial
    | cleanup now =>
        by_contra hC
        exact cleanup_invalid ht hv h hC hv'
  · intro hC
    exact step_valid hv hC h

/-- The log verifies after every step of a history exactly when every cleanup
run in it finds no expired entry or only expired entries. -/
theorem verify_after_every_step_iff {history : List Step} {t : AuditTable}
    (h : run sha256 auditRetentionDays history = some t) :
    (∀ before after t', history = before ++ after →
        run sha256 auditRetentionDays before = some t' →
          (verifyAuditChain sha256 t').valid = true) ↔
      Runs.Along (step sha256 auditRetentionDays) (AllOrNothing auditRetentionDays)
        AuditTable.empty history :=
  Runs.always_iff_along (I := TimeOrdered) (P := fun t => (verifyAuditChain sha256 t).valid = true)
    (fun _ _ _ => step_inv) (fun _ _ _ => step_valid_iff) init_inv rfl h

/-- Two logins three years apart and the cleanup run of the day after, with
the default of 730 days. -/
def loginHistory : List Step :=
  [.record 1 (738000 * microsPerDay) { eventType := "auth", action := "login", userId := some 7 },
   .record 2 (739095 * microsPerDay) { eventType := "auth", action := "login", userId := some 7 },
   .cleanup (739096 * microsPerDay)]

/-- SHA-256 on the payloads of the two logins. -/
def loginDigests : ByteArray → String :=
  digests
    [("auth|7|None|None|login|None|None|2021-07-30T00:00:00|None",
      "18367d975549803df044456acb7dee4888f03e45af81d8441d5adbc67a22dd77"),
     ("auth|7|None|None|login|None|None|2024-07-29T00:00:00|" ++
        "18367d975549803df044456acb7dee4888f03e45af81d8441d5adbc67a22dd77",
      "375f5917f044f67c95f84c9597d5012bd372367875a27c699dba13b64ebc22c2")]

/-- After the cleanup run the log holds the second login only, which names the
first one, and does not verify. -/
theorem loginHistory_not_valid :
    ∃ t, run loginDigests 730 loginHistory = some t ∧
      (verifyAuditChain loginDigests t).valid = false := by
  refine ⟨_, rfl, Bool.eq_false_iff.mpr ?_⟩
  intro hv
  have hfirst : some _ = none := (verifyAuditChain_valid.mp hv).1.1
  exact absurd hfirst (by simp)

/-- The same logins with a cleanup run in between, which finds nothing expired. -/
def earlyCleanup : List Step :=
  [.record 1 (738000 * microsPerDay) { eventType := "auth", action := "login", userId := some 7 },
   .cleanup (738001 * microsPerDay),
   .record 2 (739095 * microsPerDay) { eventType := "auth", action := "login", userId := some 7 }]

theorem earlyCleanup_valid :
    ∃ t, run loginDigests 730 earlyCleanup = some t ∧
      (verifyAuditChain loginDigests t).valid = true := by
  refine ⟨_, rfl, ?_⟩
  have hall := (verify_after_every_step_iff (rfl : run loginDigests 730 earlyCleanup = some _)).mpr
    ⟨trivial, Or.inl (by decide), trivial, trivial⟩
  exact hall earlyCleanup [] _ (by simp) rfl

end Plaidify.Audit.Retention
