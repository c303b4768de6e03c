import Plaidify.Lib.Interleaving
import Plaidify.Lib.Table
import Plaidify.Principals.Auth

/-!
# Decisions on consent requests

`consent_approve` and `consent_deny` of `src/src/routers/consent.py`. Both read
the request, check in Python that it is pending, and commit a new status in a
statement that names the row by its key alone; approving inserts a grant in the
same commit.

`consistent_iff` says when the two tables agree through any number of
concurrent calls: no call commits over a request that is approved already, and
no approval over one that is denied.
-/

namespace Plaidify.Consent

open Principals (HttpError)

/-- The column `status` of `consent_requests`. -/
inductive ConsentStatus where
  | pending
  | approved
  | denied
  | expired
deriving Repr, DecidableEq

def ConsentStatus.value : ConsentStatus → String
  | pending => "pending"
  | approved => "approved"
  | denied => "denied"
  | expired => "expired"

structure ConsentRequest where
  id : String
  scopes : String
  durationSeconds : Nat
  accessToken : String
  userId : Nat
  status : ConsentStatus
deriving Repr, DecidableEq

structure ConsentGrant where
  token : String
  consentRequestId : String
  scopes : String
  accessToken : String
  userId : Nat
  expiresAt : Nat
  revoked : Bool
deriving Repr, DecidableEq

structure ConsentDb where
  consentRequests : Table ConsentRequest ConsentRequest.id
  consentGrants : Table ConsentGrant ConsentGrant.token
  /-- History variable: the requests that some call has denied. -/
  denied : List String

/-- A call by the user, with the `uuid4` of the grant and the time. -/
inductive Decision where
  | approve (requestId : String) (userId : Nat) (consentToken : String) (now : Nat)
  | deny (requestId : String) (userId : Nat)
deriving DecidableEq

def Decision.requestId : Decision → String
  | approve requestId .. => requestId
  | deny requestId _ => requestId

def Decision.userId : Decision → Nat
  | approve _ userId .. => userId
  | deny _ userId => userId

/-- The status that a call commits. -/
def Decision.status : Decision → ConsentStatus
  | approve .. => .approved
  | deny .. => .denied

@[simp] theorem Decision.status_approve (requestId consentToken : String) (userId now : Nat) :
    (approve requestId userId consentToken now).status = .approved := rfl

@[simp] theorem Decision.status_deny (requestId : String) (userId : Nat) :
    (deny requestId userId).status = .denied := rfl

/-- The start of both handlers. -/
def readPending (db : ConsentDb) (requestId : String) (userId : Nat) :
    Except HttpError ConsentRequest :=
  match db.consentRequests.rows.find? fun cr => cr.id == requestId && cr.userId == userId with
  | none => .error ⟨404, "Consent request not found."⟩
  | some cr =>
      if cr.status ≠ .pending then
        .error ⟨409, "Consent request is already '" ++ cr.status.value ++ "'."⟩
      else .ok cr

/-- The update of the status; an update that finds no row raises
`StaleDataError`. -/
def setStatus (db : ConsentDb) (id : String) (status : ConsentStatus) : Option ConsentDb :=
  (db.consentRequests.get? id).map fun cr =>
    { db with consentRequests := db.consentRequests.put { cr with status } }

/-- The commit of `consent_approve`, with the request as it was read. -/
def consentApprove (db : ConsentDb) (cr : ConsentRequest) (requestId consentToken : String)
    (userId now : Nat) : Option ConsentDb := do
  -- the status is not looked at again
  let db ← setStatus db cr.id .approved
  let consentGrants ← db.consentGrants.insert?
    { token := consentToken
      consentRequestId := requestId
      scopes := cr.scopes
      accessToken := cr.accessToken
      userId
      expiresAt := now + cr.durationSeconds
      revoked := false }
  return { db with consentGrants }

/-- The commit of `consent_deny`. -/
def consentDeny (db : ConsentDb) (cr : ConsentRequest) : Option ConsentDb :=
  (setStatus db cr.id .denied).map fun db => { db with denied := db.denied ++ [cr.id] }

def decisions : Interleaving.Operations Decision ConsentDb ConsentRequest where
  read o db := (readPending db o.requestId o.userId).toOption
  write
    | .approve requestId userId consentToken now, cr, db =>
        consentApprove db cr requestId consentToken userId now
    | .deny _ _, cr, db => consentDeny db cr

abbrev State := Interleaving.State Nat Decision ConsentDb ConsentRequest

abbrev Label := Interleaving.Label Nat Decision

/-! ## What the calls should keep -/

/-- The grants of a request. -/
def ConsentDb.grants (db : ConsentDb) (id : String) : Nat :=
  db.consentGrants.rows.countP (·.consentRequestId == id)

/-- At most one grant of a request, and one exactly where it is approved; none
that can be used where a call has denied it. -/
structure Consistent (db : ConsentDb) : Prop where
  once : ∀ id, db.grants id ≤ 1
  approved : ∀ cr ∈ db.consentRequests.rows, 0 < db.grants cr.id ↔ cr.status = .approved
  denied : ∀ id ∈ db.denied, ∀ g ∈ db.consentGrants.rows,
    g.consentRequestId = id → g.revoked = true

/-- A commit that goes through finds the request not approved, and an approval
finds it pending. -/
def Undecided (s : State) (l : Label) : Prop :=
  ∀ party a rest db cr, l = .write party → s.next party = some (a, rest) →
    decisions.write a.operation a.plan s.store = some db →
    s.store.consentRequests.get? a.plan.id = some cr →
      match a.operation with
      | .approve .. => cr.status = .pending
      | .deny .. => cr.status ≠ .approved

/-! ## What a commit does -/

theorem readPending_ok {db : ConsentDb} {requestId : String} {userId : Nat} {cr : ConsentRequest}
    (h : readPending db requestId userId = .ok cr) :
    db.consentRequests.get? requestId = some cr ∧ cr.status = .pending := by
  unfold readPending at h
  split at h
  · cases h
  · rename_i row hrow
    split at h
    · cases h
    · rename_i hstatus
      have hrowcr : row = cr := Except.ok.inj h
      subst hrowcr
      have hkey := List.find?_some hrow
      simp only [Bool.and_eq_true, beq_iff_eq] at hkey
      have hmem := List.mem_of_find?_eq_some hrow
      exact ⟨Table.get?_eq_some_iff.mpr ⟨hmem, hkey.1⟩, not_not.mp hstatus⟩

theorem read_eq_some {o : Decision} {db : ConsentDb} {cr : ConsentRequest}
    (h : decisions.read o db = some cr) :
    db.consentRequests.get? o.requestId = some cr ∧ cr.status = .pending := by
  have hread : (readPending db o.requestId o.userId).toOption = some cr := h
  cases hres : readPending db o.requestId o.userId with
  | error e =>
      rw [hres] at hread
      cases hread
  | ok row =>
      rw [hres] at hread
      have hrow : row = cr := Option.some.inj hread
      rw [← hrow]
      exact readPending_ok hres

/-- Both commits write the status of one row; only an approval adds a grant. -/
structure Committed (o : Decision) (plan cr : ConsentRequest) (db next : ConsentDb) : Prop where
  row : db.consentRequests.get? plan.id = some cr
  status : next.consentRequests = db.consentRequests.put { cr with status := o.status }
  grants : match o with
    | .approve requestId .. => ∃ g : ConsentGrant, g.consentRequestId = requestId ∧
        g.revoked = false ∧ next.consentGrants.rows = db.consentGrants.rows ++ [g]
    | .deny .. => next.consentGrants = db.consentGrants
  denied : next.denied = if o.status = .approved then db.denied else db.denied ++ [plan.id]

theorem write_eq_some {o : Decision} {plan : ConsentRequest} {db next : ConsentDb}
    (h : decisions.write o plan db = some next) : ∃ cr, Committed o plan cr db next := by
  cases o with
  | approve requestId userId consentToken now =>
      have hcommit : consentApprove db plan requestId consentToken userId now = some next := h
      unfold consentApprove at hcommit
      rcases Option.bind_eq_some_iff.mp hcommit with ⟨updated, hupdate, hgrant⟩
      rcases Option.map_eq_some_iff.mp hupdate with ⟨cr, hcr, rfl⟩
      rcases Option.bind_eq_some_iff.mp hgrant with ⟨grants, hinsert, hnext⟩
      have hnext := Option.some.inj hnext
      subst hnext
      exact ⟨cr, hcr, rfl, ⟨_, rfl, rfl, (Table.insert?_eq_some hinsert).2⟩, rfl⟩
  | deny requestId userId =>
      have hcommit : consentDeny db plan = some next := h
      unfold consentDeny at hcommit
      rcases Option.map_eq_some_iff.mp hcommit with ⟨updated, hupdate, rfl⟩
      rcases Option.map_eq_some_iff.mp hupdate with ⟨cr, hcr, rfl⟩
      exact ⟨cr, hcr, rfl, rfl, rfl⟩

/-- The requests after a commit, under any key. -/
theorem Committed.get? {o : Decision} {plan cr : ConsentRequest} {db next : ConsentDb}
    (h : Committed o plan cr db next) (id : String) :
    next.consentRequests.get? id =
      if id = plan.id then some { cr with status := o.status }
      else db.consentRequests.get? id := by
  have hid : cr.id = plan.id := (Table.get?_mem h.row).2
  rw [h.status, Table.get?_put_eq]
  by_cases hsame : id = plan.id
  · rw [if_pos hsame, hid, if_pos hsame, hsame, h.row]
    rfl
  · rw [if_neg hsame, hid, if_neg hsame]

theorem Committed.grants_eq {o : Decision} {plan cr : ConsentRequest} {db next : ConsentDb}
    (h : Committed o plan cr db next) (hid : o.requestId = plan.id) (id : String) :
    next.grants id = db.grants id + if o.status = .approved ∧ id = plan.id then 1 else 0 := by
  have hgrants := h.grants
  unfold ConsentDb.grants
  cases o with
  | approve requestId userId consentToken now =>
      rcases hgrants with ⟨g, hg, -, hrows⟩
      have hg : g.consentRequestId = plan.id := hg.trans hid
      rw [hrows, List.countP_append, List.countP_singleton, hg]
      by_cases hsame : id = plan.id
      · simp [hsame, Decision.status]
      · simp [hsame, Ne.symm hsame]
  | deny requestId userId =>
      have hgrants : next.consentGrants = db.consentGrants := hgrants
      rw [hgrants]
      simp [Decision.status]

/-! ## The invariant -/

/-- What is known of a request that a call has read as pending. -/
structure WasPending (db : ConsentDb) (id : String) (cr : ConsentRequest) : Prop where
  row : db.consentRequests.get? id = some cr
  denied : cr.status = .denied → id ∈ db.denied
  expired : cr.status ≠ .expired

structure Inv (s : State) : Prop where
  underway : ∀ a ∈ s.underway, a.operation.requestId = a.plan.id ∧
    ∃ cr, WasPending s.store a.plan.id cr
  denied : ∀ id ∈ s.store.denied, ∀ cr, s.store.consentRequests.get? id = some cr →
    cr.status ≠ .pending

/-- A commit leaves a request that was pending one that was pending. -/
theorem WasPending.committed {db next : ConsentDb} {o : Decision} {plan cr row : ConsentRequest}
    {id : String} (hrow : WasPending db id row) (h : Committed o plan cr db next) :
    ∃ row', WasPending next id row' := by
  have hget := h.get? id
  have hdenied := h.denied
  by_cases hsame : id = plan.id
  · rw [if_pos hsame] at hget
    cases o with
    | approve requestId userId consentToken now =>
        exact ⟨_, ⟨hget, fun hd => (by cases hd), fun he => (by cases he)⟩⟩
    | deny requestId userId =>
        refine ⟨_, ⟨hget, fun _ => ?_, fun he => by cases he⟩⟩
        rw [hdenied, if_neg (by simp), hsame]
        exact List.mem_append_right _ (List.mem_singleton.mpr rfl)
  · rw [if_neg hsame] at hget
    refine ⟨row, ⟨hget.trans hrow.row, fun hd => ?_, hrow.expired⟩⟩
    have hmem := hrow.denied hd
    rw [hdenied]
    split
    · exact hmem
    · exact List.mem_append_left _ hmem

/-- A denied request is not pending again. -/
theorem denied_committed {db next : ConsentDb} {o : Decision} {plan cr : ConsentRequest}
    (hdb : ∀ id ∈ db.denied, ∀ row, db.consentRequests.get? id = some row → row.status ≠ .pending)
    (h : Committed o plan cr db next) :
    ∀ id ∈ next.denied, ∀ row, next.consentRequests.get? id = some row →
      row.status ≠ .pending := by
  intro id hid row hrow
  rw [h.get? id] at hrow
  by_cases hsame : id = plan.id
  · rw [if_pos hsame] at hrow
    have hrow := Option.some.inj hrow
    subst hrow
    cases o with
    | approve requestId userId consentToken now => exact fun hp => by cases hp
    | deny requestId userId => exact fun hp => by cases hp
  · rw [if_neg hsame] at hrow
    rw [h.denied] at hid
    split at hid
    · exact hdb id hid row hrow
    · rcases List.mem_append.mp hid with hold | hnew
      · exact hdb id hold row hrow
      · exact absurd (List.mem_singleton.mp hnew) hsame

theorem step_inv (s : State) (l : Label) (t : State) (hs : Inv s) (h : decisions.step s l = some t) :
    Inv t := by
  rcases Interleaving.Operations.step_cases h with rfl | ⟨party, o, plan, -, hread, rfl⟩ |
    ⟨party, a, rest, -, hnext, -, rfl⟩ | ⟨party, a, rest, next, -, hnext, hwrite, rfl⟩ |
    ⟨o, next, -, honce, rfl⟩
  · exact hs
  · -- the call goes on with a row that is pending
    rcases read_eq_some hread with ⟨hrow, hpending⟩
    have hid : o.requestId = plan.id := (Table.get?_mem hrow).2.symm
    refine ⟨?_, hs.denied⟩
    intro b hb
    rcases List.mem_cons.mp hb with rfl | hb
    · refine ⟨hid, plan, hid ▸ hrow, ?_, ?_⟩
      · intro hd
        rw [hpending] at hd
        cases hd
      · intro he
        rw [hpending] at he
        cases he
    · exact hs.underway b hb
  · exact ⟨fun b hb => hs.underway b (Interleaving.State.mem_of_mem_rest hnext hb), hs.denied⟩
  · rcases write_eq_some hwrite with ⟨cr, hcommit⟩
    refine ⟨?_, denied_committed hs.denied hcommit⟩
    intro b hb
    rcases hs.underway b (Interleaving.State.mem_of_mem_rest hnext hb) with ⟨hid, row, hrow⟩
    exact ⟨hid, hrow.committed hcommit⟩
  · rcases Option.bind_eq_some_iff.mp honce with ⟨plan, -, hwrite⟩
    rcases write_eq_some hwrite with ⟨cr, hcommit⟩
    refine ⟨?_, denied_committed hs.denied hcommit⟩
    intro b hb
    rcases hs.underway b hb with ⟨hid, row, hrow⟩
    exact ⟨hid, hrow.committed hcommit⟩

/-! ## Consistency of one commit -/

/-- The grants of a request in a consistent database go by its status. -/
theorem Consistent.grants_eq {db : ConsentDb} (hdb : Consistent db) {id : String}
    {cr : ConsentRequest} (hcr : db.consentRequests.get? id = some cr) :
    db.grants id = if cr.status = .approved then 1 else 0 := by
  rcases Table.get?_mem hcr with ⟨hmem, rfl⟩
  have hone := hdb.once cr.id
  have hiff := hdb.approved cr hmem
  by_cases happroved : cr.status = .approved
  · rw [if_pos happroved]
    have hpos := hiff.mpr happroved
    omega
  · rw [if_neg happroved]
    by_contra hne
    exact happroved (hiff.mp (Nat.pos_of_ne_zero hne))

/-- An approval keeps the tables consistent where the request is pending, and
only there. -/
theorem consistent_approve_iff {db next : ConsentDb} {plan cr : ConsentRequest}
    {requestId consentToken : String} {userId now : Nat} (hdb : Consistent db)
    (hcr : WasPending db plan.id cr) (hdenied : plan.id ∈ db.denied → cr.status ≠ .pending)
    (hid : requestId = plan.id)
    (h : Committed (.approve requestId userId consentToken now) plan cr db next) :
    Consistent next ↔ cr.status = .pending := by
  -- the request has one grant more, the others have as many as before
  have hcount := h.grants_eq hid
  rcases h.grants with ⟨g, hg, hlive, hrows⟩
  have hg : g.consentRequestId = plan.id := hg.trans hid
  have hmemg : g ∈ next.consentGrants.rows := by
    rw [hrows]
    exact List.mem_append_right _ (List.mem_singleton.mpr rfl)
  constructor
  · intro hnext
    have hone := hnext.once plan.id
    rw [hcount plan.id, hdb.grants_eq h.row] at hone
    simp only [Decision.status_approve, true_and, if_true] at hone
    -- over an approved request it would be the second
    have hnot : cr.status ≠ .approved := by
      intro happroved
      rw [if_pos happroved] at hone
      omega
    -- over a denied request, the new grant could be used
    have hnotDenied : cr.status ≠ .denied := by
      intro hd
      have hmem : plan.id ∈ next.denied := by
        rw [h.denied, if_pos (Decision.status_approve ..)]
        exact hcr.denied hd
      have hrevoked := hnext.denied plan.id hmem g hmemg hg
      rw [hlive] at hrevoked
      cases hrevoked
    have hnotExpired := hcr.expired
    cases hstatus : cr.status with
    | pending => rfl
    | approved => exact absurd hstatus hnot
    | denied => exact absurd hstatus hnotDenied
    | expired => exact absurd hstatus hnotExpired
  · intro hpending
    -- a pending request has no grant yet
    have hnone : db.grants plan.id = 0 := by
      rw [hdb.grants_eq h.row, if_neg (by rw [hpending]; decide)]
    constructor
    · -- once
      intro id
      rw [hcount id]
      by_cases hsame : id = plan.id
      · rw [hsame, hnone]
        simp
      · simpa [hsame] using hdb.once id
    · -- approved
      intro row hrow
      rw [hcount row.id]
      have hget := h.get? row.id
      rw [Table.get?_of_mem hrow] at hget
      by_cases hsame : row.id = plan.id
      · rw [if_pos hsame] at hget
        have hstatus : row.status = .approved := by rw [Option.some.inj hget, Decision.status_approve]
        simp [hstatus, hsame]
      · rw [if_neg hsame] at hget
        simpa [hsame] using hdb.approved row (Table.get?_mem hget.symm).1
    · -- denied
      intro id hmem row hrow hrowid
      rw [h.denied, if_pos (Decision.status_approve ..)] at hmem
      rw [hrows] at hrow
      rcases List.mem_append.mp hrow with hold | hnew
      · exact hdb.denied id hmem row hold hrowid
      · -- the request of the new grant was not denied
        rw [List.mem_singleton.mp hnew, hg] at hrowid
        rw [← hrowid] at hmem
        exact absurd hpending (hdenied hmem)

/-- A denial keeps the tables consistent unless the request is approved. -/
theorem consistent_deny_iff {db next : ConsentDb} {plan cr : ConsentRequest} {requestId : String}
    {userId : Nat} (hdb : Consistent db) (hid : requestId = plan.id)
    (h : Committed (.deny requestId userId) plan cr db next) :
    Consistent next ↔ cr.status ≠ .approved := by
  have hcount := h.grants_eq hid
  have hgrants : next.consentGrants = db.consentGrants := h.grants
  have hplan := h.get? plan.id
  rw [if_pos rfl] at hplan
  constructor
  · intro hnext happroved
    have hzero := hnext.grants_eq hplan
    rw [hcount plan.id, hdb.grants_eq h.row, if_pos happroved] at hzero
    simp at hzero
  · intro hnot
    have hnone : db.grants plan.id = 0 := by rw [hdb.grants_eq h.row, if_neg hnot]
    constructor
    · intro id
      rw [hcount id]
      exact hdb.once id
    · intro row hrow
      rw [hcount row.id]
      have hget := h.get? row.id
      rw [Table.get?_of_mem hrow] at hget
      by_cases hsame : row.id = plan.id
      · rw [if_pos hsame] at hget
        have hstatus : row.status = .denied := by rw [Option.some.inj hget, Decision.status_deny]
        simp [hstatus, hsame, hnone]
      · rw [if_neg hsame] at hget
        exact hdb.approved row (Table.get?_mem hget.symm).1
    · intro id hmem g hg hgid
      rw [hgrants] at hg
      rw [h.denied, if_neg (by simp)] at hmem
      rcases List.mem_append.mp hmem with hold | hnew
      · exact hdb.denied id hold g hg hgid
      · -- a request without a grant
        rw [List.mem_singleton.mp hnew] at hgid
        have hpos : 0 < db.grants plan.id :=
          List.countP_pos_iff.mpr ⟨g, hg, by simpa using hgid⟩
        omega

/-! ## Any number of calls -/

/-- The condition of a commit speaks of the call that commits. -/
theorem undecided_write_iff {s : State} {party : Nat}
    {a : Interleaving.Pending Nat Decision ConsentRequest}
    {rest : List (Interleaving.Pending Nat Decision ConsentRequest)}
    (hnext : s.next party = some (a, rest)) :
    Undecided s (.write party) ↔
      ∀ db cr, decisions.write a.operation a.plan s.store = some db →
        s.store.consentRequests.get? a.plan.id = some cr →
          match a.operation with
          | .approve .. => cr.status = .pending
          | .deny .. => cr.status ≠ .approved := by
  constructor
  · intro h db cr hwrite hcr
    exact h party a rest db cr rfl hnext hwrite hcr
  · intro h party' b rest' db cr hparty hb hwrite hcr
    cases hparty
    rw [hnext] at hb
    cases hb
    exact h db cr hwrite hcr

/-- What a commit that goes through does to the consistency of the tables. -/
theorem consistent_write_iff {s : State} (hs : Inv s) (hdb : Consistent s.store) {party : Nat}
    {a : Interleaving.Pending Nat Decision ConsentRequest}
    {rest : List (Interleaving.Pending Nat Decision ConsentRequest)} {next : ConsentDb}
    (hnext : s.next party = some (a, rest))
    (hwrite : decisions.write a.operation a.plan s.store = some next) :
    Consistent next ↔ Undecided s (.write party) := by
  rcases hs.underway a (Interleaving.State.mem_of_next hnext) with ⟨hid, cr, hcr⟩
  rcases write_eq_some hwrite with ⟨row, hcommit⟩
  have hrow : row = cr := Option.some.inj (hcommit.row.symm.trans hcr.row)
  subst hrow
  have hundecided : Undecided s (.write party) ↔
      match a.operation with
      | .approve .. => row.status = .pending
      | .deny .. => row.status ≠ .approved := by
    rw [undecided_write_iff hnext]
    constructor
    · intro h
      exact h next row hwrite hcr.row
    · intro h _ cr' _ hcr'
      have hsame : row = cr' := Option.some.inj (hcr.row.symm.trans hcr')
      rw [← hsame]
      exact h
  rw [hundecided]
  cases hop : a.operation with
  | approve requestId userId consentToken now =>
      rw [hop] at hcommit hid
      exact consistent_approve_iff hdb hcr (fun hd => hs.denied _ hd row hcr.row) hid hcommit
  | deny requestId userId =>
      rw [hop] at hcommit hid
      exact consistent_deny_iff hdb hid hcommit

/-- A call that nothing interrupts keeps the tables consistent. -/
theorem consistent_once {s : State} (hs : Inv s) (hdb : Consistent s.store) {o : Decision}
    {next : ConsentDb} (h : decisions.once o s.store = some next) : Consistent next := by
  rcases Option.bind_eq_some_iff.mp h with ⟨plan, hread, hwrite⟩
  rcases read_eq_some hread with ⟨hrow, hpending⟩
  have hid : o.requestId = plan.id := (Table.get?_mem hrow).2.symm
  rcases write_eq_some hwrite with ⟨cr, hcommit⟩
  rw [hid] at hrow
  have hcr : cr = plan := Option.some.inj (hcommit.row.symm.trans hrow)
  subst hcr
  cases o with
  | approve requestId userId consentToken now =>
      have hwas : WasPending s.store cr.id cr :=
        ⟨hrow, fun hd => absurd (hpending.symm.trans hd) (by decide), by rw [hpending]; decide⟩
      refine (consistent_approve_iff hdb hwas ?_ hid hcommit).mpr hpending
      exact fun hd => hs.denied _ hd cr hrow
  | deny requestId userId =>
      refine (consistent_deny_iff hdb hid hcommit).mpr ?_
      rw [hpending]
      decide

/-- From consistent tables, through any number of concurrent calls, every state
is consistent exactly when no call commits over a request that is approved
already, and no approval over one that is denied. -/
theorem consistent_iff {db : ConsentDb} {run : List Label} {u : State} (hdb : Consistent db)
    (hnew : db.denied = [])
    (h : Runs.exec decisions.step (Interleaving.start db) run = some u) :
    (∀ before after t, run = before ++ after →
        Runs.exec decisions.step (Interleaving.start db) before = some t → Consistent t.store) ↔
      Runs.Along decisions.step Undecided (Interleaving.start db) run := by
  have hinit : Inv (Interleaving.start db) := by
    constructor
    · intro a ha
      cases ha
    · intro id hid
      have hid : id ∈ db.denied := hid
      rw [hnew] at hid
      cases hid
  refine Runs.always_iff_along step_inv ?_ hinit hdb h
  intro s l t hs hcons ht
  cases l with
  | read party o =>
      refine iff_of_true ?_ fun _ _ _ _ _ hl => by cases hl
      rcases Interleaving.Operations.step_read ht with ⟨-, rfl⟩ | ⟨plan, -, rfl⟩
      · exact hcons
      · exact hcons
  | write party =>
      rcases Interleaving.Operations.step_write ht with
        ⟨a, rest, hnext, ⟨hwrite, rfl⟩ | ⟨next, hwrite, rfl⟩⟩
      · -- a commit that is rolled back
        refine iff_of_true hcons ((undecided_write_iff hnext).mpr ?_)
        intro db' cr hgo
        rw [hwrite] at hgo
        cases hgo
      · exact consistent_write_iff hs hcons hnext hwrite
  | atomic o =>
      refine iff_of_true ?_ fun _ _ _ _ _ hl => by cases hl
      rcases Interleaving.Operations.step_atomic ht with ⟨-, rfl⟩ | ⟨next, honce, rfl⟩
      · exact hcons
      · exact consistent_once hs hcons honce

/-- A call that would read the same row again decides nothing twice. -/
theorem undecided_of_stands {s : State} {l : Label} (h : decisions.Stands s l) : Undecided s l := by
  rintro party a rest db cr rfl hnext - hcr
  have hread : decisions.read a.operation s.store = some a.plan := h a (by rw [hnext]; rfl)
  rcases read_eq_some hread with ⟨hrow, hpending⟩
  have hid : a.operation.requestId = a.plan.id := (Table.get?_mem hrow).2.symm
  rw [hid, hcr] at hrow
  have hsame : cr = a.plan := Option.some.inj hrow
  rw [hsame, hpending]
  cases a.operation with
  | approve requestId userId consentToken now => rfl
  | deny requestId userId => exact fun h => by cases h

/-- A database with one request. -/
def oneRequest : ConsentDb :=
  { consentRequests :=
      ⟨[{ id := "creq-1", scopes := "[\"read:current_bill\"]", durationSeconds := 3600,
          accessToken := "acc-1", userId := 7, status := .pending }], List.nodup_singleton _⟩
    consentGrants := Table.empty
    denied := [] }

theorem oneRequest_consistent : Consistent oneRequest := by
  constructor
  · intro id
    exact Nat.zero_le _
  · intro cr hcr
    rw [List.mem_singleton.mp hcr]
    decide
  · intro id hid
    cases hid

/-- A denial after an approval is refused. -/
theorem approvedThenDenied_consistent :
    ∃ u, Runs.exec decisions.step (Interleaving.start oneRequest)
      [.read 1 (.approve "creq-1" 7 "consent-1" 10), .write 1, .read 2 (.deny "creq-1" 7)] =
        some u ∧ Consistent u.store := by
  have hsome : (Runs.exec decisions.step (Interleaving.start oneRequest)
      [.read 1 (.approve "creq-1" 7 "consent-1" 10), .write 1,
        .read 2 (.deny "creq-1" 7)]).isSome = true := by
    decide +kernel
  rcases Option.isSome_iff_exists.mp hsome with ⟨u, hu⟩
  refine ⟨u, hu, (consistent_iff oneRequest_consistent rfl hu).mpr ?_ _ [] u (by simp) hu⟩
  refine Runs.along_mono (fun _ _ => undecided_of_stands) ?_
  decide +kernel

/-- An approval and a denial that both read the request as pending leave a
denied request with a grant that can be used; two approvals leave two grants. -/
theorem approvedWhileDenied_inconsistent :
    (∃ u, Runs.exec decisions.step (Interleaving.start oneRequest)
      [.read 1 (.approve "creq-1" 7 "consent-1" 10), .read 2 (.deny "creq-1" 7), .write 1,
        .write 2] = some u ∧ u.underway = [] ∧ ¬Consistent u.store) ∧
      ∃ u, Runs.exec decisions.step (Interleaving.start oneRequest)
        [.read 1 (.approve "creq-1" 7 "consent-1" 10),
          .read 2 (.approve "creq-1" 7 "consent-2" 11), .write 1, .write 2] = some u ∧
        ¬u.store.grants "creq-1" ≤ 1 := by
  constructor
  · have hrun : (Runs.exec decisions.step (Interleaving.start oneRequest)
        [.read 1 (.approve "creq-1" 7 "consent-1" 10), .read 2 (.deny "creq-1" 7), .write 1,
          .write 2]).map (fun u => (u.underway, u.store.denied,
            u.store.consentGrants.rows.map fun g => (g.consentRequestId, g.revoked))) =
        some ([], ["creq-1"], [("creq-1", false)]) := by
      decide +kernel
    rcases Option.map_eq_some_iff.mp hrun with ⟨u, hu, heq⟩
    simp only [Prod.mk.injEq] at heq
    rcases heq with ⟨hunder, hdenied, hgrants⟩
    refine ⟨u, hu, hunder, fun hcons => ?_⟩
    rcases List.map_eq_singleton_iff.mp hgrants with ⟨g, hrows, hg⟩
    have hid : g.consentRequestId = "creq-1" := congrArg Prod.fst hg
    have hlive : g.revoked = false := congrArg Prod.snd hg
    have hrevoked := hcons.denied "creq-1" (by rw [hdenied]; exact List.mem_singleton.mpr rfl) g
      (by rw [hrows]; exact List.mem_singleton.mpr rfl) hid
    rw [hlive] at hrevoked
    cases hrevoked
  · have hrun : (Runs.exec decisions.step (Interleaving.start oneRequest)
        [.read 1 (.approve "creq-1" 7 "consent-1" 10),
          .read 2 (.approve "creq-1" 7 "consent-2" 11), .write 1, .write 2]).map
            (fun u => u.store.grants "creq-1") = some 2 := by
      decide +kernel
    rcases Option.map_eq_some_iff.mp hrun with ⟨u, hu, htwo⟩
    refine ⟨u, hu, ?_⟩
    rw [htwo]
    decide

end Plaidify.Consent
