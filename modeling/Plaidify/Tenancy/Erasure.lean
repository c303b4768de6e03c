import Plaidify.Tenancy.Ownership

/-!
# Erasing an account

`delete_user_data` and the deletion of the user's row. Every foreign key that the
models declare leads from a row of a user to one of the same user, and the tables
are emptied before those they refer to. A webhook names a link too, and the models
do not declare it: `register_webhook` takes the link token of any session.
-/

namespace Plaidify.Tenancy

open Links (Backend)
open Principals (PyText)

/-! ## What the models declare -/

/-- A row that others refer to. -/
inductive Ref where
  | user (id : Nat)
  | link (linkToken : String)
  | accessToken (token : String)
  | consentRequest (id : String)
  | apiKey (id : String)
deriving Repr, DecidableEq

/-- The table of the row. -/
def Ref.table : Ref → Target
  | .user _ => .users
  | .link _ => .links
  | .accessToken _ => .accessTokens
  | .consentRequest _ => .consentRequests
  | .apiKey _ => .apiKeys

/-- The user of the row, if there is such a row. -/
def System.ownerOf (s : System) : Ref → Option Nat
  | .user id => (s.users.get? id).map (·.id)
  | .link linkToken => (s.links.get? linkToken).map (·.userId)
  | .accessToken token => (s.accessTokens.get? token).map (·.userId)
  | .consentRequest id => (s.consentRequests.get? id).map (·.userId)
  | .apiKey id => (s.apiKeys.get? id).map (·.userId)

/-- A reference, with the user of the row that it is in. -/
structure Reference where
  owner : Option Nat
  row : Ref
deriving Repr, DecidableEq

/-- The foreign keys of the rows of a table. -/
def Target.foreignKeys (s : System) : Target → List Reference
  | .consentGrants => s.consentGrants.rows.flatMap fun g =>
      [⟨some g.userId, .consentRequest g.consentRequestId⟩,
        ⟨some g.userId, .accessToken g.accessToken⟩, ⟨some g.userId, .user g.userId⟩]
  | .consentRequests => s.consentRequests.rows.flatMap fun cr =>
      [⟨some cr.userId, .accessToken cr.accessToken⟩, ⟨some cr.userId, .user cr.userId⟩]
  | .publicTokens => s.publicTokens.rows.flatMap fun p =>
      [⟨some p.userId, .accessToken p.accessToken⟩, ⟨some p.userId, .user p.userId⟩]
  | .scheduledRefreshJobs => s.scheduledRefreshJobs.rows.flatMap fun r =>
      [⟨some r.userId, .accessToken r.accessToken⟩, ⟨some r.userId, .user r.userId⟩]
  | .accessTokens => s.accessTokens.rows.flatMap fun t =>
      [⟨some t.userId, .link t.linkToken⟩, ⟨some t.userId, .user t.userId⟩]
  | .links => s.links.rows.map fun l => ⟨some l.userId, .user l.userId⟩
  | .webhooks => s.webhooks.rows.map fun wh => ⟨some wh.userId, .user wh.userId⟩
  | .refreshTokens => s.refreshTokens.rows.map fun t => ⟨some t.userId, .user t.userId⟩
  | .passwordResetTokens =>
      s.passwordResetTokens.rows.map fun t => ⟨some t.userId, .user t.userId⟩
  | .agents => s.agents.rows.flatMap fun a =>
      ⟨some a.ownerId, .user a.ownerId⟩ ::
        a.apiKeyId.toList.map fun id => ⟨some a.ownerId, .apiKey id⟩
  | .apiKeys => s.apiKeys.rows.map fun k => ⟨some k.userId, .user k.userId⟩
  | .blueprints => s.blueprints.rows.map fun b => ⟨some b.publishedBy, .user b.publishedBy⟩
  | .accessJobs => s.accessJobs.rows.flatMap fun job =>
      job.userId.toList.map fun userId => ⟨some userId, .user userId⟩
  | .users => []

/-- The columns that name a row and are no foreign keys. -/
def System.undeclared (s : System) : List Reference :=
  s.publicTokens.rows.map (fun p => ⟨some p.userId, .link p.linkToken⟩) ++
    s.webhooks.rows.map fun wh => ⟨some wh.userId, .link wh.linkToken⟩

/-- No reference out of these goes to a row that is there before and not after. -/
def Keeps (s t : System) (references : List Reference) : Prop :=
  ∀ r ∈ references, (s.ownerOf r.row).isSome = true → (t.ownerOf r.row).isSome = true

/-! ## The property -/

/-- The statements of an erasure, in their order. -/
def statements : List Target := userDataTargets ++ [.users]

/-- After some of the statements. -/
def deleteTargets (s : System) (userId : Nat) (targets : List Target) : System :=
  targets.foldl (fun s target => deleteTarget s userId target) s

theorem deleteAccount_eq (s : System) (userId : Nat) :
    deleteAccount s userId = deleteTargets s userId statements := rfl

/-- What the erasure of an account should come to. -/
structure Erased (s : System) (userId : Nat) : Prop where
  /-- No row of the user is left. -/
  complete : (deleteAccount s userId).select (· == some userId) = .none
  /-- The rows of the others are as they were. -/
  contained : (deleteAccount s userId).select (· != some userId) =
    s.select (· != some userId)
  /-- No statement deletes a row that another row refers to by a foreign key. -/
  ordered : ∀ before target after, statements = before ++ target :: after → ∀ table,
    Keeps (deleteTargets s userId before)
      (deleteTarget (deleteTargets s userId before) userId target)
      (Target.foreignKeys (deleteTarget (deleteTargets s userId before) userId target) table)
  /-- No row that is left refers to a row that was deleted. -/
  unreferred : ∀ r, r ∈ (deleteAccount s userId).undeclared ∨
    (∃ table : Target, r ∈ table.foreignKeys (deleteAccount s userId)) →
      (s.ownerOf r.row).isSome = true → ((deleteAccount s userId).ownerOf r.row).isSome = true

/-- The webhooks that name a link of the user are the user's. -/
def NamedByOwner (s : System) (userId : Nat) : Prop :=
  ∀ wh ∈ s.webhooks.rows, s.ownerOf (.link wh.linkToken) = some userId → wh.userId = userId

/-- Webhooks are registered for sessions of the user, or of nobody. -/
def RegistersOwn (s : System) : Label → Prop
  | .registerWebhook wh => ∀ session ∈ s.api.links.sessions, session.linkToken = wh.linkToken →
      session.userId = none ∨ session.userId = some wh.userId
  | _ => True

instance (s : System) : (l : Label) → Decidable (RegistersOwn s l)
  | .registerWebhook wh =>
      inferInstanceAs (Decidable (∀ session ∈ s.api.links.sessions,
        session.linkToken = wh.linkToken →
          session.userId = none ∨ session.userId = some wh.userId))
  | .register _ | .deleteAccount _ | .api _ | .refreshTokens _ | .passwordResetTokens _ |
    .blueprints _ | .accessJobs _ | .deleteWebhook .. | .ensurePublicToken _ |
    .consentRequest _ | .consentApprove .. | .consentDeny .. | .revokeConsent .. |
    .createApiKey _ | .registerAgent .. | .updateAgent .. | .cascade | .restart | .mfa _ =>
      .isTrue trivial

/-! ## Foreign keys stay with their users -/

/-- The tables whose rows refer to rows of the table. -/
def Target.referrers : Target → List Target
  | .consentRequests => [.consentGrants]
  | .accessTokens => [.consentGrants, .consentRequests, .publicTokens, .scheduledRefreshJobs]
  | .links => [.accessTokens]
  | .apiKeys => [.agents]
  | .users => userDataTargets
  | _ => []

/-- Every table comes after those that refer to it. -/
theorem referrers_first {before after : List Target} {target : Target}
    (h : statements = before ++ target :: after) : ∀ table ∈ target.referrers, table ∈ before := by
  have hall : ∀ n : Fin statements.length,
      ∀ table ∈ (statements.get n).referrers, table ∈ statements.take n := by
    decide
  have hlt : before.length < statements.length := by
    rw [h, List.length_append, List.length_cons]
    omega
  have hget : statements.get ⟨before.length, hlt⟩ = target := by
    simp [h]
  have htake : statements.take before.length = before := by
    simp [h]
  have hn := hall ⟨before.length, hlt⟩
  rw [hget, htake] at hn
  exact hn

/-- A foreign key leads to a table whose referrers have the row it is in. -/
theorem mem_referrers {s : System} {table : Target} {r : Reference}
    (h : r ∈ table.foreignKeys s) : table ∈ r.row.table.referrers := by
  cases table with
  | users => cases h
  | consentGrants | consentRequests | publicTokens | scheduledRefreshJobs | accessTokens =>
      rcases List.mem_flatMap.mp h with ⟨row, -, hr⟩
      simp only [List.mem_cons, List.not_mem_nil, or_false] at hr
      rcases hr with rfl | rfl | rfl <;> simp [Ref.table, Target.referrers, userDataTargets]
  | links | webhooks | refreshTokens | passwordResetTokens | apiKeys | blueprints =>
      rcases List.mem_map.mp h with ⟨row, -, rfl⟩
      simp [Ref.table, Target.referrers, userDataTargets]
  | agents =>
      rcases List.mem_flatMap.mp h with ⟨row, -, hr⟩
      rcases List.mem_cons.mp hr with rfl | hkey
      · simp [Ref.table, Target.referrers, userDataTargets]
      · rcases List.mem_map.mp hkey with ⟨id, -, rfl⟩
        simp [Ref.table, Target.referrers]
  | accessJobs =>
      rcases List.mem_flatMap.mp h with ⟨row, -, hr⟩
      rcases List.mem_map.mp hr with ⟨userId, -, rfl⟩
      simp [Ref.table, Target.referrers, userDataTargets]

theorem get?_map_eq_some {α κ β : Type} {key : α → κ} [DecidableEq κ] {table : Table α key}
    {k : κ} {f : α → β} {b : β} :
    (table.get? k).map f = some b ↔ ∃ row ∈ table.rows, key row = k ∧ f row = b := by
  rw [Option.map_eq_some_iff]
  constructor
  · rintro ⟨row, hget, rfl⟩
    rcases Table.get?_mem hget with ⟨hrow, hkey⟩
    exact ⟨row, hrow, hkey, rfl⟩
  · rintro ⟨row, hrow, hkey, rfl⟩
    exact ⟨row, Table.get?_eq_some_iff.mpr ⟨hrow, hkey⟩, rfl⟩

/-- A row that names an access token of the table is the token's user's. -/
theorem owner_accessToken {s : System} (hs : Inv s) {token : String} {userId owner : Nat}
    (howns : s.owns token userId) (h : s.ownerOf (.accessToken token) = some owner) :
    userId = owner := by
  rcases get?_map_eq_some.mp h with ⟨row, hrow, hkey, rfl⟩
  rcases howns with ⟨m, hm, hmtoken, rfl⟩
  have hminted := hs.tokens.rows row hrow
  have hsame : m = ⟨row.token, row.linkToken, row.userId⟩ :=
    List.inj_on_of_nodup_map hs.tokens.once hm hminted (hmtoken.trans hkey.symm)
  rw [hsame]

/-- A minted token's link, if it is there, is the token's user's. -/
theorem owner_link {s : System} (hs : Inv s) {m : Minted} (hm : m ∈ s.minted) {owner : Nat}
    (h : s.ownerOf (.link m.linkToken) = some owner) : m.userId = owner := by
  rcases get?_map_eq_some.mp h with ⟨row, hrow, hkey, rfl⟩
  exact (hs.tokens.link m hm row hrow hkey).symm

theorem owner_user {s : System} {userId owner : Nat} (h : s.ownerOf (.user userId) = some owner) :
    userId = owner := by
  rcases get?_map_eq_some.mp h with ⟨row, -, hkey, rfl⟩
  exact hkey.symm

theorem owner_consentRequest {s : System} (hs : Inv s) {id : String} {userId owner : Nat}
    (hmem : (id, userId) ∈ s.requested) (h : s.ownerOf (.consentRequest id) = some owner) :
    userId = owner := by
  rcases get?_map_eq_some.mp h with ⟨row, hrow, rfl, rfl⟩
  exact user_of_name hs.requestedOnce hmem (hs.requests row hrow).2

theorem owner_apiKey {s : System} (hs : Inv s) {id : String} {userId owner : Nat}
    (hmem : (id, userId) ∈ s.keyed) (h : s.ownerOf (.apiKey id) = some owner) :
    userId = owner := by
  rcases get?_map_eq_some.mp h with ⟨row, hrow, rfl, rfl⟩
  exact user_of_name hs.keyedOnce hmem (hs.keys row hrow)

/-- A foreign key leads to a row of the same user. -/
theorem foreignKeys_own {s : System} (hs : Inv s) {table : Target} {r : Reference}
    (h : r ∈ table.foreignKeys s) {owner : Nat} (howner : s.ownerOf r.row = some owner) :
    r.owner = some owner := by
  cases table with
  -- a user has no foreign key
  | users => cases h
  | consentGrants =>
      -- a grant leads to its request, its token and its user
      rcases List.mem_flatMap.mp h with ⟨g, hg, hr⟩
      simp only [List.mem_cons, List.not_mem_nil, or_false] at hr
      have hown := hs.grants g hg
      rcases hr with rfl | rfl | rfl
      · exact congrArg some (owner_consentRequest hs hown.2 howner)
      · exact congrArg some (owner_accessToken hs hown.1 howner)
      · exact congrArg some (owner_user howner)
  | consentRequests =>
      -- a request leads to its token and its user
      rcases List.mem_flatMap.mp h with ⟨cr, hcr, hr⟩
      simp only [List.mem_cons, List.not_mem_nil, or_false] at hr
      rcases hr with rfl | rfl
      · exact congrArg some (owner_accessToken hs (hs.requests cr hcr).1 howner)
      · exact congrArg some (owner_user howner)
  | publicTokens =>
      -- a public token leads to the token it stands for
      rcases List.mem_flatMap.mp h with ⟨p, hp, hr⟩
      simp only [List.mem_cons, List.not_mem_nil, or_false] at hr
      rcases hr with rfl | rfl
      · have hown : s.owns p.accessToken p.userId := ⟨_, hs.publicTokens p hp, rfl, rfl⟩
        exact congrArg some (owner_accessToken hs hown howner)
      · exact congrArg some (owner_user howner)
  | scheduledRefreshJobs =>
      -- a schedule leads to the token it refreshes
      rcases List.mem_flatMap.mp h with ⟨row, hrow, hr⟩
      simp only [List.mem_cons, List.not_mem_nil, or_false] at hr
      rcases hr with rfl | rfl
      · exact congrArg some (owner_accessToken hs (hs.jobs.rows row hrow) howner)
      · exact congrArg some (owner_user howner)
  | accessTokens =>
      -- a token leads to its link
      rcases List.mem_flatMap.mp h with ⟨t, ht, hr⟩
      simp only [List.mem_cons, List.not_mem_nil, or_false] at hr
      rcases hr with rfl | rfl
      · exact congrArg some (owner_link hs (hs.tokens.rows t ht) howner)
      · exact congrArg some (owner_user howner)
  | links | webhooks | refreshTokens | passwordResetTokens | apiKeys | blueprints =>
      -- these lead to their user only
      rcases List.mem_map.mp h with ⟨row, -, rfl⟩
      exact congrArg some (owner_user howner)
  | agents =>
      -- an agent leads to its user, and to its key if it has one
      rcases List.mem_flatMap.mp h with ⟨a, ha, hr⟩
      rcases List.mem_cons.mp hr with rfl | hkey
      · exact congrArg some (owner_user howner)
      · rcases List.mem_map.mp hkey with ⟨id, hid, rfl⟩
        have hkeyed := hs.agents a ha id (Option.mem_toList.mp hid)
        exact congrArg some (owner_apiKey hs hkeyed howner)
  | accessJobs =>
      -- a job leads to its user if it has one
      rcases List.mem_flatMap.mp h with ⟨row, -, hr⟩
      rcases List.mem_map.mp hr with ⟨userId, -, rfl⟩
      exact congrArg some (owner_user howner)

/-! ## One statement -/

/-- A statement leaves the other tables alone. -/
theorem foreignKeys_of_ne {s : System} {userId : Nat} {table target : Target}
    (h : table ≠ target) :
    table.foreignKeys (deleteTarget s userId target) = table.foreignKeys s := by
  cases target <;> cases table <;> first | rfl | exact absurd rfl h

theorem mem_flatMap_delete {α β κ : Type} {key : α → κ} {table : Table α key} {p : α → Bool}
    {f : α → List β} {b : β} (h : b ∈ (table.delete p).rows.flatMap f) :
    b ∈ table.rows.flatMap f ∧ ∃ row ∈ table.rows, p row = false ∧ b ∈ f row := by
  rcases List.mem_flatMap.mp h with ⟨row, hrow, hb⟩
  rcases List.mem_filter.mp hrow with ⟨hmem, hp⟩
  exact ⟨List.mem_flatMap.mpr ⟨row, hmem, hb⟩, row, hmem, by simpa using hp, hb⟩

theorem mem_map_delete {α β κ : Type} {key : α → κ} {table : Table α key} {p : α → Bool}
    {f : α → β} {b : β} (h : b ∈ (table.delete p).rows.map f) :
    b ∈ table.rows.map f ∧ ∃ row ∈ table.rows, p row = false ∧ f row = b := by
  rcases List.mem_map.mp h with ⟨row, hrow, hb⟩
  rcases List.mem_filter.mp hrow with ⟨hmem, hp⟩
  exact ⟨List.mem_map.mpr ⟨row, hmem, hb⟩, row, hmem, by simpa using hp, hb⟩

/-- The rows that a statement leaves in its table are of other users. -/
theorem foreignKeys_self {s : System} {userId : Nat} {target : Target} {r : Reference}
    (h : r ∈ target.foreignKeys (deleteTarget s userId target)) :
    r ∈ target.foreignKeys s ∧ r.owner ≠ some userId := by
  cases target with
  | users => cases h
  | consentGrants | consentRequests | publicTokens | scheduledRefreshJobs | accessTokens =>
      rcases mem_flatMap_delete h with ⟨hmem, row, -, hother, hr⟩
      refine ⟨hmem, ?_⟩
      have hne : row.userId ≠ userId := by simpa using hother
      simp only [List.mem_cons, List.not_mem_nil, or_false] at hr
      rcases hr with rfl | rfl | rfl <;> simpa using hne
  | links | webhooks | refreshTokens | passwordResetTokens | apiKeys | blueprints =>
      rcases mem_map_delete h with ⟨hmem, row, -, hother, rfl⟩
      refine ⟨hmem, ?_⟩
      simpa using hother
  | agents =>
      rcases mem_flatMap_delete h with ⟨hmem, row, -, hother, hr⟩
      refine ⟨hmem, ?_⟩
      have hne : row.ownerId ≠ userId := by simpa using hother
      rcases List.mem_cons.mp hr with rfl | hkey
      · simpa using hne
      · rcases List.mem_map.mp hkey with ⟨id, -, rfl⟩
        simpa using hne
  | accessJobs =>
      rcases mem_flatMap_delete h with ⟨hmem, row, -, hother, hr⟩
      refine ⟨hmem, ?_⟩
      rcases List.mem_map.mp hr with ⟨owner, howner, rfl⟩
      have hne : row.userId ≠ some userId := by simpa using hother
      rw [Option.mem_toList.mp howner] at hne
      exact hne

theorem foreignKeys_deleteTarget {s : System} {userId : Nat} {table target : Target}
    {r : Reference} (h : r ∈ table.foreignKeys (deleteTarget s userId target)) :
    r ∈ table.foreignKeys s ∧ (table = target → r.owner ≠ some userId) := by
  by_cases htable : table = target
  · subst htable
    rcases foreignKeys_self h with ⟨hmem, hother⟩
    exact ⟨hmem, fun _ => hother⟩
  · rw [foreignKeys_of_ne htable] at h
    exact ⟨h, fun heq => absurd heq htable⟩

theorem map_get?_delete {α κ : Type} {key : α → κ} [DecidableEq κ] {table : Table α key}
    {p : α → Bool} {owner : α → Nat} {userId other : Nat} {k : κ}
    (hp : ∀ row, p row = true → owner row = userId) (hne : other ≠ userId)
    (h : (table.get? k).map owner = some other) :
    ((table.delete p).get? k).map owner = some other := by
  rcases get?_map_eq_some.mp h with ⟨row, hrow, hkey, rfl⟩
  refine get?_map_eq_some.mpr ⟨row, ?_, hkey, rfl⟩
  rw [Table.delete_rows, List.mem_filter]
  refine ⟨hrow, ?_⟩
  cases hprow : p row with
  | false => rfl
  | true => exact absurd (hp row hprow) hne

/-- A row of another user outlives the statement. -/
theorem ownerOf_deleteTarget {s : System} {userId owner : Nat} (target : Target) {r : Ref}
    (hne : owner ≠ userId) (h : s.ownerOf r = some owner) :
    (deleteTarget s userId target).ownerOf r = some owner := by
  cases target <;> cases r <;> first
    | exact h
    | exact map_get?_delete (fun row hrow => by simpa using hrow) hne h

/-- A row of another table outlives the statement. -/
theorem ownerOf_of_ne (s : System) (userId : Nat) {target : Target} {r : Ref}
    (h : r.table ≠ target) : (deleteTarget s userId target).ownerOf r = s.ownerOf r := by
  cases target <;> cases r <;> first | rfl | exact absurd rfl h

/-- A statement deletes no row that is referred to, where the tables that refer to
its rows have no rows of the user. -/
theorem deleteTarget_keeps {s : System} {userId : Nat} {target : Target} (hs : Inv s)
    (hempty : ∀ table ∈ target.referrers, ∀ r ∈ table.foreignKeys s, r.owner ≠ some userId)
    (table : Target) :
    Keeps s (deleteTarget s userId target)
      (table.foreignKeys (deleteTarget s userId target)) := by
  intro r hr hsome
  have hmem := (foreignKeys_deleteTarget hr).1
  rcases Option.isSome_iff_exists.mp hsome with ⟨owner, howner⟩
  by_cases htable : r.row.table = target
  · have hown := foreignKeys_own hs hmem howner
    have hreferrer : table ∈ target.referrers := htable ▸ mem_referrers hmem
    have hne : owner ≠ userId := by
      rintro rfl
      exact hempty table hreferrer r hmem hown
    rw [ownerOf_deleteTarget target hne howner]
    rfl
  · rw [ownerOf_of_ne s userId htable, howner]
    rfl

/-! ## All of them -/

theorem foreignKeys_deleteTargets {s : System} {userId : Nat} {targets : List Target}
    {table : Target} {r : Reference} (h : r ∈ table.foreignKeys (deleteTargets s userId targets)) :
    r ∈ table.foreignKeys s ∧ (table ∈ targets → r.owner ≠ some userId) := by
  induction targets generalizing s with
  | nil => exact ⟨h, fun hnil => by cases hnil⟩
  | cons target targets ih =>
      have hrest := ih h
      have hfirst := foreignKeys_deleteTarget hrest.1
      refine ⟨hfirst.1, fun hmem => ?_⟩
      rcases List.mem_cons.mp hmem with heq | hlater
      · exact hfirst.2 heq
      · exact hrest.2 hlater

theorem ownerOf_deleteTargets {s : System} {userId owner : Nat} (targets : List Target) {r : Ref}
    (hne : owner ≠ userId) (h : s.ownerOf r = some owner) :
    (deleteTargets s userId targets).ownerOf r = some owner := by
  induction targets generalizing s with
  | nil => exact h
  | cons target targets ih => exact ih (ownerOf_deleteTarget target hne h)

/-- The deletions are in an order that no foreign key objects to. -/
theorem statements_ordered {s : System} (hs : Inv s) (userId : Nat) {before after : List Target}
    {target : Target} (h : statements = before ++ target :: after) (table : Target) :
    Keeps (deleteTargets s userId before)
      (deleteTarget (deleteTargets s userId before) userId target)
      (table.foreignKeys (deleteTarget (deleteTargets s userId before) userId target)) := by
  apply deleteTarget_keeps (deleteTargets_inv userId before hs)
  intro referrer hreferrer r hr
  exact (foreignKeys_deleteTargets hr).2 (referrers_first h referrer hreferrer)

theorem filter_delete {α κ : Type} {key : α → κ} (table : Table α key) {q p : α → Bool}
    (h : ∀ row, p row = true → q row = false) :
    (table.delete p).rows.filter q = table.rows.filter q := by
  rw [Table.delete_rows, List.filter_filter]
  refine List.filter_congr fun row _ => ?_
  cases hp : p row with
  | false => simp
  | true => simp [h row hp]

/-- A statement deletes rows of the user only. -/
theorem select_deleteTarget (s : System) (userId : Nat) (target : Target) :
    (deleteTarget s userId target).select (· != some userId) = s.select (· != some userId) := by
  cases target
  all_goals
    unfold System.select deleteTarget
    dsimp only [System.links, System.accessTokens, System.scheduledRefreshJobs]
    rw [filter_delete _ fun row hrow => by simpa using hrow]

theorem select_deleteTargets (s : System) (userId : Nat) (targets : List Target) :
    (deleteTargets s userId targets).select (· != some userId) =
      s.select (· != some userId) := by
  induction targets generalizing s with
  | nil => rfl
  | cons target targets ih =>
      exact (ih (deleteTarget s userId target)).trans (select_deleteTarget s userId target)

theorem filter_delete_self {α κ : Type} {key : α → κ} (table : Table α key) {q p : α → Bool}
    (h : ∀ row, q row = true → p row = true) : (table.delete p).rows.filter q = [] := by
  rw [Table.delete_rows, List.filter_filter, List.filter_eq_nil_iff]
  intro row _
  cases hq : q row with
  | false => simp
  | true => simp [h row hq]

theorem deleteAccount_complete (s : System) (userId : Nat) :
    (deleteAccount s userId).select (· == some userId) = .none := by
  unfold System.select OwnedRows.none
  congr 1
  all_goals exact filter_delete_self _ fun row hrow => by simpa using hrow

/-! ## Who names a deleted row -/

theorem undeclared_deleteAccount {s : System} {userId : Nat} {r : Reference}
    (h : r ∈ (deleteAccount s userId).undeclared) :
    (∃ p ∈ s.publicTokens.rows, p.userId ≠ userId ∧ r = ⟨some p.userId, .link p.linkToken⟩) ∨
      ∃ wh ∈ s.webhooks.rows, wh.userId ≠ userId ∧ r = ⟨some wh.userId, .link wh.linkToken⟩ := by
  rcases List.mem_append.mp h with hpublic | hwebhook
  · rcases mem_map_delete hpublic with ⟨-, p, hp, hother, rfl⟩
    exact .inl ⟨p, hp, by simpa using hother, rfl⟩
  · rcases mem_map_delete hwebhook with ⟨-, wh, hwh, hother, rfl⟩
    exact .inr ⟨wh, hwh, by simpa using hother, rfl⟩

/-- A row that is left names a row that is left, unless it is a webhook that names
a link of the user. -/
theorem unreferred_of_named {s : System} (hs : Inv s) {userId : Nat} (hnamed : NamedByOwner s userId)
    {r : Reference} (h : r ∈ (deleteAccount s userId).undeclared ∨
      ∃ table : Target, r ∈ table.foreignKeys (deleteAccount s userId))
    (hsome : (s.ownerOf r.row).isSome = true) :
    ((deleteAccount s userId).ownerOf r.row).isSome = true := by
  rcases Option.isSome_iff_exists.mp hsome with ⟨owner, howner⟩
  have hother : owner ≠ userId := by
    rintro rfl
    rcases h with hundeclared | ⟨table, htable⟩
    · rcases undeclared_deleteAccount hundeclared with
        ⟨p, hp, hne, rfl⟩ | ⟨wh, hwh, hne, rfl⟩
      · exact hne (owner_link hs (hs.publicTokens p hp) howner)
      · exact hne (hnamed wh hwh howner)
    · rw [deleteAccount_eq] at htable
      rcases foreignKeys_deleteTargets htable with ⟨hmem, hleft⟩
      have hown := foreignKeys_own hs hmem howner
      refine hleft ?_ hown
      cases table <;> decide
  rw [deleteAccount_eq, ownerOf_deleteTargets statements hother howner]
  rfl

theorem erased_iff {s : System} (hs : Inv s) (userId : Nat) :
    Erased s userId ↔ NamedByOwner s userId := by
  constructor
  · intro h wh hwh howner
    by_contra hne
    -- the webhook stays, and the link that it names does not
    have hstays : (⟨some wh.userId, .link wh.linkToken⟩ : Reference) ∈
        (deleteAccount s userId).undeclared := by
      apply List.mem_append_right
      refine List.mem_map.mpr ⟨wh, ?_, rfl⟩
      exact List.mem_filter.mpr ⟨hwh, by simpa using hne⟩
    have hsome : (s.ownerOf (.link wh.linkToken)).isSome = true := by
      rw [howner]
      rfl
    have hleft := h.unreferred _ (.inl hstays) hsome
    rcases Option.isSome_iff_exists.mp hleft with ⟨other, hother⟩
    rcases get?_map_eq_some.mp hother with ⟨row, hrow, hkey, -⟩
    have hrow : row ∈ (s.links.delete (·.userId == userId)).rows := hrow
    rcases List.mem_filter.mp hrow with ⟨hmem, hrowUser⟩
    rcases get?_map_eq_some.mp howner with ⟨link, hlink, hlinkKey, hlinkUser⟩
    have hsame : row = link := Table.eq_of_key_eq hmem hlink (hkey.trans hlinkKey.symm)
    rw [hsame] at hrowUser
    simp [hlinkUser] at hrowUser
  · intro h
    constructor
    · exact deleteAccount_complete s userId
    · exact select_deleteTargets s userId statements
    · exact fun before target after heq table => statements_ordered hs userId heq table
    · exact fun r hr hsome => unreferred_of_named hs h hr hsome

/-! ## Runs whose webhooks are for sessions of their users -/

/-- A webhook's session is its user's, or nobody's. -/
def WebhooksOwn (s : System) : Prop :=
  ∀ wh ∈ s.webhooks.rows, ∃ session ∈ s.api.links.sessions,
    session.linkToken = wh.linkToken ∧ (session.userId = none ∨ session.userId = some wh.userId)

theorem WebhooksOwn.named {s : System} (hs : Inv s) (h : WebhooksOwn s) (userId : Nat) :
    NamedByOwner s userId := by
  intro wh hwh howner
  rcases h wh hwh with ⟨session, hsession, hkey, huser⟩
  rcases get?_map_eq_some.mp howner with ⟨link, hlink, hlinkKey, rfl⟩
  have hbelongs := hs.tokens.owned.links link hlink session hsession (hkey.trans hlinkKey.symm)
  rcases huser with hnobody | hown
  · rw [hnobody] at hbelongs
    cases hbelongs
  · rw [hown] at hbelongs
    exact Option.some.inj hbelongs

section Runs

variable {py : PyText} {webhook : Bool}

/-- Sessions stay on record, and a new webhook is for one of them. -/
theorem step_webhooks {s t : System} {l : Label} (hs : Inv s) (h : step py webhook s l = some t) :
    (∀ session ∈ s.api.links.sessions, session ∈ t.api.links.sessions) ∧
      ∀ wh ∈ t.webhooks.rows, wh ∈ s.webhooks.rows ∨ l = .registerWebhook wh ∧
        ∃ session ∈ s.api.links.sessions, session.linkToken = wh.linkToken := by
  -- most requests write to neither table
  have hsame : (∀ session ∈ s.api.links.sessions, session ∈ s.api.links.sessions) ∧
      ∀ wh ∈ s.webhooks.rows, wh ∈ s.webhooks.rows ∨ l = .registerWebhook wh ∧
        ∃ session ∈ s.api.links.sessions, session.linkToken = wh.linkToken :=
    ⟨fun _ hmem => hmem, fun _ hmem => .inl hmem⟩
  cases l with
  | register | refreshTokens | passwordResetTokens | blueprints | accessJobs | revokeConsent |
    updateAgent | restart =>
      simp only [step] at h
      rcases Option.map_eq_some_iff.mp h with ⟨_, -, rfl⟩
      exact hsame
  | cascade | mfa =>
      rw [← Option.some.inj h]
      exact hsame
  -- a deletion leaves some of the rows
  | deleteAccount | deleteWebhook =>
      rw [← Option.some.inj h]
      exact ⟨hsame.1, fun wh hwh => .inl (List.mem_filter.mp hwh).1⟩
  | api l =>
      simp only [step, apiRequest] at h
      split at h
      · cases h
      · rcases Option.map_eq_some_iff.mp h with ⟨api, hapi, rfl⟩
        refine ⟨?_, hsame.2⟩
        -- the sessions are those of the links
        intro session hsession
        rcases api_links hapi with heq | ⟨l', hlinks, -⟩
        · show session ∈ api.links.sessions
          rw [heq]
          exact hsession
        · exact Links.step_sessions hs.tokens.inv hlinks session hsession
  | registerWebhook new =>
      simp only [step] at h
      split at h
      · rename_i hchecked
        rcases Option.map_eq_some_iff.mp h with ⟨webhooks, hinsert, rfl⟩
        -- the webhook that is registered names a session on record
        refine ⟨hsame.1, mem_insert hinsert (fun wh hwh => .inl hwh) ?_⟩
        rcases List.any_eq_true.mp hchecked with ⟨session, hmem, hkey⟩
        exact .inr ⟨rfl, session, hmem, by simpa using hkey⟩
      · cases h
  | ensurePublicToken | consentRequest | createApiKey =>
      simp only [step] at h
      split at h
      · rcases Option.map_eq_some_iff.mp h with ⟨_, -, rfl⟩
        exact hsame
      · cases h
  | consentApprove userId requestId consentToken now =>
      rcases Option.bind_eq_some_iff.mp h with ⟨cr, -, happrove⟩
      split at happrove
      · rcases Option.map_eq_some_iff.mp happrove with ⟨_, -, rfl⟩
        exact hsame
      · cases happrove
  | consentDeny userId requestId =>
      rcases Option.bind_eq_some_iff.mp h with ⟨cr, -, hdeny⟩
      split at hdeny
      · rw [← Option.some.inj hdeny]
        exact hsame
      · cases hdeny
  | registerAgent agent apiKeyId =>
      simp only [step] at h
      split at h
      · rcases Option.bind_eq_some_iff.mp h with ⟨_, -, hagent⟩
        rcases Option.map_eq_some_iff.mp hagent with ⟨_, -, rfl⟩
        exact hsame
      · cases h

theorem webhooksOwn_step {s t : System} {l : Label} (hs : Inv s) (hown : WebhooksOwn s)
    (hl : RegistersOwn s l) (h : step py webhook s l = some t) : WebhooksOwn t := by
  intro wh hwh
  have hmoves := step_webhooks hs h
  rcases hmoves.2 wh hwh with hold | ⟨rfl, session, hsession, hkey⟩
  · rcases hown wh hold with ⟨session, hsession, huser⟩
    exact ⟨session, hmoves.1 session hsession, huser⟩
  · exact ⟨session, hmoves.1 session hsession, hkey, hl session hsession hkey⟩

/-- In every state of a run, the erasure of an account is complete, contained and
in order, and it leaves no row that refers to a deleted one exactly when no webhook
of another user names a link of the account. There is none in a run in which
webhooks are registered for sessions of the registering user, or of nobody. -/
theorem erased_of_registersOwn {backend : Backend} {tr : List Label} {s : System}
    (h : Runs.exec (step py webhook) (start backend) tr = some s) :
    (∀ userId, Erased s userId ↔ NamedByOwner s userId) ∧
      (Runs.Along (step py webhook) RegistersOwn (start backend) tr → ∀ userId, Erased s userId) := by
  have hs := run_inv h
  constructor
  · exact fun userId => erased_iff hs userId
  · intro hown userId
    have hwebhooks : Inv s ∧ WebhooksOwn s :=
      Runs.invariant_along (I := fun s => Inv s ∧ WebhooksOwn s)
        (fun _ _ _ hI hl hstep => ⟨step_inv hI.1 hstep, webhooksOwn_step hI.1 hI.2 hl hstep⟩)
        ⟨start_inv backend, fun wh hwh => by cases hwh⟩ hown h
    exact (erased_iff hs userId).mpr (hwebhooks.2.named hs userId)

end Runs

/-! ## A webhook of another user -/

def sessionOf (userId : Nat) (linkToken : String) : Label :=
  .api (.links (.createLinkSession { userId, authMethod := "jwt" } linkToken
    (some "greengrid_energy")))

/-- Two users with a link each, an access token with a consent and a refresh
schedule, and webhooks of their own. -/
def twoUsers : List Label :=
  [.register 1, .register 2, sessionOf 1 "link-1", sessionOf 2 "link-2",
    .api (.links (.connect "link-1" "greengrid_energy" "access-1" true true)),
    .api (.links (.connect "link-2" "greengrid_energy" "access-2" true true)),
    .api (.scheduleRefresh 1 "access-1" (some 600) none true),
    .consentRequest ⟨"consent-1", "billing", "[]", 60, "access-1", 1, "pending"⟩,
    .consentApprove 1 "consent-1" "grant-1" 0,
    .registerWebhook ⟨"webhook-1", "link-1", "https://hooks.example/1", 1, 0⟩,
    .registerWebhook ⟨"webhook-2", "link-2", "https://hooks.example/2", 2, 0⟩]

theorem twoUsers_erased :
    ∃ s, Runs.exec (step Principals.asciiText true) (start .redis) twoUsers = some s ∧
      Target.foreignKeys s .accessTokens = [⟨some 1, .link "link-1"⟩, ⟨some 1, .user 1⟩,
        ⟨some 2, .link "link-2"⟩, ⟨some 2, .user 2⟩] ∧
      ∀ userId, Erased s userId := by
  have hrun : (Runs.exec (step Principals.asciiText true) (start .redis) twoUsers).map
      (Target.foreignKeys · .accessTokens) = some [⟨some 1, .link "link-1"⟩, ⟨some 1, .user 1⟩,
        ⟨some 2, .link "link-2"⟩, ⟨some 2, .user 2⟩] := by
    decide +kernel
  rcases Option.map_eq_some_iff.mp hrun with ⟨s, hs, hkeys⟩
  refine ⟨s, hs, hkeys, (erased_of_registersOwn hs).2 ?_⟩
  decide +kernel

/-- The second user's webhook is for the first user's session. -/
def namedByOther : List Label :=
  [.register 1, .register 2, sessionOf 1 "link-1",
    .registerWebhook ⟨"webhook-1", "link-1", "https://hooks.example/2", 2, 0⟩]

theorem namedByOther_not_erased :
    ∃ s, Runs.exec (step Principals.asciiText true) (start .redis) namedByOther = some s ∧
      ¬Erased s 1 := by
  have hrun : (Runs.exec (step Principals.asciiText true) (start .redis) namedByOther).map
      (fun s => (s.webhooks.rows, s.ownerOf (.link "link-1"))) =
        some ([⟨"webhook-1", "link-1", "https://hooks.example/2", 2, 0⟩], some 1) := by
    decide +kernel
  rcases Option.map_eq_some_iff.mp hrun with ⟨s, hs, hrows⟩
  rcases Prod.mk.inj hrows with ⟨hwebhooks, howner⟩
  refine ⟨s, hs, fun herased => ?_⟩
  have hnamed := (erased_iff (run_inv hs) 1).mp herased
  have huser := hnamed ⟨"webhook-1", "link-1", "https://hooks.example/2", 2, 0⟩
    (by rw [hwebhooks]; exact List.mem_singleton_self _) howner
  cases huser

end Plaidify.Tenancy
