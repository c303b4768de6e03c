import Plaidify.AccessJobs.Workers

/-!
# The lock of a scope

`acquire_scope_lock` and `_HeldScopeLock.release` of `src/src/access_jobs.py`
for one scope, with any number of callers in any number of processes. A caller
takes the Redis key if Redis answers, and the lock of its own process if it does
not; which of the two is decided for each call.

Two callers that got the scope in different places therefore hold it at the
same time (`fallback_not_exclusive`). `exclusive_per_place` is what the lock
does guarantee: in each place there is one holder, and nobody loses the lock to
the release of somebody else.
-/

namespace Plaidify.AccessJobs.ScopeLock

/-! ## Callers -/

/-- Where a lock is held. -/
inductive Place where
  | redis
  /-- The `asyncio.Lock` of a process. -/
  | process (id : Nat)
deriving DecidableEq

inductive Phase where
  /-- In the loop of `_acquire_redis_lock`. -/
  | polling (deadline : Nat)
  /-- In `wait_for(lock.acquire())` of `_acquire_local_lock`. -/
  | waitingLocal (deadline : Nat)
  | holds (place : Place)
  /-- Released, or never acquired. -/
  | done
deriving DecidableEq

/-- A call of `acquire_scope_lock` and the lock it returns. `id` also stands for
the `uuid4` that is its token. -/
structure Caller where
  id : Nat
  process : Nat
  phase : Phase
deriving DecidableEq

structure Key where
  token : Nat
  expiresAt : Nat
deriving DecidableEq

structure State where
  now : Nat
  key : Option Key
  /-- The processes whose lock is held, with the holder. -/
  locals : List (Nat × Nat)
  callers : Table Caller Caller.id

/-- What `session_store._redis()` comes to. -/
inductive Connection where
  | client
  | none
  /-- In production it raises where Redis does not answer. -/
  | raises
deriving DecidableEq

/-- What a Redis command comes to. It can raise after it took effect, when only
the reply is lost. -/
inductive Reply where
  | answered
  | raised
  | lost
deriving DecidableEq

inductive Label where
  | acquire (id process : Nat) (connection : Connection)
  | poll (id : Nat) (reply : Reply)
  /-- The lock of the process is granted. -/
  | grant (id : Nat)
  /-- `wait_for` times out. -/
  | timeout (id : Nat)
  | cancel (id : Nat)
  | release (id : Nat) (reply : Reply)
  | wait (ms : Nat)
deriving DecidableEq

def init (now : Nat) : State where
  now
  key := none
  locals := []
  callers := .empty

/-- `set(..., nx=True)` would set the key. -/
def State.keyFree (s : State) : Bool :=
  match s.key with
  | none => true
  | some key => key.expiresAt < s.now

def State.goto (s : State) (c : Caller) (phase : Phase) : State :=
  { s with callers := s.callers.put { c with phase } }

/-- The key after a `SET NX` of a caller. -/
def State.setKey (s : State) (c : Caller) : State :=
  if s.keyFree then { s with key := some ⟨c.id, s.now + lockTtl⟩ } else s

/-- `_RELEASE_LOCK_SCRIPT`. -/
def State.deleteKey (s : State) (c : Caller) : State :=
  { s with key := s.key.filter fun key => key.token != c.id }

/-- One round of the loop of `_acquire_redis_lock`. -/
def poll (s : State) (c : Caller) (deadline : Nat) : Reply → State
  | .answered =>
      if s.keyFree then (s.setKey c).goto c (.holds .redis)
      else if deadline ≤ s.now then s.goto c .done
      else s
  | .raised => s.goto c (.waitingLocal (s.now + lockWait))
  | .lost => (s.setKey c).goto c (.waitingLocal (s.now + lockWait))

/-- `_HeldScopeLock.release`. What Redis raises is logged. -/
def release (s : State) (c : Caller) : Place → Reply → State
  | .redis, .raised => s.goto c .done
  | .redis, _ => (s.deleteKey c).goto c .done
  | .process p, _ => { s with locals := s.locals.filter fun l => l.1 != p }.goto c .done

def step (s : State) : Label → Option State
  | .acquire id process connection =>
      let phase : Phase :=
        match connection with
        | .client => .polling (s.now + lockWait)
        | .none => .waitingLocal (s.now + lockWait)
        | .raises => .done
      (s.callers.insert? { id, process, phase }).map fun callers => { s with callers }
  | .poll id reply =>
      match s.callers.get? id with
      | some c =>
          match c.phase with
          | .polling deadline => some (poll s c deadline reply)
          | _ => none
      | none => none
  | .grant id =>
      match s.callers.get? id with
      | some c =>
          match c.phase with
          | .waitingLocal _ =>
              if s.locals.all fun l => l.1 != c.process then
                some ({ s with locals := (c.process, c.id) :: s.locals }.goto c
                  (.holds (.process c.process)))
              else none
          | _ => none
      | none => none
  | .timeout id =>
      match s.callers.get? id with
      | some c =>
          match c.phase with
          | .waitingLocal deadline => if deadline ≤ s.now then some (s.goto c .done) else none
          | _ => none
      | none => none
  | .cancel id =>
      match s.callers.get? id with
      | some c =>
          match c.phase with
          | .polling _ | .waitingLocal _ => some (s.goto c .done)
          | _ => none
      | none => none
  | .release id reply =>
      match s.callers.get? id with
      | some c =>
          match c.phase with
          | .holds place => some (release s c place reply)
          -- `_released` is set
          | .done => some s
          | _ => none
      | none => none
  | .wait ms => some { s with now := s.now + ms }

/-- Every holder of the key releases it within its lifetime. -/
def InTime (s : State) : Label → Prop
  | .wait ms =>
      ∀ c ∈ s.callers.rows, c.phase = .holds .redis →
        ∀ key, s.key = some key → key.token = c.id → s.now + ms ≤ key.expiresAt
  | _ => True

/-! ## Exclusion -/

/-- The lock that the caller holds is still its own. -/
def Backed (s : State) (c : Caller) : Prop :=
  match c.phase with
  | .holds .redis => ∃ key, s.key = some key ∧ key.token = c.id ∧ s.now ≤ key.expiresAt
  | .holds (.process p) => p = c.process ∧ (p, c.id) ∈ s.locals
  | _ => True

/-- In each place one caller holds the scope, and nobody has lost it. -/
structure Exclusive (s : State) : Prop where
  one : ∀ c ∈ s.callers.rows, ∀ c' ∈ s.callers.rows, ∀ place,
    c.phase = .holds place → c'.phase = .holds place → c = c'
  backed : ∀ c ∈ s.callers.rows, Backed s c

/-- The locks of the processes have one holder each, and every holder is backed. -/
structure Inv (s : State) : Prop where
  locals : (s.locals.map Prod.fst).Nodup
  backed : ∀ c ∈ s.callers.rows, Backed s c

theorem Inv.exclusive {s : State} (hs : Inv s) : Exclusive s := by
  refine ⟨?_, hs.backed⟩
  intro c hc c' hc' place hplace hplace'
  have hb := hs.backed c hc
  have hb' := hs.backed c' hc'
  simp only [Backed, hplace] at hb
  simp only [Backed, hplace'] at hb'
  apply Table.eq_of_key_eq hc hc'
  cases place with
  | redis =>
      obtain ⟨key, hkey, htoken, -⟩ := hb
      obtain ⟨key', hkey', htoken', -⟩ := hb'
      obtain rfl := Option.some.inj (hkey.symm.trans hkey')
      exact htoken.symm.trans htoken'
  | process p =>
      have hmem := List.inj_on_of_nodup_map hs.locals hb.2 hb'.2 rfl
      exact (Prod.mk.inj hmem).2

theorem init_inv (now : Nat) : Inv (init now) :=
  ⟨List.nodup_nil, by simp [init]⟩

variable {s t : State}

/-- A caller goes on, the others keep what they have. -/
theorem Inv.goto (hlocals : (t.locals.map Prod.fst).Nodup) {c : Caller} {phase : Phase}
    (hothers : ∀ c' ∈ t.callers.rows, c'.id ≠ c.id → Backed t c')
    (hc : Backed t { c with phase }) : Inv (t.goto c phase) := by
  refine ⟨hlocals, ?_⟩
  intro c' hc'
  rcases Table.mem_put hc' with rfl | ⟨hmem, hne⟩
  · exact hc
  · exact hothers c' hmem hne

/-- Where the key and the locks of the processes are the same. -/
theorem Backed.congr (hkey : t.key = s.key) (hlocals : t.locals = s.locals)
    (hnow : t.now = s.now) {c : Caller} (h : Backed s c) : Backed t c := by
  unfold Backed at h ⊢
  rw [hkey, hlocals, hnow]
  exact h

/-- A caller that stops waiting without the lock. -/
theorem Inv.idle (hs : Inv s) {c : Caller} {phase : Phase} (hphase : ∀ place, phase ≠ .holds place) :
    Inv (s.goto c phase) := by
  refine .goto hs.locals (fun c' hc' _ => hs.backed c' hc') ?_
  unfold Backed
  split
  · rename_i h
    exact absurd h (hphase _)
  · rename_i h
    exact absurd h (hphase _)
  · trivial

/-- Nobody holds a key that is free. -/
theorem Inv.not_holds_of_keyFree (hs : Inv s) (hfree : s.keyFree = true) {c : Caller}
    (hc : c ∈ s.callers.rows) : c.phase ≠ .holds .redis := by
  intro hphase
  have hb := hs.backed c hc
  simp only [Backed, hphase] at hb
  obtain ⟨key, hkey, -, hlt⟩ := hb
  simp only [State.keyFree, hkey, decide_eq_true_eq] at hfree
  omega

theorem Inv.setKey (hs : Inv s) (c : Caller) : Inv (s.setKey c) := by
  unfold State.setKey
  split
  · rename_i hfree
    refine ⟨hs.locals, fun c' hc' => ?_⟩
    have hb := hs.backed c' hc'
    have hne := hs.not_holds_of_keyFree hfree hc'
    unfold Backed at hb ⊢
    split
    · rename_i hphase
      exact absurd hphase hne
    · rename_i hphase
      simpa [hphase] using hb
    · trivial
  · exact hs

theorem poll_inv (hs : Inv s) {c : Caller} {deadline : Nat} {reply : Reply} :
    Inv (poll s c deadline reply) := by
  cases reply with
  | answered =>
      simp only [poll]
      split
      · rename_i hfree
        have hset := hs.setKey c
        refine .goto hset.locals (fun c' hc' _ => hset.backed c' hc') ?_
        refine ⟨⟨c.id, s.now + lockTtl⟩, by simp [State.setKey, hfree], rfl, ?_⟩
        simp [State.setKey, hfree, lockTtl]
      · split
        · exact hs.idle (by simp)
        · exact hs
  | raised => exact hs.idle (by simp)
  | lost => exact (hs.setKey c).idle (by simp)

theorem release_inv (hs : Inv s) {c : Caller} (hc : c ∈ s.callers.rows) {place : Place}
    (hplace : c.phase = .holds place) {reply : Reply} : Inv (release s c place reply) := by
  have hdelete : Inv ((s.deleteKey c).goto c .done) := by
    refine .goto (t := s.deleteKey c) hs.locals (fun c' hc' hne => ?_) trivial
    have hb := hs.backed c' hc'
    unfold Backed at hb ⊢
    split
    · rename_i hphase
      simp only [hphase] at hb
      obtain ⟨key, hkey, htoken, hlt⟩ := hb
      -- the script compares the token
      refine ⟨key, ?_, htoken, hlt⟩
      have hother : key.token ≠ c.id := by rwa [htoken]
      simp [State.deleteKey, hkey, hother]
    · rename_i hphase
      simp only [hphase] at hb
      exact hb
    · trivial
  cases place with
  | redis =>
      cases reply with
      | answered => exact hdelete
      | raised => exact hs.idle (by simp)
      | lost => exact hdelete
  | process p =>
      have hown := hs.backed c hc
      simp only [Backed, hplace] at hown
      refine .goto (t := { s with locals := s.locals.filter fun l => l.1 != p })
        (hs.locals.sublist (List.filter_sublist.map _)) (fun c' hc' hne => ?_) trivial
      have hb := hs.backed c' hc'
      unfold Backed at hb ⊢
      split
      · rename_i hphase
        simpa [hphase] using hb
      · rename_i p' hphase
        simp only [hphase] at hb
        refine ⟨hb.1, List.mem_filter.mpr ⟨hb.2, ?_⟩⟩
        have hother : p' ≠ p := by
          rintro rfl
          have hmem := List.inj_on_of_nodup_map hs.locals hb.2 hown.2 rfl
          exact hne (Prod.mk.inj hmem).2
        simpa using hother
      · trivial

theorem step_inv {l : Label} (hs : Inv s) (hl : InTime s l) (h : step s l = some t) : Inv t := by
  cases l with
  | acquire id process connection =>
      obtain ⟨callers, hins, rfl⟩ := Option.map_eq_some_iff.mp h
      refine ⟨hs.locals, fun c hc => ?_⟩
      rw [(Table.insert?_eq_some hins).2] at hc
      rcases List.mem_append.mp hc with hc | hc
      · exact hs.backed c hc
      · -- a caller begins with no lock
        obtain rfl := List.mem_singleton.mp hc
        cases connection <;> trivial
  | poll id reply =>
      simp only [step] at h
      split at h
      · split at h
        · obtain rfl := Option.some.inj h
          exact poll_inv hs
        · cases h
      · cases h
  | grant id =>
      simp only [step] at h
      split at h
      · rename_i c hget
        split at h
        · split at h
          · rename_i hfree
            obtain rfl := Option.some.inj h
            -- the lock of the process is free, so it is not yet among those held
            have hnew : c.process ∉ s.locals.map Prod.fst := by
              intro hmem
              obtain ⟨l, hl, heq⟩ := List.mem_map.mp hmem
              exact absurd heq (by simpa using (List.all_eq_true.mp hfree) l hl)
            refine .goto (t := { s with locals := (c.process, c.id) :: s.locals })
              (List.nodup_cons.mpr ⟨hnew, hs.locals⟩) (fun c' hc' _ => ?_) ⟨rfl, by simp⟩
            -- the other callers keep what they have
            have hb := hs.backed c' hc'
            unfold Backed at hb ⊢
            split
            · rename_i hphase
              simpa [hphase] using hb
            · rename_i hphase
              simp only [hphase] at hb
              exact ⟨hb.1, List.mem_cons_of_mem _ hb.2⟩
            · trivial
          · cases h
        · cases h
      · cases h
  | timeout id =>
      -- who gives up has nothing to release
      simp only [step] at h
      split at h
      · split at h
        · split at h
          · obtain rfl := Option.some.inj h
            exact hs.idle (by simp)
          · cases h
        · cases h
      · cases h
  | cancel id =>
      simp only [step] at h
      split at h
      · split at h
        · obtain rfl := Option.some.inj h
          exact hs.idle (by simp)
        · obtain rfl := Option.some.inj h
          exact hs.idle (by simp)
        · cases h
      · cases h
  | release id reply =>
      simp only [step] at h
      split at h
      · rename_i c hget
        split at h
        · rename_i place hplace
          obtain rfl := Option.some.inj h
          -- the release frees the caller's own lock only
          exact release_inv hs (Table.get?_mem hget).1 hplace
        · -- a lock that was released is not released again
          obtain rfl := Option.some.inj h
          exact hs
        · cases h
      · cases h
  | wait ms =>
      obtain rfl := Option.some.inj h
      refine ⟨hs.locals, fun c hc => ?_⟩
      have hb := hs.backed c hc
      unfold Backed at hb ⊢
      -- the key of a holder has not run out, for it releases in time
      split
      · rename_i hphase
        simp only [hphase] at hb
        obtain ⟨key, hkey, htoken, -⟩ := hb
        exact ⟨key, hkey, htoken, hl c hc hphase key hkey htoken⟩
      · rename_i hphase
        simpa [hphase] using hb
      · trivial

/-- A release only moves the caller that releases. -/
theorem release_others {id : Nat} {reply : Reply} (h : step s (.release id reply) = some t)
    {c : Caller} (hc : c ∈ s.callers.rows) (hne : c.id ≠ id) : c ∈ t.callers.rows := by
  simp only [step] at h
  split at h
  · rename_i r hget
    obtain ⟨-, hid⟩ := Table.get?_mem hget
    have hkeep : ∀ (u : State) (phase : Phase), u.callers = s.callers →
        c ∈ (u.goto r phase).callers.rows := by
      intro u phase hu
      show c ∈ (u.callers.put { r with phase }).rows
      rw [hu]
      exact Table.mem_put_of_ne hc (by simpa [hid] using hne)
    split at h
    · rename_i place hplace
      obtain rfl := Option.some.inj h
      cases place with
      | redis => cases reply <;> exact hkeep _ _ rfl
      | process p => exact hkeep _ _ rfl
    · obtain rfl := Option.some.inj h
      exact hc
    · cases h
  · cases h

/-- In every state of a run in which holders release in time, each place has at
most one holder, and a release leaves the locks of the others in their place. -/
theorem exclusive_per_place {now : Nat} {u : State} {run : List Label}
    (htime : Runs.Along step InTime (init now) run) (h : Runs.exec step (init now) run = some u) :
    Exclusive u ∧ ∀ id reply t, step u (.release id reply) = some t →
      ∀ c ∈ u.callers.rows, c.id ≠ id → c ∈ t.callers.rows ∧ Backed t c := by
  have hu : Inv u := Runs.invariant_along (fun _ _ _ hs hl h => step_inv hs hl h) (init_inv now)
    htime h
  refine ⟨hu.exclusive, ?_⟩
  intro id reply t hstep c hc hne
  have hmem := release_others hstep hc hne
  exact ⟨hmem, (step_inv (l := .release id reply) hu trivial hstep).backed c hmem⟩

/-- Caller 1 gets the Redis key while caller 2 polls in vain; caller 3 has no client
and holds the lock of its process, for which caller 4 waits; then the key goes from
caller 1 to caller 2. -/
def contended : List Label :=
  [.acquire 1 0 .client, .poll 1 .answered, .acquire 2 1 .client, .poll 2 .answered,
    .acquire 3 0 .none, .grant 3, .acquire 4 0 .none, .wait 1000, .release 1 .answered,
    .poll 2 .answered]

/-- Caller 2 holds the key next to caller 3 with the lock of the process. A second
release by caller 1, and the release by caller 3, leave it its lock. -/
theorem contended_exclusive :
    ∃ u, Runs.exec step (init 0) contended = some u ∧ Exclusive u ∧
      u.callers.rows.map Caller.phase =
        [.done, .holds .redis, .holds (.process 0), .waitingLocal lockWait] ∧
      ∀ id ∈ [1, 3], ∃ t, step u (.release id .answered) = some t ∧
        ∃ c ∈ t.callers.rows, c.id = 2 ∧ c.phase = .holds .redis ∧ Backed t c := by
  have htime : Runs.Along step InTime (init 0) contended := by
    refine ⟨trivial, trivial, trivial, trivial, trivial, trivial, trivial, ?_, trivial, trivial,
      trivial⟩
    intro c hc hholds key hkey _
    obtain rfl : (⟨1, 360000⟩ : Key) = key := Option.some.inj hkey
    decide
  obtain ⟨u, hu, hphases, hsecond, hreleases⟩ : ∃ u, Runs.exec step (init 0) contended = some u ∧
      u.callers.rows.map Caller.phase =
        [.done, .holds .redis, .holds (.process 0), .waitingLocal lockWait] ∧
      (⟨2, 1, .holds .redis⟩ : Caller) ∈ u.callers.rows ∧
      ∀ id ∈ [1, 3], (step u (.release id .answered)).isSome = true :=
    ⟨_, rfl, rfl, by decide, by decide⟩
  have hexclusive := exclusive_per_place htime hu
  refine ⟨u, hu, hexclusive.1, hphases, ?_⟩
  intro id hid
  obtain ⟨t, ht⟩ := Option.isSome_iff_exists.mp (hreleases id hid)
  have hne : (2 : Nat) ≠ id := by
    rintro rfl
    revert hid
    decide
  have hkept := hexclusive.2 id .answered t ht ⟨2, 1, .holds .redis⟩ hsecond hne
  exact ⟨t, ht, _, hkept.1, rfl, rfl, hkept.2⟩

/-- The second caller finds Redis failing and holds the lock of the process,
while the first one holds the key. -/
theorem fallback_not_exclusive :
    ¬ ∀ (now : Nat) (run : List Label) (u : State), Runs.exec step (init now) run = some u →
      Runs.Along step InTime (init now) run →
      ∀ c ∈ u.callers.rows, ∀ c' ∈ u.callers.rows, ∀ place place',
        c.phase = .holds place → c'.phase = .holds place' → c = c' := by
  intro hall
  have hsame := hall 0 [.acquire 1 0 .client, .poll 1 .answered, .acquire 2 0 .client,
    .poll 2 .raised, .grant 2] _ rfl ⟨trivial, trivial, trivial, trivial, trivial, trivial⟩
    ⟨1, 0, .holds .redis⟩ (by decide) ⟨2, 0, .holds (.process 0)⟩ (by decide) _ _ rfl rfl
  exact absurd hsame (by decide)

end Plaidify.AccessJobs.ScopeLock
