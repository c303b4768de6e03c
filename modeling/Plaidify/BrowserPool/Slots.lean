import Plaidify.BrowserPool.Pool

/-!
# Slot accounting of the browser pool

Every slot should be in one of three places: a live context, a free permit, or
an `acquire` in progress that holds a permit. `slots_accounted_iff` says in
which runs this is so, and with it that no more than `_max_size` contexts are
ever open: exactly those in which every `release` finds a context to close and
no `acquire` that holds a permit fails or is cancelled.

`release` returns a permit whether or not there was a context, so a session
that the idle cleanup closed is paid back twice when its client releases it.
-/

namespace Plaidify.BrowserPool

/-! ## Where the slots are -/

/-- The live contexts of the pool: those in `_contexts` and those being closed. -/
def live (s : State) : Nat :=
  s.contexts.length + s.tasks.countP (·.awaiting.closing)

/-- The acquires in progress that hold a permit. -/
def holding (s : State) : Nat :=
  s.tasks.countP (·.awaiting.holdsPermit)

/-- The browser contexts that are open. -/
def opened (s : State) : Nat :=
  live s + s.tasks.countP (·.awaiting.opening) + s.orphans

/-- The slots: live contexts, free permits, and permits that are held. -/
def slots (s : State) : Nat :=
  live s + s.free + holding s

/-- Every slot is accounted for, and the browser is within its limit. -/
def Accounted (settings : Settings) (s : State) : Prop :=
  slots s = settings.maxSize ∧ opened s ≤ settings.maxSize

/-- The step neither loses a permit nor returns one that nobody took. -/
def SlotKept (s : State) : Label → Prop
  | .contextCreated _ _ answer => answer = .returns
  | .routed _ returns => returns = true
  | .enterRelease id =>
      ∀ task others, pickTask s id = some (task, others) → hasContext s task.sessionId = true
  | .cancel id =>
      ∀ task others, pickTask s id = some (task, others) →
        task.awaiting.holdsPermit = false ∧ task.awaiting.closing = false
  | _ => True

/-! ## Counting tasks -/

/-- The picked task is counted apart from the others. -/
theorem pickTask_countP {s : State} {id : Nat} {task : Task} {others : List Task}
    (h : pickTask s id = some (task, others)) (p : Task → Bool) :
    s.tasks.countP p = others.countP p + if p task then 1 else 0 := by
  rw [(Parties.pick_perm h).countP_eq, List.countP_cons]

/-- The tasks are the picked one and the others. -/
theorem pickTask_mem {s : State} {id : Nat} {task : Task} {others : List Task}
    (h : pickTask s id = some (task, others)) {k : Task} :
    k ∈ s.tasks ↔ k = task ∨ k ∈ others := by
  rw [(Parties.pick_perm h).mem_iff, List.mem_cons]

/-- After a release the task waits for the lock or is gone: nothing to count. -/
theorem countP_afterRelease (task : Task) (others : List Task) (p : Await → Bool)
    (hp : p .releaseLock = false) :
    (afterRelease task others).countP (fun k => p k.awaiting) =
      others.countP fun k => p k.awaiting := by
  unfold afterRelease
  split
  · rfl
  · simp [hp]

/-- A task that was released either ended or goes on to its next context. -/
theorem mem_afterRelease {task : Task} {others : List Task} {k : Task}
    (h : k ∈ afterRelease task others) : k.awaiting = .releaseLock ∨ k ∈ others := by
  unfold afterRelease at h
  split at h
  · exact Or.inr h
  · rcases List.mem_cons.mp h with rfl | h
    · exact Or.inl rfl
    · exact Or.inr h

/-! ## The contexts -/

/-- The pool has a context of the session. -/
theorem hasContext_iff {s : State} {sessionId : String} :
    hasContext s sessionId = true ↔ ∃ c ∈ s.contexts, c.sessionId = sessionId := by
  simp [hasContext]

@[simp] theorem length_mapSession (f : PooledContext → PooledContext) (sessionId : String)
    (contexts : List PooledContext) :
    (mapSession f sessionId contexts).length = contexts.length := by
  simp [mapSession]

/-- A new context is one more. -/
theorem length_setContext {pooled : PooledContext} {contexts : List PooledContext}
    (h : contexts.any (·.sessionId == pooled.sessionId) = false) :
    (setContext pooled contexts).length = contexts.length + 1 := by
  simp [setContext, h]

/-- A context that is popped is one less. -/
theorem length_popContext {s : State} {sessionId : String} (h : hasContext s sessionId = true) :
    (popContext sessionId s.contexts).length + 1 = s.contexts.length := by
  obtain ⟨c, hc, heq⟩ := hasContext_iff.mp h
  have hlen := List.length_eraseP_of_mem (p := fun c => c.sessionId == sessionId) hc (by simp [heq])
  have hpos : 0 < s.contexts.length := List.length_pos_of_mem hc
  unfold popContext
  omega

/-! ## The lock -/

/-- The session that a task is about to enter in `_contexts`. -/
def Task.entering (task : Task) : Option String :=
  match task.awaiting with
  | .newContext => some task.sessionId
  | .routeSetup pooled => some pooled.sessionId
  | _ => none

/-- One task at a time is in the lock, and the session it is going to enter is
not there yet. -/
structure Inv (s : State) : Prop where
  lock : s.tasks.countP (·.awaiting.inLock) ≤ 1
  fresh : ∀ k ∈ s.tasks, ∀ sessionId, k.entering = some sessionId →
    hasContext s sessionId = false

/-- A task that is to enter a context has the lock. -/
theorem inLock_of_entering {k : Task} {sessionId : String} (h : k.entering = some sessionId) :
    k.awaiting.inLock = true := by
  unfold Task.entering at h
  split at h
  · rename_i hawait
    rw [hawait]
    rfl
  · rename_i hawait
    rw [hawait]
    rfl
  · exact absurd h (by simp)

/-- While a task in the lock goes on, no other task is entering a session. -/
theorem others_not_entering {s : State} (hs : Inv s) {id : Nat} {task : Task} {others : List Task}
    (hpick : pickTask s id = some (task, others)) (htask : task.awaiting.inLock = true) :
    ∀ k ∈ others, k.awaiting.inLock = false := by
  have hcount := hs.lock
  rw [pickTask_countP hpick, if_pos htask] at hcount
  have hzero : others.countP (·.awaiting.inLock) = 0 := by omega
  intro k hk
  simpa using List.countP_eq_zero.mp hzero k hk

/-- A new pool has no tasks. -/
theorem init_inv (settings : Settings) (browser : Bool) : Inv (init settings browser) :=
  ⟨by simp [init], by simp [init]⟩

/-- A step that leaves the contexts alone and brings no task into the lock. -/
theorem Inv.of_leaving {s t : State} (hs : Inv s) (hcontexts : t.contexts = s.contexts)
    {id : Nat} {task : Task} {others : List Task} (hpick : pickTask s id = some (task, others))
    (hcount : t.tasks.countP (·.awaiting.inLock) = others.countP (·.awaiting.inLock))
    (hmem : ∀ k ∈ t.tasks, k ∈ others ∨ k.awaiting.inLock = false) : Inv t := by
  have hlock := hs.lock
  rw [pickTask_countP hpick] at hlock
  refine ⟨by omega, ?_⟩
  intro k hk sessionId hentering
  rcases hmem k hk with hold | hout
  · have hfresh := hs.fresh k ((pickTask_mem hpick).mpr (Or.inr hold)) sessionId hentering
    rw [hasContext, hcontexts]
    exact hfresh
  · rw [inLock_of_entering hentering] at hout
    exact absurd hout (by simp)

/-- A step of the only task that may be in the lock afterwards. -/
theorem Inv.of_holder {t : State} {task : Task} {others : List Task}
    (htasks : t.tasks = task :: others) (hothers : ∀ k ∈ others, k.awaiting.inLock = false)
    (hfresh : ∀ sessionId, task.entering = some sessionId → hasContext t sessionId = false) :
    Inv t := by
  have hzero : others.countP (·.awaiting.inLock) = 0 :=
    List.countP_eq_zero.mpr fun k hk => by simpa using hothers k hk
  refine ⟨?_, ?_⟩
  · rw [htasks, List.countP_cons, hzero]
    split <;> omega
  · intro k hk sessionId hentering
    rw [htasks] at hk
    rcases List.mem_cons.mp hk with rfl | hk
    · exact hfresh sessionId hentering
    · exact absurd (inLock_of_entering hentering) (by simp [hothers k hk])

/-- Where the lock is free nobody is in it. -/
theorem others_unlocked {s : State} (hlock : locked s = false) {id : Nat} {task : Task}
    {others : List Task} (hpick : pickTask s id = some (task, others)) :
    ∀ k ∈ others, k.awaiting.inLock = false := by
  intro k hk
  have hk' : k ∈ s.tasks := (pickTask_mem hpick).mpr (Or.inr hk)
  simpa using (List.any_eq_false.mp hlock) k hk'

/-- A step keeps one task in the lock, and its session missing. -/
theorem step_inv {settings : Settings} {s t : State} {l : Label} (hs : Inv s)
    (h : step settings s l = some t) : Inv t := by
  cases step_move h with
  | spawned task hawait _ =>
      -- a task that only begins waits for the lock or the semaphore
      have hout : task.awaiting.inLock = false := by
        rcases hawait with h | h | h <;> rw [h] <;> rfl
      refine ⟨?_, ?_⟩
      · simpa [hout] using hs.lock
      · intro k hk sessionId hentering
        rcases List.mem_cons.mp hk with rfl | hk
        · rw [inLock_of_entering hentering] at hout
          exact absurd hout (by simp)
        · exact hs.fresh k hk sessionId hentering
  | granted task others hpick _ _ =>
      refine hs.of_leaving rfl hpick (by simp [Await.inLock]) ?_
      intro k hk
      rcases List.mem_cons.mp hk with rfl | hk
      · exact Or.inr rfl
      · exact Or.inl hk
  | reused task others hpick _ hlock _ =>
      exact .of_holder rfl (others_unlocked hlock hpick) (by simp [Task.entering])
  | creating task others hpick _ hlock hhas =>
      refine .of_holder rfl (others_unlocked hlock hpick) ?_
      intro sessionId hentering
      obtain rfl := Option.some.inj hentering
      exact hhas
  -- whoever leaves the lock with nothing leaves the tables as they are
  | notStarted task others hpick _ _ _ => exact hs.of_leaving rfl hpick rfl fun _ => Or.inl
  | creationRaised task others hpick _ => exact hs.of_leaving rfl hpick rfl fun _ => Or.inl
  | downloadDirRaised task others hpick _ => exact hs.of_leaving rfl hpick rfl fun _ => Or.inl
  | routing task others hpick hawait pooled hpooled =>
      -- the session is still the one that was missing when the task got the lock
      refine .of_holder rfl (others_not_entering hs hpick (by rw [hawait]; rfl)) ?_
      intro sessionId hentering
      have hsame : task.entering = some sessionId := by
        rw [← hentering]
        simp [Task.entering, hawait, hpooled]
      exact hs.fresh task ((pickTask_mem hpick).mpr (Or.inl rfl)) sessionId hsame
  | entered task others hpick hawait pooled _ =>
      -- the context is entered, and nobody is about to enter another
      exact .of_holder rfl (others_not_entering hs hpick (by rw [hawait]; rfl))
        (by simp [Task.entering])
  | routed task others hpick pooled hawait =>
      exact .of_holder rfl (others_not_entering hs hpick (by rw [hawait]; rfl))
        (by simp [Task.entering])
  | routingRaised task others hpick _ _ => exact hs.of_leaving rfl hpick rfl fun _ => Or.inl
  | finished task others hpick _ =>
      refine hs.of_leaving rfl hpick (by simp [Await.inLock]) ?_
      intro k hk
      rcases List.mem_cons.mp hk with rfl | hk
      · exact Or.inr rfl
      · exact Or.inl hk
  | popped task others hpick _ hlock _ =>
      exact .of_holder rfl (others_unlocked hlock hpick) (by simp [Task.entering])
  | nothingToPop task others hpick _ _ _ =>
      exact hs.of_leaving rfl hpick (countP_afterRelease task others _ rfl) fun k hk =>
        (mem_afterRelease hk).symm.imp_right fun h => by rw [h]; rfl
  | closed task others hpick _ =>
      exact hs.of_leaving rfl hpick (countP_afterRelease task others _ rfl) fun k hk =>
        (mem_afterRelease hk).symm.imp_right fun h => by rw [h]; rfl
  | scanned task others hpick _ _ =>
      exact hs.of_leaving rfl hpick (countP_afterRelease _ others _ rfl) fun k hk =>
        (mem_afterRelease hk).symm.imp_right fun h => by rw [h]; rfl
  | cancelledOpen task others hpick _ => exact hs.of_leaving rfl hpick rfl fun _ => Or.inl
  | cancelled task others hpick _ => exact hs.of_leaving rfl hpick rfl fun _ => Or.inl

/-! ## What a step does to the slots -/

/-- The slots that a task stands for. -/
def Await.slot : Await → Nat
  | .acquireLock | .newContext | .routeSetup _ | .close => 1
  | _ => 0

/-- A task stands for a slot while it closes or holds a permit. -/
theorem Await.slot_eq (a : Await) :
    a.slot = (if a.closing then 1 else 0) + if a.holdsPermit then 1 else 0 := by
  cases a <;> rfl

/-- The slots that tasks stand for. -/
def occupied (tasks : List Task) : Nat :=
  tasks.countP (·.awaiting.closing) + tasks.countP (·.awaiting.holdsPermit)

/-- The slots are the contexts, the free permits, and those that tasks stand for. -/
theorem slots_eq (s : State) : slots s = s.contexts.length + s.free + occupied s.tasks := by
  simp only [slots, live, holding, occupied]
  omega

@[simp] theorem occupied_cons (task : Task) (others : List Task) :
    occupied (task :: others) = occupied others + task.awaiting.slot := by
  simp only [occupied, List.countP_cons, Await.slot_eq]
  omega

/-- What the picked task holds is counted apart. -/
theorem occupied_pick {s : State} {id : Nat} {task : Task} {others : List Task}
    (hpick : pickTask s id = some (task, others)) :
    occupied s.tasks = occupied others + task.awaiting.slot := by
  rw [← occupied_cons]
  simp only [occupied, (Parties.pick_perm hpick).countP_eq]

@[simp] theorem occupied_afterRelease (task : Task) (others : List Task) :
    occupied (afterRelease task others) = occupied others := by
  simp only [occupied, countP_afterRelease task others Await.closing rfl,
    countP_afterRelease task others Await.holdsPermit rfl]

/-- Entering a context turns the permit of the `acquire` into a live context. -/
theorem slots_enterContext {s : State} (hs : Inv s) {id : Nat} {task : Task} {others : List Task}
    (hpick : pickTask s id = some (task, others)) (hslot : task.awaiting.slot = 1)
    {pooled : PooledContext} (hentering : task.entering = some pooled.sessionId) :
    slots (enterContext s task others pooled) = slots s := by
  have hnew : hasContext s pooled.sessionId = false :=
    hs.fresh task ((pickTask_mem hpick).mpr (Or.inl rfl)) _ hentering
  have hclient : Await.client.slot = 0 := rfl
  rw [slots_eq, slots_eq, occupied_pick hpick, hslot]
  simp only [enterContext, length_setContext hnew, occupied_cons, hclient]
  omega

/-- A cancellation keeps the slots just if the task held none. -/
theorem slotKept_cancel {s : State} {id : Nat} {task : Task} {others : List Task}
    (hpick : pickTask s id = some (task, others)) :
    SlotKept s (.cancel id) ↔ task.awaiting.slot = 0 := by
  have hslot : task.awaiting.slot = 0 ↔
      task.awaiting.holdsPermit = false ∧ task.awaiting.closing = false := by
    cases task.awaiting <;> simp [Await.slot, Await.holdsPermit, Await.closing]
  rw [hslot]
  constructor
  · intro hkept
    exact hkept task others hpick
  · intro hawait task' others' hpick'
    rw [hpick] at hpick'
    obtain ⟨rfl, rfl⟩ := Prod.mk.inj (Option.some.inj hpick')
    exact hawait

/-- A step keeps the slots in balance exactly when it meets `SlotKept`. -/
theorem slots_step_iff {settings : Settings} {s t : State} {l : Label} (hs : Inv s)
    (h : step settings s l = some t) : slots t = slots s ↔ SlotKept s l := by
  cases step_move h with
  | spawned task hawait hlabel =>
      -- the new task waits and holds no slot
      have hslot : task.awaiting.slot = 0 := by
        rcases hawait with h | h | h <;> rw [h] <;> rfl
      have hkept : SlotKept s l := by
        rcases hlabel with ⟨_, _, _, rfl⟩ | ⟨_, _, rfl⟩ | ⟨_, rfl⟩ <;> trivial
      refine iff_of_true ?_ hkept
      rw [slots_eq, slots_eq, occupied_cons, hslot]
      rfl
  | granted task others hpick hawait hfree =>
      refine iff_of_true ?_ trivial
      rw [slots_eq, slots_eq, occupied_pick hpick, occupied_cons, hawait]
      simp only [Await.slot]
      omega
  | reused task others hpick hawait _ _ =>
      refine iff_of_true ?_ trivial
      rw [slots_eq, slots_eq, occupied_pick hpick, occupied_cons, hawait, length_mapSession]
      simp only [Await.slot]
      omega
  | creating task others hpick hawait _ _ =>
      refine iff_of_true ?_ trivial
      rw [slots_eq, slots_eq, occupied_pick hpick, occupied_cons, hawait]
      rfl
  | notStarted task others hpick hawait _ _ =>
      -- the slot is given back before the error leaves
      refine iff_of_true ?_ trivial
      rw [slots_eq, slots_eq, occupied_pick hpick, hawait]
      simp only [Await.slot]
      omega
  | creationRaised task others hpick hawait =>
      -- the permit is gone
      refine iff_of_false ?_ (by simp [SlotKept])
      rw [slots_eq, slots_eq, occupied_pick hpick, hawait]
      simp [Await.slot]
  | downloadDirRaised task others hpick hawait =>
      -- the context stays open and no table knows of it
      refine iff_of_false ?_ (by simp [SlotKept])
      rw [slots_eq, slots_eq, occupied_pick hpick, hawait]
      simp [Await.slot]
  | routing task others hpick hawait pooled _ =>
      refine iff_of_true ?_ rfl
      rw [slots_eq, slots_eq, occupied_pick hpick, occupied_cons, hawait]
      rfl
  | entered task others hpick hawait pooled hpooled =>
      refine iff_of_true (slots_enterContext hs hpick (by rw [hawait]; rfl) ?_) rfl
      simp [Task.entering, hawait, hpooled]
  | routed task others hpick pooled hawait =>
      refine iff_of_true (slots_enterContext hs hpick (by rw [hawait]; rfl) ?_) rfl
      simp [Task.entering, hawait]
  | routingRaised task others hpick pooled hawait =>
      -- so it does here, after the context has taken the slot
      refine iff_of_false ?_ (by simp [SlotKept])
      rw [slots_eq, slots_eq, occupied_pick hpick, hawait]
      simp [Await.slot]
  | finished task others hpick hawait =>
      refine iff_of_true ?_ trivial
      rw [slots_eq, slots_eq, occupied_pick hpick, occupied_cons, hawait]
      rfl
  | popped task others hpick hawait _ hhas =>
      -- the slot goes from the context to the task that closes it
      have hlen := length_popContext hhas
      refine iff_of_true ?_ ?_
      · rw [slots_eq, slots_eq, occupied_pick hpick, occupied_cons, hawait]
        simp only [Await.slot]
        omega
      · intro task' others' hpick'
        rw [hpick] at hpick'
        obtain ⟨rfl, rfl⟩ := Prod.mk.inj (Option.some.inj hpick')
        exact hhas
  | nothingToPop task others hpick hawait _ hhas =>
      -- a permit comes back that no context held
      refine iff_of_false ?_ ?_
      · rw [slots_eq, slots_eq, occupied_pick hpick, occupied_afterRelease, hawait]
        simp only [Await.slot]
        omega
      · intro hkept
        rw [hkept task others hpick] at hhas
        exact absurd hhas (by simp)
  | closed task others hpick hawait =>
      refine iff_of_true ?_ trivial
      rw [slots_eq, slots_eq, occupied_pick hpick, occupied_afterRelease, hawait]
      simp only [Await.slot]
      omega
  | scanned task others hpick hawait _ =>
      refine iff_of_true ?_ trivial
      rw [slots_eq, slots_eq, occupied_pick hpick, occupied_afterRelease, hawait]
      rfl
  | cancelledOpen task others hpick hawait =>
      -- a task cancelled while it opens or closes takes its slot with it
      have hslot : task.awaiting.slot = 1 := by
        cases ha : task.awaiting <;> simp_all [Await.closing, Await.opening, Await.slot]
      rw [slotKept_cancel hpick, hslot, slots_eq, slots_eq, occupied_pick hpick, hslot]
      refine iff_of_false ?_ (by decide)
      dsimp only
      omega
  | cancelled task others hpick hawait =>
      -- a slot is lost exactly if the task held one
      rw [slotKept_cancel hpick, slots_eq, slots_eq, occupied_pick hpick]
      dsimp only
      omega

/-! ## Every run -/

/-- Outside the steps that lose a slot no context is orphaned. -/
theorem step_orphans {settings : Settings} {s t : State} {l : Label} (hC : SlotKept s l)
    (h : step settings s l = some t) : t.orphans = s.orphans := by
  cases step_move h with
  | downloadDirRaised => exact absurd hC (by simp [SlotKept])
  | routingRaised => exact absurd hC (by simp [SlotKept])
  | cancelledOpen task others hpick hawait =>
      have hslot := (slotKept_cancel hpick).mp hC
      cases ha : task.awaiting <;> simp_all [Await.closing, Await.opening, Await.slot]
  | _ => rfl

/-- Whoever opens a context holds a permit. -/
theorem opening_le_holding (s : State) :
    s.tasks.countP (·.awaiting.opening) ≤ holding s := by
  refine List.countP_mono_left fun k _ hk => ?_
  cases ha : k.awaiting <;> simp_all [Await.opening, Await.holdsPermit]

/-- In every state of a run the slots are accounted for and the browser is
within its limit, exactly when every `release` of the run finds a context and
no `acquire` or `release` that stands for a slot fails or is cancelled. -/
theorem slots_accounted_iff {settings : Settings} {browser : Bool} {tr : List Label} {s : State}
    (h : run settings browser tr = some s) :
    (∀ before after u, tr = before ++ after → run settings browser before = some u →
        Accounted settings u) ↔
      Runs.Along (step settings) SlotKept (init settings browser) tr := by
  have hbalance := Runs.always_iff_along (I := Inv) (C := SlotKept)
    (P := fun u => slots u = settings.maxSize) (fun _ _ _ hs hl => step_inv hs hl)
    (fun s l t hs hP hl => by rw [← hP]; exact slots_step_iff hs hl)
    (init_inv settings browser) (by simp [slots, live, holding, init]) h
  constructor
  · intro hall
    refine hbalance.mp ?_
    intro before after u heq hu
    exact (hall before after u heq hu).1
  · intro hC before after u heq hu
    have hu' := hbalance.mpr hC before after u heq hu
    have horphans : u.orphans = 0 :=
      Runs.always_of_along (I := fun u => u.orphans = 0)
        (fun _ _ _ h0 hC hl => (step_orphans hC hl).trans h0) rfl hC before after u heq hu
    refine ⟨hu', ?_⟩
    have hopening := opening_le_holding u
    simp only [slots, opened] at hu' ⊢
    omega

/-- A pool of one slot, with the default idle timeout. -/
def oneSlot : Settings :=
  { maxSize := 1, idleTimeout := 300, blockResources := true }

/-- The steps of an `acquire` for a new session that goes well. -/
def acquireOk (id now : Nat) (sessionId : String) : List Label :=
  [.acquire id sessionId true, .permit id, .enterAcquire id now, .contextCreated id now .returns,
   .routed id true]

/-- The idle cleanup closes the context of a client that is still at work; the
client releases the session as well, and two more sessions are acquired. -/
def releasedTwice : List Label :=
  acquireOk 1 0 "first" ++
    [.cleanup 2, .scan 2 301, .enterRelease 2, .closed 2, .finish 1, .enterRelease 1] ++
    acquireOk 3 302 "second" ++ acquireOk 4 303 "third"

/-- Two contexts are open in a pool of one slot. -/
theorem releasedTwice_over_limit :
    ∃ s, run oneSlot true releasedTwice = some s ∧ ¬ Accounted oneSlot s ∧ opened s = 2 := by
  refine ⟨_, rfl, ?_, by decide⟩
  intro haccounted
  exact absurd haccounted.1 (by decide)

/-- The same client with no cleanup in between. -/
theorem acquire_release_accounted :
    ∃ s, run oneSlot true (acquireOk 1 0 "first" ++ [.finish 1, .enterRelease 1, .closed 1]) =
      some s ∧ Accounted oneSlot s := by
  have hrun : run oneSlot true (acquireOk 1 0 "first" ++ [.finish 1, .enterRelease 1, .closed 1]) =
      some (init oneSlot true) := rfl
  refine ⟨_, hrun, (slots_accounted_iff hrun).mpr ?_ _ [] _ (List.append_nil _).symm hrun⟩
  refine ⟨trivial, trivial, trivial, rfl, rfl, trivial, ?_, trivial, trivial⟩
  intro task others hpick
  cases hpick
  rfl

end Plaidify.BrowserPool
