import Plaidify.Lib.Parties
import Plaidify.Lib.Runs

/-!
# The browser pool

`BrowserPool` of `src/src/core/browser_pool.py` as the tasks of the event loop
see it. A task runs without interruption from one `await` to the next, so a
step is what happens between two of them: waiting for the semaphore, waiting
for `_lock`, `new_context`, the route setup, the closing of a context. The
label of a step says which task goes on and what it was answered.

`_execute_blueprint` of `src/src/core/engine.py` is a client: it acquires a
session, works with it, and releases it in its `finally` block.
-/

namespace Plaidify.BrowserPool

/-- The settings that the accounting depends on. -/
structure Settings where
  /-- `_max_size`. -/
  maxSize : Nat
  /-- `_idle_timeout`, in seconds. -/
  idleTimeout : Nat
  /-- `_block_resources`. -/
  blockResources : Bool

/-- A browser context managed by the pool. -/
structure PooledContext where
  sessionId : String
  readOnlyPolicy : Bool
  lastUsed : Nat
deriving Repr, DecidableEq

/-- Where a task waits. -/
inductive Await where
  /-- `acquire`, before `_semaphore.acquire()` returns. -/
  | semaphore
  /-- `acquire`, with a permit, before it has the lock. -/
  | acquireLock
  /-- `acquire`, in the lock, in `new_context`. -/
  | newContext
  /-- `acquire`, in the lock, in `context.route`. -/
  | routeSetup (pooled : PooledContext)
  /-- The client works with the context it acquired. -/
  | client
  /-- `release`, before it has the lock. -/
  | releaseLock
  /-- `release`, in the lock, in `context.close`. -/
  | close
  /-- `_cleanup_idle`, before it has the lock. -/
  | cleanupLock
deriving Repr, DecidableEq

/-- A task. `toRemove` is what `_cleanup_idle` has still to release. -/
structure Task where
  id : Nat
  sessionId : String
  readOnlyPolicy : Bool
  awaiting : Await
  toRemove : List String
deriving Repr, DecidableEq

/-- The pool and the tasks that use it. `orphans` counts the contexts that no
task holds, that are not in `_contexts`, and that nobody closed. -/
structure State where
  /-- `_browser` is set. -/
  browser : Bool
  /-- The semaphore's free permits. -/
  free : Nat
  contexts : List PooledContext
  tasks : List Task
  orphans : Nat
deriving Repr, DecidableEq

/-- `__init__`, and `start` when `browser` is set. -/
def init (settings : Settings) (browser : Bool) : State :=
  { browser, free := settings.maxSize, contexts := [], tasks := [], orphans := 0 }

/-- What `new_context` and the creation of the download directory answer. -/
inductive NewContext where
  | returns
  | raises
  /-- The context is open, `_ensure_download_dir` raises. -/
  | downloadDirRaises
deriving Repr, DecidableEq

inductive Label where
  /-- A client calls `acquire`. -/
  | acquire (id : Nat) (sessionId : String) (readOnlyPolicy : Bool)
  /-- The semaphore grants a permit. -/
  | permit (id : Nat)
  /-- `acquire` gets the lock. -/
  | enterAcquire (id now : Nat)
  | contextCreated (id now : Nat) (answer : NewContext)
  | routed (id : Nat) (returns : Bool)
  /-- The client is done and calls `release`, as the engine's `finally` does. -/
  | finish (id : Nat)
  /-- A `release` call on its own. -/
  | release (id : Nat) (sessionId : String)
  /-- `release` gets the lock. -/
  | enterRelease (id : Nat)
  /-- `context.close` returns or raises an `Exception`, which is only logged. -/
  | closed (id : Nat)
  /-- A turn of the cleanup loop. -/
  | cleanup (id : Nat)
  /-- `_cleanup_idle` gets the lock and collects the idle sessions. -/
  | scan (id now : Nat)
  /-- The task is cancelled where it waits. -/
  | cancel (id : Nat)
deriving Repr, DecidableEq

/-! ## Operations -/

/-- The task is between entering and leaving `async with self._lock`. -/
def Await.inLock : Await → Bool
  | .newContext | .routeSetup _ | .close => true
  | _ => false

/-- An `acquire` that holds a permit. -/
def Await.holdsPermit : Await → Bool
  | .acquireLock | .newContext | .routeSetup _ => true
  | _ => false

/-- A `release` that took its context out and has not closed it yet. -/
def Await.closing : Await → Bool
  | .close => true
  | _ => false

/-- An `acquire` whose context is open but not entered yet. -/
def Await.opening : Await → Bool
  | .routeSetup _ => true
  | _ => false

def locked (s : State) : Bool :=
  s.tasks.any (·.awaiting.inLock)

/-- `session_id in self._contexts`. -/
def hasContext (s : State) (sessionId : String) : Bool :=
  s.contexts.any (·.sessionId == sessionId)

/-- `touch`, and the new policy when there is one. -/
def PooledContext.reuse (readOnlyPolicy : Bool) (now : Nat) (c : PooledContext) : PooledContext :=
  { c with lastUsed := now, readOnlyPolicy := readOnlyPolicy || c.readOnlyPolicy }

/-- The contexts with those of a session changed. -/
def mapSession (f : PooledContext → PooledContext) (sessionId : String)
    (contexts : List PooledContext) : List PooledContext :=
  contexts.map fun c => if c.sessionId = sessionId then f c else c

/-- `self._contexts[session_id] = pooled`. -/
def setContext (pooled : PooledContext) (contexts : List PooledContext) : List PooledContext :=
  if contexts.any (·.sessionId == pooled.sessionId) then
    mapSession (fun _ => pooled) pooled.sessionId contexts
  else contexts ++ [pooled]

/-- `self._contexts.pop(session_id, None)`. -/
def popContext (sessionId : String) (contexts : List PooledContext) : List PooledContext :=
  contexts.eraseP (·.sessionId == sessionId)

/-- `idle_seconds > self._idle_timeout`. -/
def idle (settings : Settings) (now : Nat) (c : PooledContext) : Bool :=
  decide (settings.idleTimeout < now - c.lastUsed)

/-- What a task does when its `release` returned: `_cleanup_idle` goes on with
the next session, any other task is done. -/
def afterRelease (task : Task) (others : List Task) : List Task :=
  match task.toRemove with
  | [] => others
  | sessionId :: rest =>
      { task with sessionId, toRemove := rest, awaiting := .releaseLock } :: others

/-- The end of `acquire`: the context is entered and the client goes on. -/
def enterContext (s : State) (task : Task) (others : List Task) (pooled : PooledContext) : State :=
  { s with contexts := setContext pooled s.contexts,
           tasks := { task with awaiting := .client } :: others }

/-- The task with this id and the other tasks. -/
def pickTask (s : State) (id : Nat) : Option (Task × List Task) :=
  Parties.pick (·.id == id) s.tasks

/-- A new task, under an id that is not in use. -/
def spawn (s : State) (task : Task) : Option State :=
  if s.tasks.any (·.id == task.id) then none else some { s with tasks := task :: s.tasks }

/-- One step of one task. -/
def step (settings : Settings) (s : State) : Label → Option State
  | .acquire id sessionId readOnlyPolicy =>
      spawn s { id, sessionId, readOnlyPolicy, awaiting := .semaphore, toRemove := [] }
  | .release id sessionId =>
      spawn s { id, sessionId, readOnlyPolicy := false, awaiting := .releaseLock, toRemove := [] }
  | .cleanup id =>
      spawn s { id, sessionId := "", readOnlyPolicy := false, awaiting := .cleanupLock,
                toRemove := [] }
  | .permit id => do
      let (task, others) ← pickTask s id
      if task.awaiting = .semaphore ∧ 0 < s.free then
        some { s with free := s.free - 1, tasks := { task with awaiting := .acquireLock } :: others }
      else none
  | .enterAcquire id now => do
      let (task, others) ← pickTask s id
      if task.awaiting = .acquireLock ∧ locked s = false then
        if hasContext s task.sessionId then
          -- the session has its context already: no new slot is used
          some { s with
            free := s.free + 1
            contexts := mapSession (.reuse task.readOnlyPolicy now) task.sessionId s.contexts
            tasks := { task with awaiting := .client } :: others }
        else if s.browser then
          some { s with tasks := { task with awaiting := .newContext } :: others }
        else
          -- `RuntimeError`: the pool is not started
          some { s with free := s.free + 1, tasks := others }
      else none
  | .contextCreated id now answer => do
      let (task, others) ← pickTask s id
      if task.awaiting = .newContext then
        match answer with
        | .raises => some { s with tasks := others }
        | .downloadDirRaises => some { s with tasks := others, orphans := s.orphans + 1 }
        | .returns =>
            let pooled := { sessionId := task.sessionId, readOnlyPolicy := task.readOnlyPolicy,
                            lastUsed := now }
            if settings.blockResources || task.readOnlyPolicy then
              some { s with tasks := { task with awaiting := .routeSetup pooled } :: others }
            else some (enterContext s task others pooled)
      else none
  | .routed id returns => do
      let (task, others) ← pickTask s id
      match task.awaiting with
      | .routeSetup pooled =>
          if returns then some (enterContext s task others pooled)
          else some { s with tasks := others, orphans := s.orphans + 1 }
      | _ => none
  | .finish id => do
      let (task, others) ← pickTask s id
      if task.awaiting = .client then
        some { s with tasks := { task with awaiting := .releaseLock } :: others }
      else none
  | .enterRelease id => do
      let (task, others) ← pickTask s id
      if task.awaiting = .releaseLock ∧ locked s = false then
        if hasContext s task.sessionId then
          some { s with contexts := popContext task.sessionId s.contexts,
                        tasks := { task with awaiting := .close } :: others }
        else
          -- nothing to close, and still `self._semaphore.release()`
          some { s with free := s.free + 1, tasks := afterRelease task others }
      else none
  | .closed id => do
      let (task, others) ← pickTask s id
      if task.awaiting = .close then
        some { s with free := s.free + 1, tasks := afterRelease task others }
      else none
  | .scan id now => do
      let (task, others) ← pickTask s id
      if task.awaiting = .cleanupLock ∧ locked s = false then
        let toRemove := (s.contexts.filter (idle settings now)).map (·.sessionId)
        some { s with tasks := afterRelease { task with toRemove } others }
      else none
  | .cancel id => do
      let (task, others) ← pickTask s id
      match task.awaiting with
      | .routeSetup _ | .close => some { s with tasks := others, orphans := s.orphans + 1 }
      | _ => some { s with tasks := others }

/-- The state that a run leaves. -/
def run (settings : Settings) (browser : Bool) (tr : List Label) : Option State :=
  Runs.exec (step settings) (init settings browser) tr

/-! ## What a step can do -/

/-- The steps, one constructor for each way a task can go on. -/
inductive Move (settings : Settings) (s : State) : Label → State → Prop
  | spawned {l : Label} (task : Task)
      (hawait : task.awaiting = .semaphore ∨ task.awaiting = .releaseLock ∨
        task.awaiting = .cleanupLock)
      (hlabel : (∃ i x p, l = .acquire i x p) ∨ (∃ i x, l = .release i x) ∨ ∃ i, l = .cleanup i) :
      Move settings s l { s with tasks := task :: s.tasks }
  | granted {id : Nat} (task : Task) (others : List Task)
      (hpick : pickTask s id = some (task, others)) (hawait : task.awaiting = .semaphore)
      (hfree : 0 < s.free) :
      Move settings s (.permit id)
        { s with free := s.free - 1, tasks := { task with awaiting := .acquireLock } :: others }
  | reused {id now : Nat} (task : Task) (others : List Task)
      (hpick : pickTask s id = some (task, others)) (hawait : task.awaiting = .acquireLock)
      (hlock : locked s = false) (hhas : hasContext s task.sessionId = true) :
      Move settings s (.enterAcquire id now)
        { s with
          free := s.free + 1
          contexts := mapSession (.reuse task.readOnlyPolicy now) task.sessionId s.contexts
          tasks := { task with awaiting := .client } :: others }
  | creating {id now : Nat} (task : Task) (others : List Task)
      (hpick : pickTask s id = some (task, others)) (hawait : task.awaiting = .acquireLock)
      (hlock : locked s = false) (hhas : hasContext s task.sessionId = false) :
      Move settings s (.enterAcquire id now)
        { s with tasks := { task with awaiting := .newContext } :: others }
  | notStarted {id now : Nat} (task : Task) (others : List Task)
      (hpick : pickTask s id = some (task, others)) (hawait : task.awaiting = .acquireLock)
      (hlock : locked s = false) (hbrowser : s.browser = false) :
      Move settings s (.enterAcquire id now) { s with free := s.free + 1, tasks := others }
  | creationRaised {id now : Nat} (task : Task) (others : List Task)
      (hpick : pickTask s id = some (task, others)) (hawait : task.awaiting = .newContext) :
      Move settings s (.contextCreated id now .raises) { s with tasks := others }
  | downloadDirRaised {id now : Nat} (task : Task) (others : List Task)
      (hpick : pickTask s id = some (task, others)) (hawait : task.awaiting = .newContext) :
      Move settings s (.contextCreated id now .downloadDirRaises)
        { s with tasks := others, orphans := s.orphans + 1 }
  | routing {id now : Nat} (task : Task) (others : List Task)
      (hpick : pickTask s id = some (task, others)) (hawait : task.awaiting = .newContext)
      (pooled : PooledContext) (hpooled : pooled = ⟨task.sessionId, task.readOnlyPolicy, now⟩) :
      Move settings s (.contextCreated id now .returns)
        { s with tasks := { task with awaiting := .routeSetup pooled } :: others }
  | entered {id now : Nat} (task : Task) (others : List Task)
      (hpick : pickTask s id = some (task, others)) (hawait : task.awaiting = .newContext)
      (pooled : PooledContext) (hpooled : pooled = ⟨task.sessionId, task.readOnlyPolicy, now⟩) :
      Move settings s (.contextCreated id now .returns) (enterContext s task others pooled)
  | routed {id : Nat} (task : Task) (others : List Task)
      (hpick : pickTask s id = some (task, others)) (pooled : PooledContext)
      (hawait : task.awaiting = .routeSetup pooled) :
      Move settings s (.routed id true) (enterContext s task others pooled)
  | routingRaised {id : Nat} (task : Task) (others : List Task)
      (hpick : pickTask s id = some (task, others)) (pooled : PooledContext)
      (hawait : task.awaiting = .routeSetup pooled) :
      Move settings s (.routed id false) { s with tasks := others, orphans := s.orphans + 1 }
  | finished {id : Nat} (task : Task) (others : List Task)
      (hpick : pickTask s id = some (task, others)) (hawait : task.awaiting = .client) :
      Move settings s (.finish id)
        { s with tasks := { task with awaiting := .releaseLock } :: others }
  | popped {id : Nat} (task : Task) (others : List Task)
      (hpick : pickTask s id = some (task, others)) (hawait : task.awaiting = .releaseLock)
      (hlock : locked s = false) (hhas : hasContext s task.sessionId = true) :
      Move settings s (.enterRelease id)
        { s with contexts := popContext task.sessionId s.contexts,
                 tasks := { task with awaiting := .close } :: others }
  | nothingToPop {id : Nat} (task : Task) (others : List Task)
      (hpick : pickTask s id = some (task, others)) (hawait : task.awaiting = .releaseLock)
      (hlock : locked s = false) (hhas : hasContext s task.sessionId = false) :
      Move settings s (.enterRelease id)
        { s with free := s.free + 1, tasks := afterRelease task others }
  | closed {id : Nat} (task : Task) (others : List Task)
      (hpick : pickTask s id = some (task, others)) (hawait : task.awaiting = .close) :
      Move settings s (.closed id) { s with free := s.free + 1, tasks := afterRelease task others }
  | scanned {id now : Nat} (task : Task) (others : List Task)
      (hpick : pickTask s id = some (task, others)) (hawait : task.awaiting = .cleanupLock)
      (hlock : locked s = false) :
      Move settings s (.scan id now)
        { s with tasks := afterRelease { task with
            toRemove := (s.contexts.filter (idle settings now)).map (·.sessionId) } others }
  | cancelledOpen {id : Nat} (task : Task) (others : List Task)
      (hpick : pickTask s id = some (task, others))
      (hawait : task.awaiting.closing = true ∨ task.awaiting.opening = true) :
      Move settings s (.cancel id) { s with tasks := others, orphans := s.orphans + 1 }
  | cancelled {id : Nat} (task : Task) (others : List Task)
      (hpick : pickTask s id = some (task, others))
      (hawait : task.awaiting.closing = false ∧ task.awaiting.opening = false) :
      Move settings s (.cancel id) { s with tasks := others }

theorem spawn_eq_some {s t : State} {task : Task} (h : spawn s task = some t) :
    t = { s with tasks := task :: s.tasks } := by
  unfold spawn at h
  split at h
  · exact absurd h (by simp)
  · exact (Option.some.inj h).symm

/-- Every step is one of the moves. -/
theorem step_move {settings : Settings} {s t : State} {l : Label}
    (h : step settings s l = some t) : Move settings s l t := by
  cases l with
  | acquire id sessionId readOnlyPolicy =>
      obtain rfl := spawn_eq_some h
      exact .spawned _ (Or.inl rfl) (Or.inl ⟨_, _, _, rfl⟩)
  | release id sessionId =>
      obtain rfl := spawn_eq_some h
      exact .spawned _ (Or.inr (Or.inl rfl)) (Or.inr (Or.inl ⟨_, _, rfl⟩))
  | cleanup id =>
      obtain rfl := spawn_eq_some h
      exact .spawned _ (Or.inr (Or.inr rfl)) (Or.inr (Or.inr ⟨_, rfl⟩))
  | permit id =>
      obtain ⟨⟨task, others⟩, hpick, h⟩ := Option.bind_eq_some_iff.mp h
      -- the semaphore has a slot
      obtain ⟨⟨hawait, hfree⟩, h⟩ := Option.ite_none_right_eq_some.mp h
      obtain rfl := Option.some.inj h
      exact .granted task others hpick hawait hfree
  | enterAcquire id now =>
      obtain ⟨⟨task, others⟩, hpick, h⟩ := Option.bind_eq_some_iff.mp h
      -- the lock is held for the look at the contexts
      obtain ⟨⟨hawait, hlock⟩, h⟩ := Option.ite_none_right_eq_some.mp h
      split at h
      · rename_i hhas
        obtain rfl := Option.some.inj h
        exact .reused task others hpick hawait hlock hhas
      · -- no context of this session: the browser is asked for one
        rename_i hhas
        split at h
        · obtain rfl := Option.some.inj h
          exact .creating task others hpick hawait hlock (by simpa using hhas)
        · rename_i hbrowser
          obtain rfl := Option.some.inj h
          exact .notStarted task others hpick hawait hlock (by simpa using hbrowser)
  | contextCreated id now answer =>
      obtain ⟨⟨task, others⟩, hpick, h⟩ := Option.bind_eq_some_iff.mp h
      obtain ⟨hawait, h⟩ := Option.ite_none_right_eq_some.mp h
      cases answer with
      | raises =>
          obtain rfl := Option.some.inj h
          exact .creationRaised task others hpick hawait
      | downloadDirRaises =>
          obtain rfl := Option.some.inj h
          exact .downloadDirRaised task others hpick hawait
      | returns =>
          -- blocked resources and a read-only policy need a route first
          dsimp only at h
          split at h
          · obtain rfl := Option.some.inj h
            exact .routing task others hpick hawait _ rfl
          · obtain rfl := Option.some.inj h
            exact .entered task others hpick hawait _ rfl
  | routed id returns =>
      obtain ⟨⟨task, others⟩, hpick, h⟩ := Option.bind_eq_some_iff.mp h
      dsimp only at h
      split at h
      · rename_i pooled hawait
        cases returns with
        | true =>
            obtain rfl := Option.some.inj h
            exact .routed task others hpick pooled hawait
        | false =>
            obtain rfl := Option.some.inj h
            exact .routingRaised task others hpick pooled hawait
      · -- nothing else waits for a route
        exact absurd h (by simp)
  | finish id =>
      obtain ⟨⟨task, others⟩, hpick, h⟩ := Option.bind_eq_some_iff.mp h
      obtain ⟨hawait, h⟩ := Option.ite_none_right_eq_some.mp h
      obtain rfl := Option.some.inj h
      exact .finished task others hpick hawait
  | enterRelease id =>
      obtain ⟨⟨task, others⟩, hpick, h⟩ := Option.bind_eq_some_iff.mp h
      obtain ⟨⟨hawait, hlock⟩, h⟩ := Option.ite_none_right_eq_some.mp h
      split at h
      · -- a context of this session is closed
        rename_i hhas
        obtain rfl := Option.some.inj h
        exact .popped task others hpick hawait hlock hhas
      · -- the session has none
        rename_i hhas
        obtain rfl := Option.some.inj h
        exact .nothingToPop task others hpick hawait hlock (by simpa using hhas)
  | closed id =>
      obtain ⟨⟨task, others⟩, hpick, h⟩ := Option.bind_eq_some_iff.mp h
      obtain ⟨hawait, h⟩ := Option.ite_none_right_eq_some.mp h
      obtain rfl := Option.some.inj h
      exact .closed task others hpick hawait
  | scan id now =>
      obtain ⟨⟨task, others⟩, hpick, h⟩ := Option.bind_eq_some_iff.mp h
      obtain ⟨⟨hawait, hlock⟩, h⟩ := Option.ite_none_right_eq_some.mp h
      obtain rfl := Option.some.inj h
      exact .scanned task others hpick hawait hlock
  | cancel id =>
      obtain ⟨⟨task, others⟩, hpick, h⟩ := Option.bind_eq_some_iff.mp h
      dsimp only at h
      -- what a cancelled task leaves behind depends on where it waited
      split at h
      · rename_i pooled hawait
        obtain rfl := Option.some.inj h
        exact .cancelledOpen task others hpick (Or.inr (by rw [hawait]; rfl))
      · rename_i hawait
        obtain rfl := Option.some.inj h
        exact .cancelledOpen task others hpick (Or.inl (by rw [hawait]; rfl))
      · -- anywhere else nothing is open
        rename_i hroute hclose
        obtain rfl := Option.some.inj h
        refine .cancelled task others hpick ⟨?_, ?_⟩
        · cases hawait : task.awaiting <;> simp_all [Await.closing]
        · cases hawait : task.awaiting <;> simp_all [Await.opening]

end Plaidify.BrowserPool
