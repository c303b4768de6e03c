import Plaidify.HostedLink.Widget

/-!
# What the host is told of a message

A message that passes the tests of `_onMessage` has a list of callbacks. However the
callbacks of several messages nest, and whatever they do to the widget, each message gets
its callbacks in their order and once; they stop short only where an exception of the
host goes through the handler. A message that fails a test, or comes when the widget does
not listen, gets none.
-/

namespace Plaidify.HostedLink.Widget

/-- The callbacks that are due to the message of this number. -/
def script (serverOrigin : String) (s : State) (n : Nat) : List Callback :=
  match s.events[n]? with
  | some (event, true) =>
      if accepts serverOrigin event then callbacks (messageTasks event.data) else []
  | _ => []

/-- A callback that was called for the message of this number. -/
def Entry.callOf? (n : Nat) : Entry → Option Callback
  | .called (.message m) callback => if m = n then some callback else none
  | _ => none

/-- The callbacks that were called for a message. -/
def callsOf (history : List Entry) (n : Nat) : List Callback :=
  history.filterMap (Entry.callOf? n)

/-- The message whose handler waits. -/
def Continuation.message? (k : Continuation) : Option Nat :=
  match k.cause with
  | .message n => some n
  | _ => none

/-- The messages whose handlers wait, innermost first. -/
def handling (stack : List (Option Continuation)) : List Nat :=
  stack.filterMap fun k => k.bind Continuation.message?

/-- What the host was told of a message is what is due to it, up to what still waits and
what an exception cut off. -/
structure Relayed (serverOrigin : String) (s : State) : Prop where
  distinct : (handling s.stack).Nodup
  known : ∀ n ∈ handling s.stack, n < s.events.length
  waiting : ∀ n rest, some ⟨.message n, rest⟩ ∈ s.stack →
    callsOf s.history n ++ callbacks rest = script serverOrigin s n
  done : ∀ n, n ∉ handling s.stack → callsOf s.history n = script serverOrigin s n ∨
    Cause.message n ∈ s.broken ∧ callsOf s.history n <+: script serverOrigin s n

variable {serverOrigin : String} {s t : State} {cause : Cause} {tasks : List Task}

@[simp] theorem callsOf_append (h h' : List Entry) (n : Nat) :
    callsOf (h ++ h') n = callsOf h n ++ callsOf h' n := List.filterMap_append

theorem mem_handling {stack : List (Option Continuation)} {n : Nat} :
    n ∈ handling stack ↔ ∃ rest, some ⟨.message n, rest⟩ ∈ stack := by
  constructor
  · intro h
    obtain ⟨k, hk, hn⟩ := List.mem_filterMap.mp h
    obtain ⟨⟨cause, rest⟩, rfl, hmessage⟩ := Option.bind_eq_some_iff.mp hn
    cases cause with
    | lifecycle | click => cases hmessage
    | message m =>
      obtain rfl := Option.some.inj hmessage
      exact ⟨rest, hk⟩
  · rintro ⟨rest, h⟩
    exact List.mem_filterMap.mpr ⟨_, h, rfl⟩

/-- Nothing but the calls, the events, the stack and the broken handlers matters. -/
theorem Relayed.congr (h : Relayed serverOrigin s) (hstack : t.stack = s.stack)
    (hevents : t.events = s.events) (hcalls : ∀ n, callsOf t.history n = callsOf s.history n)
    (hbroken : t.broken = s.broken) : Relayed serverOrigin t := by
  have hscript : ∀ n, script serverOrigin t n = script serverOrigin s n := fun n => by
    rw [script, hevents, script]
  constructor
  · rw [hstack]
    exact h.distinct
  · rw [hstack, hevents]
    exact h.known
  · rw [hstack]
    intro n rest hmem
    rw [hcalls, hscript]
    exact h.waiting n rest hmem
  · rw [hstack, hbroken]
    intro n hn
    rw [hcalls, hscript]
    exact h.done n hn

/-- A handler without callbacks left comes to its end. -/
theorem Relayed.pop {stack : List (Option Continuation)}
    (h : Relayed serverOrigin { s with stack := some ⟨cause, tasks⟩ :: stack })
    (hrest : callbacks tasks = []) : Relayed serverOrigin { s with stack := stack } := by
  have hsub : (handling stack).Sublist (handling (some ⟨cause, tasks⟩ :: stack)) :=
    (List.sublist_cons_self _ _).filterMap _
  refine ⟨h.distinct.sublist hsub, fun n hn => h.known n (hsub.subset hn), ?_, ?_⟩
  · exact fun n rest hmem => h.waiting n rest (List.mem_cons_of_mem _ hmem)
  · intro n hn
    by_cases hcause : cause = .message n
    · left
      subst hcause
      have hwaiting := h.waiting n tasks List.mem_cons_self
      rwa [hrest, List.append_nil] at hwaiting
    · refine h.done n fun hmem => ?_
      obtain ⟨rest, hmem⟩ := mem_handling.mp hmem
      rcases List.mem_cons.mp hmem with heq | hmem
      · exact hcause (congrArg Continuation.cause (Option.some.inj heq)).symm
      · exact hn (mem_handling.mpr ⟨rest, hmem⟩)

/-- What waits on top goes on to its next callbacks. -/
theorem Relayed.advance {rest : List Task} {made : List Callback}
    (h : Relayed serverOrigin { s with stack := some ⟨cause, tasks⟩ :: s.stack })
    (htasks : callbacks tasks = made ++ callbacks rest)
    (hstack : t.stack = some ⟨cause, rest⟩ :: s.stack) (hevents : t.events = s.events)
    (hcalls : ∀ n, callsOf t.history n =
      callsOf s.history n ++ if cause = .message n then made else [])
    (hbroken : t.broken = s.broken) : Relayed serverOrigin t := by
  have hscript : ∀ n, script serverOrigin t n = script serverOrigin s n := fun n => by
    rw [script, hevents, script]
  have hhandling : handling t.stack = handling (some ⟨cause, tasks⟩ :: s.stack) := by
    rw [hstack, handling, List.filterMap_cons, handling, List.filterMap_cons]
    rfl
  have hother : ∀ n, cause ≠ .message n → callsOf t.history n = callsOf s.history n := by
    intro n hcause
    rw [hcalls, if_neg hcause, List.append_nil]
  constructor
  · rw [hhandling]
    exact h.distinct
  · rw [hhandling, hevents]
    exact h.known
  · intro n rest' hmem
    rw [hstack] at hmem
    rw [hscript]
    rcases List.mem_cons.mp hmem with heq | hbelow
    · obtain ⟨rfl, rfl⟩ := Continuation.mk.inj (Option.some.inj heq)
      rw [hcalls, if_pos rfl, List.append_assoc, ← htasks]
      exact h.waiting n tasks List.mem_cons_self
    · have hcause : cause ≠ .message n := by
        -- no message is handled twice, so what waits below belongs to another one
        rintro rfl
        have hnodup := h.distinct
        rw [handling, List.filterMap_cons] at hnodup
        exact (List.nodup_cons.mp hnodup).1 (mem_handling.mpr ⟨rest', hbelow⟩)
      rw [hother n hcause]
      exact h.waiting n rest' (List.mem_cons_of_mem _ hbelow)
  · intro n hn
    rw [hhandling] at hn
    rw [hscript, hbroken, hother]
    · exact h.done n hn
    · rintro rfl
      exact hn (mem_handling.mpr ⟨tasks, List.mem_cons_self⟩)

theorem callsOf_called (c : Cause) (callback : Callback) (n : Nat) :
    callsOf [.called c callback] n = if c = .message n then [callback] else [] := by
  cases c with
  | lifecycle | click => rfl
  | message m =>
    by_cases hm : m = n
    · subst hm
      simp [callsOf, Entry.callOf?]
    · simp [callsOf, Entry.callOf?, hm]

/-- The widget's own code calls what is due. -/
theorem run_relayed
    (h : Relayed serverOrigin { s with stack := some ⟨cause, tasks⟩ :: s.stack }) :
    Relayed serverOrigin (run cause tasks s) := by
  induction tasks generalizing s with
  | nil => exact h.pop rfl
  | cons task rest ih =>
    cases task with
    | call callback =>
      have hmade : callbacks (.call callback :: rest) = [callback] ++ callbacks rest := rfl
      refine h.advance hmade rfl rfl ?_ rfl
      intro n
      show callsOf (s.history ++ [.called cause callback]) n = _
      rw [callsOf_append, callsOf_called]
    | close =>
      have hrest : callbacks (.close :: rest) = [] ++ callbacks rest := rfl
      rw [run]
      split
      · -- `CLOSE` is announced for the method, whatever message it was closed for
        refine h.advance hrest rfl rfl ?_ rfl
        intro n
        show callsOf ((s.history ++ [.phase .closed]) ++ [.called .lifecycle _]) n = _
        rw [callsOf_append, callsOf_append, callsOf_called]
        simp [callsOf, Entry.callOf?]
      · exact ih (h.advance hrest rfl rfl (by simp) rfl)
    | closeLater =>
      have hrest : callbacks (.closeLater :: rest) = [] ++ callbacks rest := rfl
      exact ih (h.advance hrest rfl rfl (by simp) rfl)
    | markDestroyed =>
      have hrest : callbacks (.markDestroyed :: rest) = [] ++ callbacks rest := rfl
      exact ih (h.advance hrest rfl rfl (by simp) rfl)

/-- What is no handler of a message begins to wait. -/
theorem Relayed.push (h : Relayed serverOrigin s) {k : Option Continuation}
    (hk : k.bind Continuation.message? = none) :
    Relayed serverOrigin { s with stack := k :: s.stack } := by
  have hhandling : handling (k :: s.stack) = handling s.stack := by
    unfold handling
    exact List.filterMap_cons_none hk
  constructor
  · exact hhandling ▸ h.distinct
  · exact hhandling ▸ h.known
  · intro n rest hmem
    refine h.waiting n rest ((List.mem_cons.mp hmem).resolve_left ?_)
    rintro rfl
    cases hk
  · exact fun n hn => h.done n (hhandling ▸ hn)

theorem Relayed.start (h : Relayed serverOrigin s) (hcause : ∀ n, cause ≠ .message n) :
    Relayed serverOrigin (run cause tasks s) := by
  refine run_relayed (h.push ?_)
  cases cause with
  | lifecycle | click => rfl
  | message n => exact absurd rfl (hcause n)

theorem openWidget_relayed (h : Relayed serverOrigin s) : Relayed serverOrigin (openWidget s) := by
  have hphase : ∀ p n, callsOf (s.history ++ [.phase p]) n = callsOf s.history n := fun p n => by
    rw [callsOf_append]
    exact List.append_nil _
  unfold openWidget
  split
  · exact h
  · split
    · exact h
    · split
      · exact h.congr rfl rfl (hphase .failed) rfl
      · refine Relayed.start ?_ (by simp)
        exact h.congr rfl rfl (hphase .opened) rfl

theorem callsOf_length (h : Relayed serverOrigin s) {n : Nat} (hn : s.events.length ≤ n) :
    callsOf s.history n = [] := by
  have hscript : script serverOrigin s n = [] := by
    rw [script, List.getElem?_eq_none hn]
  have hidle : n ∉ handling s.stack := fun hmem => absurd (h.known n hmem) (by omega)
  rcases h.done n hidle with hcalls | ⟨-, hcalls⟩
  · rw [hcalls, hscript]
  · rw [hscript] at hcalls
    exact List.prefix_nil.mp hcalls

/-- A message gets the next number. -/
theorem receive_relayed (h : Relayed serverOrigin s) (event : MessageEvent) :
    Relayed serverOrigin (receive serverOrigin s event) := by
  -- the new message has called nothing back
  have hnone := callsOf_length h (Nat.le_refl s.events.length)
  -- what the others are to call back stays
  have hold : ∀ u : State, u.events = s.events ++ [(event, s.listening)] →
      ∀ n, n ≠ s.events.length → script serverOrigin u n = script serverOrigin s n := by
    intro u hu n hn
    rw [script, hu, script]
    rcases Nat.lt_or_ge n s.events.length with hlt | hge
    · rw [List.getElem?_append_left hlt]
    · have hlast : (s.events ++ [(event, s.listening)]).length ≤ n := by
        simp only [List.length_append, List.length_singleton]
        omega
      rw [List.getElem?_eq_none hlast, List.getElem?_eq_none hge]
  -- what it is to call back itself
  have hnew : ∀ u : State, u.events = s.events ++ [(event, s.listening)] →
      script serverOrigin u s.events.length =
        if s.listening && accepts serverOrigin event then callbacks (messageTasks event.data)
        else [] := by
    intro u hu
    rw [script, hu, List.getElem?_concat_length]
    cases s.listening <;> simp
  -- no handler is running for it yet
  have hidle : ∀ n ∈ handling s.stack, n ≠ s.events.length := fun n hn =>
    Nat.ne_of_lt (h.known n hn)
  unfold receive
  dsimp only
  split
  · next haccepted =>
    -- its handler begins as one that waits for all the callbacks that are due
    refine run_relayed ⟨?_, ?_, ?_, ?_⟩
    · -- distinct
      refine List.nodup_cons.mpr ⟨fun hmem => hidle _ hmem rfl, h.distinct⟩
    · -- known
      intro n hn
      rw [List.length_append, List.length_singleton]
      rcases List.mem_cons.mp hn with rfl | hn
      · omega
      · have := h.known n hn
        omega
    · -- waiting
      intro n rest hmem
      rcases List.mem_cons.mp hmem with heq | hmem
      · obtain ⟨hcause, rfl⟩ := Continuation.mk.inj (Option.some.inj heq)
        obtain rfl := Cause.message.inj hcause
        rw [hnew _ rfl, if_pos haccepted]
        show callsOf s.history s.events.length ++ _ = _
        rw [hnone, List.nil_append]
      · rw [hold _ rfl n (hidle n (mem_handling.mpr ⟨rest, hmem⟩))]
        exact h.waiting n rest hmem
    · -- done
      intro n hn
      have hne : n ≠ s.events.length := by
        rintro rfl
        exact hn List.mem_cons_self
      rw [hold _ rfl n hne]
      exact h.done n fun hmem => hn (List.mem_cons_of_mem _ hmem)
  · -- a message that is not accepted has nothing to call back
    next hrejected =>
    refine ⟨h.distinct, ?_, ?_, ?_⟩
    · intro n hn
      rw [List.length_append]
      have := h.known n hn
      omega
    · intro n rest hmem
      rw [hold _ rfl n (hidle n (mem_handling.mpr ⟨rest, hmem⟩))]
      exact h.waiting n rest hmem
    · intro n hn
      by_cases hne : n = s.events.length
      · subst hne
        left
        rw [hnew _ rfl, if_neg hrejected]
        exact hnone
      · rw [hold _ rfl n hne]
        exact h.done n hn

/-- Nothing waits for a script of the page. -/
theorem Relayed.scriptEnds {stack : List (Option Continuation)} (h : Relayed serverOrigin s)
    (hstack : s.stack = none :: stack) : Relayed serverOrigin { s with stack := stack } := by
  have hhandling : handling stack = handling s.stack := by
    rw [hstack]
    rfl
  refine ⟨hhandling ▸ h.distinct, hhandling ▸ h.known, ?_, fun n hn => h.done n (hhandling ▸ hn)⟩
  intro n rest hmem
  refine h.waiting n rest ?_
  rw [hstack]
  exact List.mem_cons_of_mem _ hmem

/-- An exception cuts a handler off. -/
theorem Relayed.break {k : Continuation} {stack : List (Option Continuation)}
    (h : Relayed serverOrigin s) (hstack : s.stack = some k :: stack) :
    Relayed serverOrigin { s with stack := stack, broken := s.broken ++ [k.cause] } := by
  have hsub : (handling stack).Sublist (handling s.stack) := by
    rw [hstack]
    exact (List.sublist_cons_self _ _).filterMap _
  have hmem : ∀ {k'}, k' ∈ stack → k' ∈ s.stack := fun hk => by
    rw [hstack]
    exact List.mem_cons_of_mem _ hk
  refine ⟨h.distinct.sublist hsub, fun n hn => h.known n (hsub.subset hn),
    fun n rest hrest => h.waiting n rest (hmem hrest), ?_⟩
  intro n hn
  by_cases hcause : k.cause = .message n
  · -- the callbacks of this one that are left are never called
    right
    refine ⟨by simp [hcause], ?_⟩
    have htop : some ⟨.message n, k.rest⟩ ∈ s.stack := by
      rw [hstack, ← hcause]
      exact List.mem_cons_self
    exact ⟨_, h.waiting n k.rest htop⟩
  · have hidle : n ∉ handling s.stack := by
      intro hhandled
      obtain ⟨rest, hrest⟩ := mem_handling.mp hhandled
      rw [hstack] at hrest
      rcases List.mem_cons.mp hrest with heq | hrest
      · exact hcause (congrArg Continuation.cause (Option.some.inj heq)).symm
      · exact hn (mem_handling.mpr ⟨rest, hrest⟩)
    rcases h.done n hidle with hcalls | ⟨hbroken, hcalls⟩
    · exact .inl hcalls
    · exact .inr ⟨List.mem_append_left _ hbroken, hcalls⟩

theorem step_relayed {l : Label} (h : Relayed serverOrigin s)
    (hstep : step serverOrigin s l = some t) : Relayed serverOrigin t := by
  cases l with
  | bodyParsed =>
    obtain rfl := Option.some.inj hstep
    exact h.congr rfl rfl (fun _ => rfl) rfl
  | script =>
    obtain rfl := Option.some.inj hstep
    exact h.push rfl
  | call method =>
    obtain ⟨-, rfl⟩ := step_call hstep
    cases method with
    | openWidget => exact openWidget_relayed h
    | close | destroy => exact h.start (by simp)
  | returns =>
    obtain ⟨stack, hstack, rfl⟩ | ⟨k, stack, hstack, rfl⟩ := step_returns hstep
    · exact h.scriptEnds hstack
    · exact run_relayed (h.congr hstack.symm rfl (fun _ => rfl) rfl)
  | throws =>
    obtain ⟨stack, hstack, rfl⟩ | ⟨k, stack, hstack, rfl⟩ := step_throws hstep
    · exact h.scriptEnds hstack
    · exact h.break hstack
  | message event =>
    obtain rfl := Option.some.inj hstep
    exact receive_relayed h event
  | click overlay =>
    obtain ⟨-, rfl⟩ := step_click hstep
    exact h.start (by simp)
  | closeTimer =>
    obtain ⟨-, rfl⟩ := step_closeTimer hstep
    refine Relayed.start ?_ (by simp)
    exact h.congr rfl rfl (fun _ => rfl) rfl
  | removeOverlay overlay =>
    obtain ⟨-, rfl⟩ := step_removeOverlay hstep
    exact h.congr rfl rfl (fun _ => rfl) rfl

theorem initial_relayed : Relayed serverOrigin State.initial := by
  refine ⟨List.nodup_nil, ?_, ?_, fun n _ => .inl rfl⟩
  · intro n hn
    cases hn
  · intro n rest hmem
    cases hmem

/-! ## After `destroy` -/

/-- The widget is destroyed and hears none of the messages that came since. -/
def Deaf (events : List (MessageEvent × Bool)) (s : State) : Prop :=
  s.destroyed = true ∧ s.listening = false ∧
    ∃ later, s.events = events ++ later ∧ ∀ e ∈ later, e.2 = false

theorem Deaf.run {events : List (MessageEvent × Bool)} (h : Deaf events s) :
    Deaf events (run cause tasks s) := by
  induction tasks generalizing s with
  | nil => exact h
  | cons task rest ih =>
    cases task with
    | call callback => exact h
    | close =>
      rw [Widget.run]
      split
      · exact h
      · exact ih h
    | closeLater => exact ih h
    | markDestroyed => exact ih ⟨rfl, rfl, h.2.2⟩

theorem step_deaf {l : Label} {events : List (MessageEvent × Bool)} (h : Deaf events s)
    (hstep : step serverOrigin s l = some t) : Deaf events t := by
  cases l with
  | bodyParsed | script =>
    obtain rfl := Option.some.inj hstep
    exact h
  | call method =>
    obtain ⟨-, rfl⟩ := step_call hstep
    cases method with
    | openWidget =>
      rw [callMethod, openWidget, if_pos h.1]
      exact h
    | close | destroy => exact h.run
  | returns =>
    obtain ⟨stack, -, rfl⟩ | ⟨k, stack, -, rfl⟩ := step_returns hstep
    · exact h
    · exact Deaf.run h
  | throws =>
    obtain ⟨stack, -, rfl⟩ | ⟨k, stack, -, rfl⟩ := step_throws hstep
    · exact h
    · exact h
  | message event =>
    obtain rfl := Option.some.inj hstep
    obtain ⟨hdestroyed, hlistening, later, hevents, hunheard⟩ := h
    unfold receive
    rw [if_neg (by simp [hlistening])]
    refine ⟨hdestroyed, hlistening, later ++ [(event, s.listening)], ?_, ?_⟩
    · show s.events ++ [(event, s.listening)] = _
      rw [hevents, List.append_assoc]
    · intro e he
      rcases List.mem_append.mp he with he | he
      · exact hunheard e he
      · rw [List.mem_singleton.mp he]
        exact hlistening
  | click overlay =>
    obtain ⟨-, rfl⟩ := step_click hstep
    exact h.run
  | closeTimer =>
    obtain ⟨-, rfl⟩ := step_closeTimer hstep
    exact Deaf.run h
  | removeOverlay overlay =>
    obtain ⟨-, rfl⟩ := step_removeOverlay hstep
    exact h

/-- What came since the widget was destroyed is due nothing. -/
theorem Deaf.script_eq {events : List (MessageEvent × Bool)} (h : Deaf events s) {n : Nat}
    (hn : events.length ≤ n) : script serverOrigin s n = [] := by
  obtain ⟨-, -, later, hevents, hunheard⟩ := h
  rw [script, hevents, List.getElem?_append_right hn]
  cases hlater : later[n - events.length]? with
  | none => rfl
  | some e =>
    obtain ⟨event, heard⟩ := e
    have hheard : heard = false := hunheard _ (List.mem_of_getElem? hlater)
    rw [hheard]

/-- In every run, each message has got the callbacks that are due to it up to where its
handler waits or was cut off, and after `destroy` no message gets any. -/
theorem exec_relayed {labels later : List Label}
    (h : Runs.exec (step serverOrigin) State.initial labels = some s)
    (hlater : Runs.exec (step serverOrigin) s later = some t) :
    (∀ n, callsOf t.history n <+: script serverOrigin t n ∧
      (n ∉ handling t.stack → Cause.message n ∉ t.broken →
        callsOf t.history n = script serverOrigin t n)) ∧
    (s.destroyed = true → ∀ n, s.events.length ≤ n → callsOf t.history n = []) := by
  have hstep : ∀ u l v, Relayed serverOrigin u → step serverOrigin u l = some v →
      Relayed serverOrigin v := fun _ _ _ hu hv => step_relayed hu hv
  have hs : Relayed serverOrigin s := Runs.invariant hstep initial_relayed h
  have ht : Relayed serverOrigin t := Runs.invariant hstep hs hlater
  have hcalled : ∀ n, callsOf t.history n <+: script serverOrigin t n := by
    intro n
    by_cases hn : n ∈ handling t.stack
    · obtain ⟨rest, hmem⟩ := mem_handling.mp hn
      exact ⟨_, ht.waiting n rest hmem⟩
    · rcases ht.done n hn with hcalls | ⟨-, hcalls⟩
      · rw [hcalls]
      · exact hcalls
  refine ⟨fun n => ⟨hcalled n, fun hn hbroken => ?_⟩, fun hdestroyed n hn => ?_⟩
  · exact (ht.done n hn).resolve_right fun hcut => hbroken hcut.1
  · have hdeaf : Deaf s.events s :=
      ⟨hdestroyed, (exec_wellKept h).deaf hdestroyed, [], (List.append_nil _).symm, by simp⟩
    have hdeaf' : Deaf s.events t :=
      Runs.invariant (fun _ _ _ hu hv => step_deaf hu hv) hdeaf hlater
    have hcalls := hcalled n
    rw [hdeaf'.script_eq hn] at hcalls
    exact List.prefix_nil.mp hcalls

/-- The page of the link says that it is connected. -/
def connected : MessageEvent where
  data := .obj [("source", .str "plaidify-link"), ("event", .str "CONNECTED"),
    ("public_token", .str "public-1")]
  origin := "https://api.test"

/-- The host throws when it hears of the success, and destroys the widget. -/
def connectedThenDestroyed : List Label :=
  [.bodyParsed, .script, .call .openWidget, .returns, .returns, .message connected, .returns,
    .throws, .script, .call .destroy, .returns, .returns]

/-- It is told of the first message, and of none that comes afterwards. -/
theorem connectedThenDestroyed_relayed : ∃ s t,
    Runs.exec (step "https://api.test") State.initial connectedThenDestroyed = some s ∧
    Runs.exec (step "https://api.test") s [.message connected] = some t ∧
    callsOf t.history 0 <+: script "https://api.test" t 0 ∧
    (callsOf t.history 0).length = 2 ∧ callsOf t.history 1 = [] := by
  have hview : ((Runs.exec (step "https://api.test") State.initial connectedThenDestroyed).bind
      fun s => (Runs.exec (step "https://api.test") s [.message connected]).map fun t =>
        (s.destroyed, s.events.length, (callsOf t.history 0).length)) = some (true, 1, 2) := by
    decide +kernel
  obtain ⟨s, hs, hview⟩ := Option.bind_eq_some_iff.mp hview
  obtain ⟨t, ht, hview⟩ := Option.map_eq_some_iff.mp hview
  obtain ⟨hdestroyed, hview⟩ := Prod.mk.inj hview
  obtain ⟨hlength, hcalls⟩ := Prod.mk.inj hview
  obtain ⟨htold, hsilent⟩ := exec_relayed hs ht
  exact ⟨s, t, hs, ht, (htold 0).1, hcalls, hsilent hdestroyed 1 (by omega)⟩

end Plaidify.HostedLink.Widget
