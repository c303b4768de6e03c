import Plaidify.Engine.Execution

/-!
# Read-only after the login

With the policy enabled, no step that fills, selects or runs a script reaches the
page once the login is over, whatever the blueprint and the page do. The clicks of
the step executor are judged by `evaluate_click`. The one other component that
clicks after the login is the extractor, which goes to the next page of a list
without asking: an execution is read-only exactly when the page never shows it a
button that it would click.
-/

namespace Plaidify.Engine

open Raising

/-! ## The property -/

/-- The login and its MFA are over. -/
def ExecutionPhase.afterLogin : ExecutionPhase → Bool
  | .auth | .mfa => false
  | .read | .cleanup => true

/-- The policy lets the steps of this action through. -/
def Permitted (phase : ExecutionPhase) (action : StepAction) : Prop :=
  phase.afterLogin = true → action ≠ .fill ∧ action ≠ .select ∧ action ≠ .executeJs

/-- Since the last click `evaluate_click` was asked in the read phase, about this
target where the call names one, and found no risk. -/
def Judged (before : List Event) (call : Call) : Prop :=
  ∃ old selector between, before = old ++ .evaluatedClick .read selector none :: between ∧
    (∀ e ∈ between, e.isClick = false) ∧ ∀ s, call = .click s → s = selector

/-- What strict read-only mode asks of an event. -/
def ReadOnly (before : List Event) : Event → Prop
  | .called phase caller call _ =>
      (phase.afterLogin = true →
        call.isEntry = false ∧ ∀ action, caller = .step action → Permitted phase action) ∧
      (phase = .read → call.isClick = true → Judged before call)
  | .evaluatedClick .. => True

/-- Every action of the read phase is one that the strict read-only policy allows. -/
def StrictReadOnly (log : List Event) : Prop :=
  Traces.Each ReadOnly log

/-- The page has a button for the next page that does not say that it is disabled. -/
def OffersNext : Event → Prop
  | .called .read .pagination (.getAttribute _ _) (.ok disabled) => disabled.getD "" = ""
  | _ => False

/-- The pager finds no button that it would click. -/
def NextNeverOffered (log : List Event) : Prop :=
  ∀ e ∈ log, ¬ OffersNext e

/-- `evaluate_click` was not asked in the read phase. -/
def NoVerdict (log : List Event) : Prop :=
  ∀ selector reason, .evaluatedClick .read selector reason ∉ log

/-- The log is read-only exactly as long as no next page was offered. -/
structure Mirror (log : List Event) : Prop where
  iff : StrictReadOnly log ↔ NextNeverOffered log
  noVerdict : NoVerdict log

/-- The policy is on and in this phase, and the log has the property. -/
structure Stays (p : ExecutionPhase) (A : List Event → Prop) (w : World) : Prop where
  enabled : w.policy.enabled = true
  phase : w.policy.phase = p
  log : A w.log

/-! ## Events that change nothing -/

/-- A read-only event that offers no next page, with a verdict in the read phase only
if this is the phase. -/
structure Harmless (p : ExecutionPhase) (log : List Event) (e : Event) : Prop where
  readOnly : ReadOnly log e
  notOffered : ¬ OffersNext e
  verdict : ∀ selector reason, e = .evaluatedClick .read selector reason → p = .read

theorem nextNeverOffered_concat {log : List Event} {e : Event} :
    NextNeverOffered (log ++ [e]) ↔ NextNeverOffered log ∧ ¬ OffersNext e := by
  unfold NextNeverOffered
  rw [List.forall_mem_append, List.forall_mem_singleton]

/-- An event that is not a verdict of the read phase leaves a log without one. -/
theorem NoVerdict.concat {log : List Event} {e : Event} (h : NoVerdict log)
    (he : ∀ selector reason, e ≠ .evaluatedClick .read selector reason) :
    NoVerdict (log ++ [e]) := by
  intro selector reason hmem
  rcases List.mem_append.mp hmem with hlog | hlast
  · exact h selector reason hlog
  · exact he selector reason (List.mem_singleton.mp hlast).symm

theorem Mirror.concat {log : List Event} {e : Event} (h : Mirror log) (hreadOnly : ReadOnly log e)
    (hnot : ¬ OffersNext e) (he : ∀ selector reason, e ≠ .evaluatedClick .read selector reason) :
    Mirror (log ++ [e]) where
  iff := by
    have hstrict : StrictReadOnly (log ++ [e]) ↔ StrictReadOnly log :=
      Traces.each_concat.trans (and_iff_left hreadOnly)
    have hoffered : NextNeverOffered (log ++ [e]) ↔ NextNeverOffered log :=
      nextNeverOffered_concat.trans (and_iff_left hnot)
    rw [hstrict, hoffered]
    exact h.iff
  noVerdict := h.noVerdict.concat he

/-- What is harmless keeps the log read-only. -/
theorem Harmless.strictReadOnly {p : ExecutionPhase} {log : List Event} {e : Event}
    (he : Harmless p log e) (h : StrictReadOnly log) : StrictReadOnly (log ++ [e]) :=
  Traces.each_concat.mpr ⟨h, he.readOnly⟩

/-- Outside the read phase nothing harmless is a click of the pager. -/
theorem Harmless.mirror {p : ExecutionPhase} (hp : p ≠ .read) {log : List Event} {e : Event}
    (he : Harmless p log e) (h : Mirror log) : Mirror (log ++ [e]) :=
  h.concat he.readOnly he.notOffered fun selector reason heq =>
    hp (he.verdict selector reason heq)

/-- What is no click leaves the verdict the last one. -/
theorem Judged.concat {log : List Event} {call : Call} {e : Event} (h : Judged log call)
    (he : e.isClick = false) : Judged (log ++ [e]) call := by
  rcases h with ⟨old, selector, between, rfl, hbetween, hselector⟩
  refine ⟨old, selector, between ++ [e], by simp, ?_, hselector⟩
  intro e' he'
  rcases List.mem_append.mp he' with hold | hlast
  · exact hbetween e' hold
  · rw [List.mem_singleton.mp hlast]
    exact he

/-- Only the pager is offered a next button, and only while data are read. -/
theorem OffersNext.made {p : ExecutionPhase} {caller : Caller} {call : Call}
    {answer : Except Fault call.Reply} (h : OffersNext (.called p caller call answer)) :
    p = .read ∧ caller = .pagination := by
  unfold OffersNext at h
  split at h
  · rename_i heq
    cases heq
    exact ⟨rfl, rfl⟩
  · exact h.elim

/-- Before the end of the login anything goes. -/
theorem harmless_of_login {p : ExecutionPhase} (hp : p.afterLogin = false) (log : List Event)
    (caller : Caller) (call : Call) (answer : Except Fault call.Reply) :
    Harmless p log (.called p caller call answer) where
  readOnly := by
    refine ⟨fun h => ?_, fun h => ?_⟩
    · rw [hp] at h
      cases h
    · rw [h] at hp
      cases hp
  notOffered h := by
    rw [h.made.1] at hp
    cases hp
  verdict _ _ h := by cases h

/-- A call that neither clicks nor enters anything. -/
theorem harmless_of_quiet {p : ExecutionPhase} {log : List Event} {caller : Caller} {call : Call}
    (hclick : call.isClick = false) (hentry : p.afterLogin = true → call.isEntry = false)
    (hcaller : ∀ action, caller = .step action → Permitted p action)
    (hpagination : caller ≠ .pagination) (answer : Except Fault call.Reply) :
    Harmless p log (.called p caller call answer) where
  readOnly := by
    refine ⟨fun h => ⟨hentry h, hcaller⟩, fun _ h => ?_⟩
    rw [hclick] at h
    cases h
  notOffered h := hpagination h.made.2
  verdict _ _ h := by cases h

/-! ## Calls -/

section

variable {x : Outside} {p : ExecutionPhase} {A : List Event → Prop}

/-- A call appends its event, whether it returns or raises. -/
theorem ask_triple {P : World → Prop} {R : Exc → World → Prop} {caller : Caller} {call : Call}
    {Q : call.Reply → World → Prop}
    (hok : ∀ w reply, P w → Q reply (w.note (.called w.policy.phase caller call (.ok reply))))
    (herr : ∀ w fault, P w →
      R (.fault fault) (w.note (.called w.policy.phase caller call (.error fault)))) :
    Triple P (ask x caller call) Q R := by
  intro w hw
  unfold ask
  rw [after_bind, after_get]
  dsimp only
  cases hanswer : x.answer w.log call with
  | ok reply => exact hok w reply hw
  | error fault => exact herr w fault hw

/-- A call of the page keeps what its event keeps. -/
theorem ask_keeps {caller : Caller} {call : Call}
    (h : ∀ log answer, A log → A (log ++ [.called p caller call answer])) :
    Keeps (Stays p A) (ask x caller call) := by
  have hnote : ∀ w answer, Stays p A w →
      Stays p A (w.note (.called w.policy.phase caller call answer)) := by
    intro w answer hw
    rw [hw.phase]
    exact ⟨hw.enabled, hw.phase, h w.log answer hw.log⟩
  exact ask_triple (fun w reply hw => hnote w (.ok reply) hw)
    fun w fault hw => hnote w (.error fault) hw

end

/-! ## The step executor -/

section

variable {x : Outside} {executor : StepExecutor} {p : ExecutionPhase} {A : List Event → Prop}

/-- The record of a blocked action is not in the log of the page. -/
theorem recordBlocked_keeps {action reason : String} {target : Option String} :
    Keeps (Stays p A) (recordBlocked action reason target) :=
  triple_modify _ fun _ hw => ⟨hw.enabled, hw.phase, hw.log⟩

/-- Past the policy the step is permitted. -/
theorem enforceStepPolicy_triple (hguarded : executor.guarded = true) (step : StepFields) :
    Triple (Stays p A) (enforceStepPolicy executor step)
      (fun _ w => Stays p A w ∧ Permitted p step.action) fun _ => Stays p A := by
  unfold enforceStepPolicy
  rw [if_pos hguarded]
  refine triple_get_bind fun w hw => ?_
  cases hreason : w.policy.evaluateStep step.action with
  | none =>
      refine ⟨hw, fun hafter => ?_⟩
      refine ReadOnlyExecutionPolicy.evaluateStep_eq_none hw.enabled hreason ?_
      rw [hw.phase]
      cases p with
      | auth | mfa => cases hafter
      | read => exact .inl rfl
      | cleanup => exact .inr rfl
  | some reason =>
      exact Triple.bind recordBlocked_keeps (fun _ => triple_throw _ fun _ h => h) w hw

variable (hA : ∀ log e, A log → Harmless p log e → A (log ++ [e]))

include hA

/-- A call that a permitted step makes, neither a click nor an entry unless the step is
one. -/
theorem askStep_keeps {action : StepAction} {call : Call} (hp : Permitted p action)
    (hclick : call.isClick = false)
    (hentry : call.isEntry = true → action = .fill ∨ action = .select) :
    Keeps (Stays p A) (ask x (.step action) call) := by
  refine ask_keeps fun log answer hlog => hA log _ hlog ?_
  refine harmless_of_quiet hclick (fun hafter => ?_) ?_ (by simp) answer
  · -- an entering step would not have been permitted
    rw [← Bool.not_eq_true]
    intro h
    rcases hentry h with rfl | rfl
    · exact (hp hafter).1 rfl
    · exact (hp hafter).2.1 rfl
  · intro action' h
    rw [← Caller.step.inj h]
    exact hp

/-- The look at a click's target before the verdict. -/
theorem describeClickTarget_keeps (hp : Permitted p .click) (selector : String) :
    Keeps (Stays p A) (describeClickTarget x executor selector) := by
  unfold describeClickTarget
  split
  · refine Keeps.tryCatch ?_ fun exc => ?_
    · refine Keeps.bind (askStep_keeps hA hp rfl (by simp [Call.isEntry])) fun metadata => ?_
      split
      · exact keeps_pure _
      · exact keeps_pure _
    · split
      · exact keeps_pure _
      · exact keeps_throw _
  · exact keeps_pure _

/-- `evaluate_click` leaves its verdict in the log. -/
theorem evaluateClick_triple (selector : String) (metadata : Dict) :
    Triple (Stays p A) (evaluateClick x selector metadata)
      (fun reason w => Stays p A w ∧
        (reason = none → p = .read → Judged w.log (.click selector)))
      fun _ => Stays p A := by
  intro w hw
  unfold evaluateClick
  rw [after_bind, after_get]
  dsimp only
  refine ⟨⟨hw.enabled, hw.phase, hA w.log _ hw.log ⟨trivial, id, ?_⟩⟩, ?_⟩
  · rintro s r heq
    rw [← hw.phase]
    exact (Event.evaluatedClick.inj heq).1
  · rintro hreason rfl
    refine ⟨w.log, selector, [], ?_, by simp, fun s hs => (Call.click.inj hs).symm⟩
    rw [← hw.phase, ← hreason]
    rfl

/-- A click that was judged. -/
theorem performClick_triple (hp : Permitted p .click) (step : StepFields) (selector : String) :
    Triple (fun w => Stays p A w ∧ (p = .read → Judged w.log (.click selector)))
      (performClick x step selector) (fun _ => Stays p A) fun _ => Stays p A := by
  have hclick : Triple (fun w => Stays p A w ∧ (p = .read → Judged w.log (.click selector)))
      (ask x (.step .click) (.click selector)) (fun _ => Stays p A) fun _ => Stays p A := by
    have hnote : ∀ w answer, (Stays p A w ∧ (p = .read → Judged w.log (.click selector))) →
        Stays p A (w.note (.called w.policy.phase (.step .click) (.click selector) answer)) := by
      rintro w answer ⟨hw, hjudged⟩
      refine ⟨hw.enabled, hw.phase, hA w.log _ hw.log ⟨⟨fun _ => ⟨rfl, ?_⟩, ?_⟩, ?_, ?_⟩⟩
      · intro action haction
        rw [hw.phase, ← Caller.step.inj haction]
        exact hp
      · intro hread _
        exact hjudged (hw.phase ▸ hread)
      · intro h
        cases h.made.2
      · intro s r h
        cases h
    exact ask_triple (fun w reply hw => hnote w (.ok reply) hw)
      fun w fault hw => hnote w (.error fault) hw
  unfold performClick
  by_cases hwait : step.waitForNavigation = true
  · -- entering `expect_navigation` leaves the verdict the last one
    have hjudged : Triple (fun w => p = .read → Judged w.log (.click selector))
        (ask x (.step .click) (.expectNavigation (orDefault step.timeout 30000)))
        (fun _ w => p = .read → Judged w.log (.click selector)) fun _ _ => True :=
      ask_triple (fun _ _ hw hread => (hw hread).concat rfl) fun _ _ _ => trivial
    have hstays : Keeps (Stays p A)
        (ask x (.step .click) (.expectNavigation (orDefault step.timeout 30000))) :=
      askStep_keeps hA hp rfl (by simp [Call.isEntry])
    have hexpect := (hstays.and hjudged).conseq (fun _ h => h) (fun _ _ h => h)
      fun _ _ h => h.1
    rw [if_pos hwait]
    refine Triple.bind hexpect fun _ => Triple.bind hclick fun _ => ?_
    exact askStep_keeps hA hp rfl (by simp [Call.isEntry])
  · rw [if_neg hwait]
    exact hclick

theorem stepClick_keeps (hguarded : executor.guarded = true) (hp : Permitted p .click)
    (step : StepFields) : Keeps (Stays p A) (stepClick x executor step) := by
  unfold stepClick
  split
  · exact keeps_throw _
  · rename_i selector _
    refine Keeps.bind (askStep_keeps hA hp rfl (by simp [Call.isEntry])) fun _ => ?_
    rw [if_pos hguarded]
    refine Keeps.bind (describeClickTarget_keeps hA hp selector) fun metadata => ?_
    refine Triple.bind (evaluateClick_triple hA selector metadata) fun reason => ?_
    cases reason with
    | none =>
        refine (performClick_triple hA hp step selector).conseq ?_ (fun _ _ h => h) fun _ _ h => h
        rintro w ⟨hw, hjudged⟩
        exact ⟨hw, hjudged rfl⟩
    | some reason =>
        have hblocked : Keeps (Stays p A) (do
            recordBlocked "click" reason (some selector)
            throw (.readOnlyPolicyViolation reason none) : Drive Unit) :=
          Keeps.bind recordBlocked_keeps fun _ => keeps_throw _
        exact hblocked.conseq (fun _ h => h.1) (fun _ _ h => h) fun _ _ h => h

/-- The step navigates, which the read phase does not permit. -/
theorem stepGoto_keeps (hp : Permitted p .goto) (step : StepFields) :
    Keeps (Stays p A) (stepGoto x executor step) := by
  unfold stepGoto
  split
  · exact keeps_throw _
  · refine Keeps.tryCatch ?_ fun exc => ?_
    · refine Keeps.bind (askStep_keeps hA hp rfl (by simp [Call.isEntry])) fun response => ?_
      split
      · split
        · exact keeps_throw _
        · exact keeps_pure _
      · exact keeps_pure _
    · split
      · exact keeps_throw _
      · exact keeps_throw _

/-- A fill step that is permitted comes before the end of the login. -/
theorem stepFill_keeps (hp : Permitted p .fill) (step : StepFields) :
    Keeps (Stays p A) (stepFill x executor step) := by
  unfold stepFill
  split
  · exact keeps_throw _
  · refine Keeps.bind (askStep_keeps hA hp rfl (by simp [Call.isEntry])) fun _ => ?_
    exact askStep_keeps hA hp rfl fun _ => .inl rfl

theorem stepSelect_keeps (hp : Permitted p .select) (step : StepFields) :
    Keeps (Stays p A) (stepSelect x executor step) := by
  unfold stepSelect
  split
  · exact askStep_keeps hA hp rfl fun _ => .inr rfl
  · exact keeps_throw _

/-- The step waits for a selector, or for a time. -/
theorem stepWait_keeps (hp : Permitted p .wait) (step : StepFields) :
    Keeps (Stays p A) (stepWait x step) := by
  unfold stepWait
  split
  · exact keeps_throw _
  · exact Keeps.bind (askStep_keeps hA hp rfl (by simp [Call.isEntry])) fun _ => keeps_pure _

/-- The branch that is taken keeps what each of them keeps. -/
theorem stepConditional_keeps (hp : Permitted p .conditional) (step : StepFields)
    {thenSteps elseSteps : Drive Unit} (hthen : Keeps (Stays p A) thenSteps)
    (helse : Keeps (Stays p A) elseSteps) :
    Keeps (Stays p A) (stepConditional x step thenSteps elseSteps) := by
  unfold stepConditional
  split
  · exact keeps_throw _
  · refine Keeps.tryCatch ?_ fun exc => ?_
    · exact Keeps.bind (askStep_keeps hA hp rfl (by simp [Call.isEntry])) fun _ => hthen
    · split
      · exact helse
      · exact keeps_throw _

/-- The step scrolls, with a script of its own. -/
theorem stepScroll_keeps (hp : Permitted p .scroll) (step : StepFields) :
    Keeps (Stays p A) (stepScroll x step) := by
  unfold stepScroll
  split
  · exact askStep_keeps hA hp rfl (by simp [Call.isEntry])
  · dsimp only
    split
    · exact Keeps.bind (askStep_keeps hA hp rfl (by simp [Call.isEntry])) fun _ => keeps_pure _
    · exact Keeps.bind (askStep_keeps hA hp rfl (by simp [Call.isEntry])) fun _ => keeps_pure _

/-- The step looks at a frame. -/
theorem stepIframe_keeps (hp : Permitted p .iframe) (step : StepFields) :
    Keeps (Stays p A) (stepIframe x step) := by
  unfold stepIframe
  split
  · exact keeps_throw _
  · exact askStep_keeps hA hp rfl (by simp [Call.isEntry])

/-- The script of a step is checked before it runs. -/
theorem stepExecuteJs_keeps (hp : Permitted p .executeJs) (step : StepFields) :
    Keeps (Stays p A) (stepExecuteJs x executor step) := by
  unfold stepExecuteJs
  split
  · split
    · exact keeps_throw _
    · exact Keeps.bind (askStep_keeps hA hp rfl (by simp [Call.isEntry])) fun _ => keeps_pure _
  · exact keeps_throw _

/-- Every action of the table, its phase permitting. -/
theorem dispatch_keeps (hguarded : executor.guarded = true) (step : StepFields)
    (hp : Permitted p step.action) {thenSteps elseSteps : Drive Unit}
    (hthen : Keeps (Stays p A) thenSteps) (helse : Keeps (Stays p A) elseSteps) :
    Keeps (Stays p A) (dispatch x executor step thenSteps elseSteps) := by
  unfold dispatch
  cases haction : step.action with
  | goto => exact stepGoto_keeps hA (haction ▸ hp) step
  | fill => exact stepFill_keeps hA (haction ▸ hp) step
  | click => exact stepClick_keeps hA hguarded (haction ▸ hp) step
  | wait => exact stepWait_keeps hA (haction ▸ hp) step
  | screenshot => exact askStep_keeps hA (haction ▸ hp) rfl (by simp [Call.isEntry])
  | extract => exact keeps_throw _
  | conditional => exact stepConditional_keeps hA (haction ▸ hp) step hthen helse
  | scroll => exact stepScroll_keeps hA (haction ▸ hp) step
  | select => exact stepSelect_keeps hA (haction ▸ hp) step
  | iframe => exact stepIframe_keeps hA (haction ▸ hp) step
  | waitForNavigation => exact askStep_keeps hA (haction ▸ hp) rfl (by simp [Call.isEntry])
  | executeJs => exact stepExecuteJs_keeps hA (haction ▸ hp) step

omit hA in
/-- What becomes of an exception of a step. -/
theorem stepRaised_keeps (action : StepAction) (exc : Exc) :
    Keeps (Stays p A) (stepRaised action exc) := by
  unfold stepRaised
  split
  · exact keeps_throw _
  · exact keeps_throw _
  · exact keeps_throw _
  · exact keeps_throw _

end

/-! ### Nested steps -/

section

variable {x : Outside} {executor : StepExecutor} {p : ExecutionPhase} {A : List Event → Prop}

mutual

/-- The steps of a list, with all steps nested in them, keep what harmless events
keep: in every phase, for every page. -/
theorem executeSteps_keeps (hA : ∀ log e, A log → Harmless p log e → A (log ++ [e]))
    (hguarded : executor.guarded = true) :
    ∀ steps, Keeps (Stays p A) (executeSteps x executor steps)
  | [] => by
      unfold executeSteps
      exact keeps_pure _
  | step :: steps => by
      unfold executeSteps
      exact Keeps.bind (executeStep_keeps hA hguarded step) fun _ =>
        executeSteps_keeps hA hguarded steps

theorem executeStep_keeps (hA : ∀ log e, A log → Harmless p log e → A (log ++ [e]))
    (hguarded : executor.guarded = true) :
    ∀ step, Keeps (Stays p A) (executeStep x executor step)
  | .mk step thenSteps elseSteps => by
      unfold executeStep
      refine Keeps.tryCatch ?_ fun exc => stepRaised_keeps step.action exc
      refine Triple.bind (enforceStepPolicy_triple hguarded step) fun _ => ?_
      -- the policy let the step through; its branches are judged step by step
      rintro w ⟨hw, hp⟩
      exact dispatch_keeps hA hguarded step hp (executeSteps_keeps hA hguarded thenSteps)
        (executeSteps_keeps hA hguarded elseSteps) w hw

end

/-- The step executor on its own is read-only in every phase. -/
theorem executeSteps_strictReadOnly (hguarded : executor.guarded = true)
    (steps : List BlueprintStep) :
    Keeps (Stays p StrictReadOnly) (executeSteps x executor steps) :=
  executeSteps_keeps (fun _ _ hlog he => he.strictReadOnly hlog) hguarded steps

end

/-! ## MFA -/

section

variable {x : Outside} {p : ExecutionPhase} (hp : p.afterLogin = false)

include hp

/-- A call while the login is under way, when no page is read. -/
theorem askLogin_keeps (caller : Caller) (call : Call) :
    Keeps (Stays p Mirror) (ask x caller call) := by
  have hne : p ≠ .read := by
    rintro rfl
    cases hp
  exact ask_keeps fun log answer hlog =>
    (harmless_of_login hp log caller call answer).mirror hne hlog

/-- The wait for a push that the user confirms. -/
theorem pollPush_keeps (mfa : MFAConfig) (site : String) (rounds : Nat) :
    Keeps (Stays p Mirror) (pollPush x mfa site rounds) := by
  induction rounds with
  | zero => exact keeps_throw _
  | succ rounds ih =>
      unfold pollPush
      refine Keeps.bind (Keeps.tryCatch ?_ fun exc => ?_) fun gone => ?_
      · exact Keeps.bind (askLogin_keeps hp _ _) fun element => keeps_pure _
      · split
        · exact keeps_pure _
        · exact keeps_throw _
      · split
        · exact keeps_pure _
        · exact Keeps.bind (askLogin_keeps hp _ _) fun _ => ih

/-- The text of a security question. -/
theorem readQuestion_keeps (mfa : MFAConfig) :
    Keeps (Stays p Mirror) (readQuestion x mfa) := by
  unfold readQuestion
  split
  · exact keeps_pure _
  · split
    · refine Keeps.tryCatch ?_ fun exc => ?_
      · refine Keeps.bind (askLogin_keeps hp _ _) fun element => ?_
        split
        · exact keeps_pure _
        · exact Keeps.bind (askLogin_keeps hp _ _) fun question => keeps_pure _
      · split
        · exact keeps_pure _
        · exact keeps_throw _
    · exact keeps_pure _

/-- The code is typed into the page, and submitted. -/
theorem enterCode_keeps (mfa : MFAConfig) (code : String) :
    Keeps (Stays p Mirror) (enterCode x mfa code) := by
  unfold enterCode
  split
  · exact keeps_pure _
  · refine Keeps.bind (askLogin_keeps hp _ _) fun _ => ?_
    split
    · exact keeps_pure _
    · exact Keeps.bind (askLogin_keeps hp _ _) fun _ => askLogin_keeps hp _ _

/-- The user is asked, and the answer is entered. -/
theorem promptMfa_keeps (mfa : MFAConfig) (site sessionId : String) :
    Keeps (Stays p Mirror) (promptMfa x mfa site sessionId) := by
  unfold promptMfa
  refine Keeps.bind (readQuestion_keeps hp mfa) fun question => ?_
  split
  · exact Keeps.bind (askLogin_keeps hp _ _) fun rounds => pollPush_keeps hp mfa site rounds
  · refine Keeps.bind (askLogin_keeps hp _ _) fun _ => ?_
    refine Keeps.bind (askLogin_keeps hp _ _) fun code => ?_
    split
    · exact Keeps.bind (askLogin_keeps hp _ _) fun _ => keeps_throw _
    · exact enterCode_keeps hp mfa _

/-- Whatever the kind of the challenge. -/
theorem handleMfa_keeps (mfa : MFAConfig) (site sessionId : String) :
    Keeps (Stays p Mirror) (handleMfa x mfa site sessionId) := by
  unfold handleMfa
  refine Keeps.bind (Keeps.tryCatch ?_ fun exc => ?_) fun detected => ?_
  · exact Keeps.bind (askLogin_keeps hp _ _) fun _ => keeps_pure _
  · split
    · exact keeps_pure _
    · exact keeps_throw _
  · split
    · exact promptMfa_keeps hp mfa site sessionId
    · exact keeps_pure _

end

/-! ## Extraction -/

section

variable {x : Outside}

/-- A call in the read phase that is no click. -/
theorem askQuiet_keeps {p : ExecutionPhase} {caller : Caller} {call : Call}
    (hclick : call.isClick = false) (hentry : call.isEntry = false)
    (hcaller : ∀ action, caller ≠ .step action) (hpagination : caller ≠ .pagination) :
    Keeps (Stays p Mirror) (ask x caller call) := by
  refine ask_keeps fun log answer hlog => ?_
  have hharmless : Harmless p log (.called p caller call answer) :=
    harmless_of_quiet hclick (fun _ => hentry) (fun action h => absurd h (hcaller action))
      hpagination answer
  exact hlog.concat hharmless.readOnly hharmless.notOffered (by simp)

/-- A call of the extractor, which neither clicks nor types. -/
theorem askExtractor_keeps {call : Call} (hclick : call.isClick = false)
    (hentry : call.isEntry = false) :
    Keeps (Stays .read Mirror) (ask x .extractor call) :=
  askQuiet_keeps hclick hentry (by simp) (by simp)

/-- So is one of the adaptive extractor. -/
theorem askAdaptive_keeps {call : Call} (hclick : call.isClick = false)
    (hentry : call.isEntry = false) :
    Keeps (Stays .read Mirror) (ask x .adaptive call) :=
  askQuiet_keeps hclick hentry (by simp) (by simp)

/-- The text or the attribute of an element. -/
theorem readValue_keeps (element : Element) (field : ExtractionField) :
    Keeps (Stays .read Mirror) (readValue x element field) := by
  unfold readValue
  refine Keeps.bind ?_ fun raw => ?_
  · unfold readText
    split
    · exact Keeps.bind (askExtractor_keeps rfl rfl) fun _ => keeps_pure _
    · exact askExtractor_keeps rfl rfl
  · split
    · exact keeps_pure _
    · exact keeps_throw _

/-- A field is looked for by each of its selectors. -/
theorem extractField_keeps (field : ExtractionField) (name site : String) :
    Keeps (Stays .read Mirror) (extractField x field name site) := by
  unfold extractField
  refine Keeps.bind ?_ fun element => ?_
  · unfold fieldElement
    refine Keeps.tryCatch (askExtractor_keeps rfl rfl) fun exc => ?_
    split
    · split
      · exact keeps_throw _
      · exact keeps_pure _
    · exact keeps_throw _
  · split
    · exact keeps_pure _
    · exact readValue_keeps _ field

/-- A row of a list has its columns read. -/
theorem extractRow_keeps (row : Element) (columns : List (String × ExtractionField)) :
    Keeps (Stays .read Mirror) (extractRow x row columns) := by
  induction columns with
  | nil => exact keeps_pure _
  | cons m columns ih =>
      unfold extractRow
      refine Keeps.bind ?_ fun value => Keeps.bind ih fun rest => keeps_pure _
      unfold extractColumn
      refine Keeps.tryCatch ?_ fun exc => ?_
      · refine Keeps.bind (askExtractor_keeps rfl rfl) fun cell => ?_
        split
        · exact readValue_keeps _ m.2
        · exact keeps_pure _
      · split
        · exact keeps_pure _
        · exact keeps_throw _

/-- And so for every row of a page. -/
theorem extractRows_keeps (field : ListExtractionField) (rows : List Element)
    (items : List Json) : Keeps (Stays .read Mirror) (extractRows x field rows items) := by
  induction rows generalizing items with
  | nil => exact keeps_pure _
  | cons row rows ih =>
      unfold extractRows
      dsimp only
      split
      · exact keeps_pure _
      · exact Keeps.bind (extractRow_keeps row field.fields) fun rowData => ih _

/-! ### The next page -/

/-- A next page was offered, and nobody has answered for the click yet. -/
structure Offered (w : World) : Prop where
  enabled : w.policy.enabled = true
  phase : w.policy.phase = .read
  offered : ∃ e ∈ w.log, OffersNext e
  noVerdict : NoVerdict w.log

/-- The click on the button is judged by nobody. -/
theorem not_readOnly_elementClick {log : List Event} (hnone : NoVerdict log) (caller : Caller)
    (button : Element) (answer : Except Fault Unit) :
    ¬ ReadOnly log (.called .read caller (.elementClick button) answer) := by
  rintro ⟨-, hjudged⟩
  rcases hjudged rfl rfl with ⟨old, selector, between, hlog, -, -⟩
  apply hnone selector none
  rw [hlog]
  simp

theorem elementClick_triple (button : Element) :
    Triple Offered (ask x .pagination (.elementClick button))
      (fun _ => Stays .read Mirror) fun _ => Stays .read Mirror := by
  have hnote : ∀ w answer, Offered w →
      Stays .read Mirror (w.note (.called w.policy.phase .pagination (.elementClick button)
        answer)) := by
    rintro w answer hw
    rw [hw.phase]
    refine ⟨hw.enabled, hw.phase, ⟨iff_of_false ?_ ?_, hw.noVerdict.concat (by simp)⟩⟩
    · intro hstrict
      exact not_readOnly_elementClick hw.noVerdict .pagination button answer
        (Traces.each_concat.mp hstrict).2
    · intro hnever
      rcases hw.offered with ⟨e, he, hoffers⟩
      exact (nextNeverOffered_concat.mp hnever).1 e he hoffers
  exact ask_triple (fun w reply hw => hnote w (.ok reply) hw)
    fun w fault hw => hnote w (.error fault) hw

/-- The question for a button, or for its `disabled`, is read-only in itself. -/
theorem readOnly_question {log : List Event} {caller : Caller} {call : Call}
    (hclick : call.isClick = false) (hentry : call.isEntry = false)
    (hcaller : ∀ action, caller ≠ .step action) (answer : Except Fault call.Reply) :
    ReadOnly log (.called .read caller call answer) := by
  refine ⟨fun _ => ⟨hentry, fun action h => absurd h (hcaller action)⟩, fun _ h => ?_⟩
  rw [hclick] at h
  cases h

theorem getDisabled_triple (button : Element) :
    Triple (Stays .read Mirror) (ask x .pagination (.getAttribute button "disabled"))
      (fun disabled w => if disabled.getD "" = "" then Offered w else Stays .read Mirror w)
      fun _ => Stays .read Mirror := by
  refine ask_triple (fun w reply hw => ?_) fun w fault hw => ?_
  · rw [hw.phase]
    by_cases hoffers : reply.getD "" = ""
    · rw [if_pos hoffers]
      refine ⟨hw.enabled, hw.phase, ⟨_, List.mem_append_right _ List.mem_cons_self, hoffers⟩, ?_⟩
      exact hw.log.noVerdict.concat (by simp)
    · rw [if_neg hoffers]
      exact ⟨hw.enabled, hw.phase,
        hw.log.concat (readOnly_question rfl rfl (by simp) _) hoffers (by simp)⟩
  · rw [hw.phase]
    exact ⟨hw.enabled, hw.phase,
      hw.log.concat (readOnly_question rfl rfl (by simp) _) id (by simp)⟩

/-- What `clickNext` asks beside the button's `disabled`. -/
theorem askNext_keeps {call : Call} (hclick : call.isClick = false) (hentry : call.isEntry = false)
    (hne : ∀ button name, call ≠ .getAttribute button name) :
    Keeps (Stays .read Mirror) (ask x .pagination call) := by
  refine ask_keeps fun log answer hlog => ?_
  refine hlog.concat (readOnly_question hclick hentry (by simp) answer) ?_ (by simp)
  intro hoffers
  unfold OffersNext at hoffers
  split at hoffers
  · rename_i heq
    exact hne _ _ (Event.called.inj heq).2.2.1
  · exact hoffers

/-- The click follows the offer, so that the two sides fail together. -/
theorem clickNext_keeps (pagination : PaginationConfig) :
    Keeps (Stays .read Mirror) (clickNext x pagination) := by
  unfold clickNext
  refine Keeps.bind (askNext_keeps rfl rfl (by simp)) fun nextBtn => ?_
  cases nextBtn with
  | none => exact keeps_pure _
  | some button =>
      refine Triple.bind (getDisabled_triple button) fun disabled => ?_
      by_cases hoffers : Option.getD disabled "" = ""
      · simp only [hoffers, reduceIte, ne_eq, not_true_eq_false]
        refine Triple.bind (elementClick_triple button) fun _ => ?_
        exact Keeps.bind (askNext_keeps rfl rfl (by simp)) fun _ => keeps_pure _
      · simp only [hoffers, reduceIte, ne_eq, not_false_eq_true]
        exact keeps_pure _

theorem extractPages_keeps (field : ListExtractionField) (pages : Nat) (items : List Json) :
    Keeps (Stays .read Mirror) (extractPages x field pages items) := by
  induction pages generalizing items with
  | zero => exact keeps_pure _
  | succ pages ih =>
      unfold extractPages
      refine Keeps.bind (askExtractor_keeps rfl rfl) fun rows => ?_
      cases rows with
      | nil => exact keeps_pure _
      | cons row rows =>
          refine Keeps.bind (extractRows_keeps field (row :: rows) items) fun items => ?_
          split
          · exact ih items
          · rename_i pagination _
            split
            · exact keeps_pure _
            · have hnext : Keeps (Stays .read Mirror) (nextPage x pagination) := by
                unfold nextPage
                refine Keeps.tryCatch (clickNext_keeps pagination) fun exc => ?_
                split
                · exact keeps_pure _
                · exact keeps_throw _
              refine Keeps.bind hnext fun goesOn => ?_
              split
              · exact ih items
              · exact keeps_pure _

/-- A field of the blueprint, a list or a single one. -/
theorem extractOne_keeps (site name : String) (field : FieldDef) :
    Keeps (Stays .read Mirror) (extractOne x site name field) := by
  cases field with
  | scalar field => exact extractField_keeps field name site
  | list field => exact Keeps.bind (extractPages_keeps field _ []) fun items => keeps_pure _

/-- All fields of the blueprint. -/
theorem extract_keeps (site : String) (fields : FieldDefs) :
    Keeps (Stays .read Mirror) (extract x site fields) := by
  induction fields with
  | nil => exact keeps_pure _
  | cons m fields ih =>
      unfold extract
      refine Keeps.bind (Keeps.tryCatch (extractOne_keeps site m.1 m.2) fun exc => ?_)
        fun value => Keeps.bind ih fun rest => keeps_pure _
      split
      · exact keeps_throw _
      · split
        · exact keeps_pure _
        · exact keeps_throw _

/-! ### The cascade -/

/-- Extraction with selectors that were cached for the page. -/
theorem extractWithCachedSelectors_keeps (selectors : Dict) (defs : FieldDefs)
    (site domain pagePath : String) :
    Keeps (Stays .read Mirror)
      (extractWithCachedSelectors x selectors defs site domain pagePath) := by
  unfold extractWithCachedSelectors
  split
  · exact keeps_throw _
  · exact keeps_pure _
  · refine Keeps.tryCatch ?_ fun exc => ?_
    · refine Keeps.bind (extract_keeps site _) fun result => ?_
      exact Keeps.bind (askAdaptive_keeps rfl rfl) fun _ => keeps_pure _
    · split
      · exact Keeps.bind (askAdaptive_keeps rfl rfl) fun _ => keeps_pure _
      · exact keeps_throw _

/-- The provider of a model is asked outside the page. -/
theorem withProvider_keeps {body : Drive (Option Dict)} (h : Keeps (Stays .read Mirror) body) :
    Keeps (Stays .read Mirror) (withProvider x body) := by
  unfold withProvider
  refine Keeps.bind (askAdaptive_keeps rfl rfl) fun configured => ?_
  split
  · refine Keeps.tryFinally (Keeps.tryCatch h fun exc => ?_) (askAdaptive_keeps rfl rfl)
    split
    · exact keeps_pure _
    · exact keeps_throw _
  · exact keeps_pure _

/-- What a model is shown is the page's content. -/
theorem extractWithLlm_keeps : Keeps (Stays .read Mirror) (extractWithLlm x) := by
  refine withProvider_keeps (Keeps.bind (askAdaptive_keeps rfl rfl) fun html => ?_)
  exact Keeps.bind (askAdaptive_keeps rfl rfl) fun data => keeps_pure _

/-- And a picture of it. -/
theorem extractWithMultimodal_keeps : Keeps (Stays .read Mirror) (extractWithMultimodal x) := by
  refine withProvider_keeps (Keeps.bind ?_ fun _ => ?_)
  · unfold fitViewport
    refine Keeps.bind (askAdaptive_keeps rfl rfl) fun exceeds => ?_
    split
    · exact askAdaptive_keeps rfl rfl
    · exact keeps_pure _
  · exact Keeps.bind (askAdaptive_keeps rfl rfl) fun _ => askAdaptive_keeps rfl rfl

/-- The selectors that a model has proposed. -/
theorem extractWithFallbackSelectors_keeps (plan : ExtractionPlan) (defs : FieldDefs)
    (site : String) :
    Keeps (Stays .read Mirror) (extractWithFallbackSelectors x plan defs site) := by
  unfold extractWithFallbackSelectors
  split
  · exact keeps_pure _
  · refine Keeps.tryCatch ?_ fun exc => ?_
    · exact Keeps.bind (extract_keeps site _) fun result => keeps_pure _
    · split
      · exact keeps_pure _
      · exact keeps_throw _

/-- One method after the other, until one finds something. -/
theorem firstFound_keeps (site : String) (methods : List (String × Drive (Option Dict)))
    (h : ∀ m ∈ methods, Keeps (Stays .read Mirror) m.2) :
    Keeps (Stays .read Mirror) (firstFound site methods) := by
  induction methods with
  | nil => exact keeps_throw _
  | cons m methods ih =>
      unfold firstFound
      refine Keeps.bind (h m List.mem_cons_self) fun data => ?_
      split
      · exact keeps_pure _
      · exact ih fun m' hm' => h m' (List.mem_cons_of_mem _ hm')

/-- The methods of adaptive extraction in their order. -/
theorem extractLlmAdaptive_keeps (plan : ExtractionPlan) (defs : FieldDefs) (site : String) :
    Keeps (Stays .read Mirror) (extractLlmAdaptive x plan defs site) := by
  unfold extractLlmAdaptive
  refine Keeps.bind ?_ fun pagePath => ?_
  · unfold getPagePath
    refine Keeps.tryCatch (Keeps.bind (askAdaptive_keeps rfl rfl) fun _ => keeps_pure _)
      fun exc => ?_
    split
    · exact keeps_pure _
    · exact keeps_throw _
  · refine Keeps.bind (askAdaptive_keeps rfl rfl) fun entry => ?_
    refine firstFound_keeps site _ ?_
    simp only [List.forall_mem_cons, List.not_mem_nil, false_implies, implies_true, and_true]
    refine ⟨?_, extractWithLlm_keeps, extractWithMultimodal_keeps,
      extractWithFallbackSelectors_keeps plan defs site⟩
    cases entry with
    | none => exact keeps_pure _
    | some selectors =>
        exact extractWithCachedSelectors_keeps selectors defs site plan.domain pagePath

/-- The extraction of a blueprint, whatever its strategy. -/
theorem extractData_keeps (blueprint : Blueprint) (site : String) (defs : FieldDefs) :
    Keeps (Stays .read Mirror) (extractData x blueprint site defs) := by
  unfold extractData
  split
  · exact keeps_pure _
  · split
    · exact extractLlmAdaptive_keeps blueprint.plan _ site
    · exact Keeps.bind (extract_keeps site _) fun data => keeps_pure _

end

/-! ## The engine -/

section

variable {x : Outside} {α : Type}

/-- Between the phases. -/
structure Between (w : World) : Prop where
  enabled : w.policy.enabled = true
  log : Mirror w.log

/-- At the end of a phase the log mirrors the verdicts. -/
theorem Stays.between {p : ExecutionPhase} {w : World} (h : Stays p Mirror w) : Between w :=
  ⟨h.enabled, h.log⟩

/-- A phase that is entered, whatever it ends in. -/
theorem setPhase_bind_keeps {p : ExecutionPhase} {c : Drive α} (h : Keeps (Stays p Mirror) c) :
    Keeps Between (setPhase p >>= fun _ => c) := by
  have hset : Triple Between (setPhase p) (fun _ => Stays p Mirror) fun _ => Between :=
    triple_modify _ fun _ hw => ⟨hw.enabled, rfl, hw.log⟩
  refine Triple.bind hset fun _ => ?_
  exact h.conseq (fun _ hw => hw) (fun _ _ hw => hw.between) fun _ _ hw => hw.between

/-- What keeps every phase keeps what is between them. -/
theorem keeps_between {c : Drive α} (h : ∀ p, Keeps (Stays p Mirror) c) : Keeps Between c := by
  intro w hw
  exact (h w.policy.phase).conseq (fun _ hw => hw) (fun _ _ hw => hw.between)
    (fun _ _ hw => hw.between) w ⟨hw.enabled, rfl, hw.log⟩

/-- A call of the engine itself, which opens and closes pages. -/
theorem askEngine_keeps {call : Call} (hclick : call.isClick = false)
    (hentry : call.isEntry = false) : Keeps Between (ask x .engine call) :=
  keeps_between fun _ => askQuiet_keeps hclick hentry (by simp) (by simp)

/-- A list of steps outside the read phase. -/
theorem runSteps_keeps {executor : StepExecutor} (hguarded : executor.guarded = true)
    {p : ExecutionPhase} (hp : p ≠ .read) (steps : List BlueprintStep) :
    Keeps (Stays p Mirror) (executeSteps x executor steps) :=
  executeSteps_keeps (fun _ _ hlog he => he.mirror hp hlog) hguarded steps

/-- The steps of the login, and the challenge after them. -/
theorem authenticate_keeps {executor : StepExecutor} (hguarded : executor.guarded = true)
    (blueprint : Blueprint) (site sessionId : String) :
    Keeps Between (authenticate x executor blueprint site sessionId) := by
  unfold authenticate
  have hsteps : Keeps Between (setPhase .auth >>= fun _ =>
      executeSteps x executor blueprint.authSteps) :=
    setPhase_bind_keeps (runSteps_keeps hguarded (by simp) blueprint.authSteps)
  rw [← bind_assoc]
  refine Keeps.bind hsteps fun _ => ?_
  split
  · exact keeps_pure _
  · exact setPhase_bind_keeps (handleMfa_keeps rfl _ site sessionId)

/-- The steps that log out. -/
theorem runCleanup_keeps {executor : StepExecutor} (hguarded : executor.guarded = true)
    (cleanup : List BlueprintStep) : Keeps Between (runCleanup x executor cleanup) := by
  unfold runCleanup
  split
  · exact keeps_pure _
  · refine setPhase_bind_keeps (Keeps.tryCatch ?_ fun exc => ?_)
    · exact runSteps_keeps hguarded (by simp) _
    · split
      · exact keeps_pure _
      · exact keeps_throw _

/-- Login, extraction and cleanup. -/
theorem runBlueprint_keeps (blueprint : Blueprint)
    (site username password sessionId : String) (extractFields : Option (List String)) :
    Keeps Between
      (runBlueprint x true blueprint site username password sessionId extractFields) := by
  unfold runBlueprint
  dsimp only
  refine Keeps.bind (authenticate_keeps rfl blueprint site sessionId) fun _ => ?_
  rw [← bind_assoc]
  refine Keeps.bind (setPhase_bind_keeps (extractData_keeps blueprint site _)) fun r => ?_
  refine Keeps.bind (runCleanup_keeps rfl blueprint.cleanup) fun _ => ?_
  exact triple_get_bind fun w hw => hw

/-- What becomes of an exception of a blueprint. -/
theorem blueprintRaised_keeps (site : String) (exc : Exc) :
    Keeps Between (blueprintRaised true site exc) := by
  unfold blueprintRaised
  split
  · exact triple_get_bind fun w hw => hw
  · exact keeps_throw _
  · exact keeps_throw _
  · exact keeps_throw _

/-- The page is closed and its context released. -/
theorem release_keeps (opened : Bool) : Keeps Between (release x opened) := by
  refine Keeps.bind ?_ fun _ => askEngine_keeps rfl rfl
  unfold closePage
  split
  · refine Keeps.tryCatch (askEngine_keeps rfl rfl) fun exc => ?_
    split
    · exact keeps_pure _
    · exact keeps_throw _
  · exact keeps_pure _

theorem executeBlueprint_keeps (blueprint : Blueprint)
    (site username password sessionId : String) (extractFields : Option (List String)) :
    Keeps Between
      (executeBlueprint x true blueprint site username password sessionId extractFields) := by
  unfold executeBlueprint
  refine Keeps.bind (askEngine_keeps rfl rfl) fun _ => ?_
  refine Keeps.bind (Keeps.tryCatch ?_ fun exc => keeps_pure _) fun opened => ?_
  · exact Keeps.bind (askEngine_keeps rfl rfl) fun _ => keeps_pure _
  · split
    · exact Keeps.tryFinally (blueprintRaised_keeps site _) (release_keeps false)
    · exact Keeps.tryFinally (Keeps.tryCatch
        (runBlueprint_keeps blueprint site username password sessionId extractFields)
        fun exc => blueprintRaised_keeps site exc) (release_keeps true)

end

/-- With the policy on, an execution is strictly read-only after the login exactly
when the page never offers the extractor a next page. -/
theorem strictReadOnly_iff (x : Outside) (blueprint : Blueprint)
    (site username password sessionId : String) (extractFields : Option (List String)) :
    StrictReadOnly (executionLog x true blueprint site username password sessionId extractFields) ↔
      NextNeverOffered
        (executionLog x true blueprint site username password sessionId extractFields) := by
  have hinit : Between (World.init true) := by
    refine ⟨rfl, ⟨iff_of_true Traces.each_nil ?_, ?_⟩⟩
    · intro e he
      cases he
    · intro selector reason he
      cases he
  have hend := (executeBlueprint_keeps (x := x) blueprint site username password sessionId
    extractFields).state hinit
  exact hend.log.iff

/-! ### A page with a next button -/

theorem not_strictReadOnly_of_elementClick {log : List Event} {caller : Caller}
    {button : Element} {answer : Except Fault Unit} (hnone : NoVerdict log)
    (h : .called .read caller (.elementClick button) answer ∈ log) : ¬ StrictReadOnly log := by
  intro hstrict
  rcases List.append_of_mem h with ⟨before, after, hlog⟩
  refine not_readOnly_elementClick ?_ caller button answer (hstrict before _ after hlog)
  intro selector reason hmem
  apply hnone selector reason
  rw [hlog]
  exact List.mem_append_left _ hmem

/-- Two pages of transactions, with a button for the next page. -/
def transactions : Blueprint where
  authSteps := []
  plan := { adaptive := false, domain := "bank.example", fallbackSelectors := [] }
  extract := [("transactions", .list {
    selector := .str "tr"
    fields := []
    pagination := some { nextSelector := "button.pay-now", maxPages := 2 } })]

/-- A page with one row and the button. Nothing else is asked of it. -/
def bankPage : Outside where
  py := {
    lower := Text.asciiLower
    strOf _ := ""
    floatRepr s := s }
  answer _
    | .querySelectorAll _ => .ok [1]
    | .querySelector _ => .ok (some 2)
    | .getAttribute .. => .ok none
    | .acquireContext | .newPage | .elementClick _ | .waitForTimeout _ | .close
    | .releaseContext => .ok ()
    | _ => .error (.error "")
  convert _ _ text := .ok (.str text)

/-- A step that fills in the branch of a conditional, after the login. -/
theorem transfer_strictReadOnly :
    Keeps (Stays .read StrictReadOnly)
      (executeSteps bankPage { vars := [], allowJsExecution := true, guarded := true, site := "bank" }
        [.mk { action := .conditional, conditionSelector := some "#transfer" }
          [.mk { action := .fill, selector := some "#amount", value := some "100" } [] []] []]) :=
  executeSteps_strictReadOnly rfl _

theorem transactions_log :
    executionLog bankPage true transactions "bank" "user" "secret" "session" none =
      [.called .auth .engine .acquireContext (.ok ()),
        .called .auth .engine .newPage (.ok ()),
        .called .read .extractor (.querySelectorAll (.str "tr")) (.ok [1]),
        .called .read .pagination (.querySelector (.str "button.pay-now")) (.ok (some 2)),
        .called .read .pagination (.getAttribute 2 "disabled") (.ok none),
        .called .read .pagination (.elementClick 2) (.ok ()),
        .called .read .pagination (.waitForTimeout 2000) (.ok ()),
        .called .read .extractor (.querySelectorAll (.str "tr")) (.ok [1]),
        .called .read .engine .close (.ok ()),
        .called .read .engine .releaseContext (.ok ())] := rfl

/-- The extractor clicks a button that `evaluate_click` would have found risky. -/
theorem transactions_not_strictReadOnly :
    ¬ (∀ (x : Outside) (blueprint : Blueprint) (site username password sessionId : String)
        (extractFields : Option (List String)),
      StrictReadOnly
        (executionLog x true blueprint site username password sessionId extractFields)) ∧
      (ReadOnlyExecutionPolicy.evaluateClick bankPage.py { phase := .read } "button.pay-now"
        []).isSome := by
  refine ⟨fun hall => ?_, by decide +kernel⟩
  have hstrict := hall bankPage transactions "bank" "user" "secret" "session" none
  rw [transactions_log] at hstrict
  have hclick : .called .read .pagination (.elementClick 2) (.ok ()) ∈
      executionLog bankPage true transactions "bank" "user" "secret" "session" none := by
    rw [transactions_log]
    simp
  rw [transactions_log] at hclick
  refine not_strictReadOnly_of_elementClick ?_ hclick hstrict
  intro selector reason
  simp

end Plaidify.Engine
