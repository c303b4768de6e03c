import Plaidify.Mfa.Codes

/-!
# No code is made up

Whatever the managers do, crash or miss, a `wait_for_code` that returns a code returns one
for which `submit_code` has returned `True` at some manager: an object, a payload and a
code on its way to either hold no others. This is the safety half of the life of a code;
that the code also arrives holds only under the conditions of `Safe`.
-/

namespace Plaidify.Mfa

/-- Every code that was returned was accepted. -/
def Returned (s : State) : Prop :=
  ∀ r ∈ s.reports, ∀ code, r.code = some code → code ∈ s.accepted

variable {s t : State} {id : Nat} {m : Manager}

/-! ## The two ways a step can matter -/

/-- A step that reports nothing and forgets no accepted code. -/
theorem Returned.frame (h : Returned s) (hreports : t.reports = s.reports)
    (haccepted : s.accepted ⊆ t.accepted) : Returned t := by
  intro r hr code hcode
  rw [hreports] at hr
  exact haccepted (h r hr code hcode)

/-- A manager that goes on returns nothing. -/
theorem Returned.set (h : Returned s) : Returned (s.set id m) :=
  h.frame rfl (List.Subset.refl _)

/-- A `wait_for_code` that ends with nothing or with an accepted code. -/
theorem Returned.report (h : Returned s) {code : Option String}
    (hcode : ∀ c, code = some c → c ∈ s.accepted) : Returned (s.report code) := by
  intro r hr c hc
  rcases List.mem_cons.mp hr with rfl | hr
  · exact hcode c hc
  · exact h r hr c hc

/-! ## The calls of a manager -/

/-- A creation returns no code. -/
theorem createSession_returned (h : Returned s) (challenge : Challenge) :
    Returned (createSession s id m challenge) := by
  unfold createSession
  split
  · exact h.frame rfl (List.Subset.refl _)
  · exact h.set

/-- Neither does a submission. -/
theorem submitCode_returned (h : Returned s) (code : String) : Returned (submitCode s id m code) := by
  unfold submitCode
  split
  · exact h
  · split
    · exact h.set
    · split
      · exact h.set
      · exact h.frame rfl (List.subset_cons_self _ _)

/-- Nor a read. -/
theorem getSession_returned (h : Returned s) : Returned (getSession s id m) := by
  unfold getSession
  split
  · exact h
  · split <;> exact h.set

/-- An object that has its code already. -/
theorem startWait_returned (h : Returned s) (hm : m.Known s.accepted) {timeout : Option Nat}
    (hstart : startWait s id m timeout = some t) : Returned t := by
  unfold startWait at hstart
  split at hstart
  · rename_i session hentry _
    split at hstart
    · obtain rfl := Option.some.inj hstart
      exact h.report (hm.entry session hentry)
    · obtain rfl := Option.some.inj hstart
      exact h.set
  · cases hstart

/-- A wait that is woken returns the code of its object. -/
theorem wake_returned (h : Returned s) {object : MfaSession} (hobject : Known s.accepted object) :
    Returned (wake s id m object) := by
  unfold wake
  split
  · exact h.set.report hobject
  · exact h.set

/-- The payload that was read holds an accepted code or none, and a
`wait_for_code` that gives up returns none. -/
theorem poll_returned (h : Returned s) (w : Waiter) {found : Option MfaSession}
    (hfound : ∀ payload, found = some payload → Known s.accepted payload) :
    Returned (poll s id m w found) := by
  unfold poll
  split
  · rename_i code hcode
    obtain ⟨payload, hpayload, -, hpcode⟩ := polled_eq_some hcode
    have hmem : code ∈ s.accepted := hfound payload hpayload code hpcode
    refine h.set.report ?_
    intro c hc
    obtain rfl := Option.some.inj hc
    exact hmem
  · split
    · exact h.set.report (by simp)
    · exact h.set

/-- The second command of a call returns what the first has found. -/
theorem finishCall_returned (h : Returned s) (hm : m.Known s.accepted) {call : Call}
    (hcall : m.call = some call) (hfinish : finishCall s id m call = some t) : Returned t := by
  cases call with
  | creating challenge found =>
      obtain rfl := Option.some.inj hfinish
      exact h.frame rfl (List.Subset.refl _)
  | submitting code payload =>
      obtain rfl := Option.some.inj hfinish
      exact h.frame rfl (List.subset_cons_self _ _)
  | polling found =>
      obtain ⟨w, -, rfl⟩ := Option.map_eq_some_iff.mp hfinish
      exact poll_returned h w fun payload hpayload => hm.found _ payload hcall hpayload
  | deleting rest =>
      obtain rfl := Option.some.inj hfinish
      exact h.frame rfl (List.Subset.refl _)

/-! ## Every run -/

/-- Every step returns accepted codes only. -/
theorem step_returned {l : Label} (hs : Inv s) (h : Returned s) (hstep : step s l = some t) :
    Returned t := by
  cases l with
  | create id challenge =>
      obtain rfl := whenIdle_eq hstep
      exact createSession_returned h challenge
  | submit id code =>
      obtain rfl := whenIdle_eq hstep
      exact submitCode_returned h code
  | finish id =>
      obtain ⟨call, hcall, hfinish⟩ := Option.bind_eq_some_iff.mp hstep
      exact finishCall_returned h (hs.managers id) hcall hfinish
  | get id =>
      obtain rfl := whenIdle_eq hstep
      exact getSession_returned h
  | remove id =>
      obtain rfl := whenIdle_eq hstep
      exact h.frame rfl (List.Subset.refl _)
  | startWait id timeout =>
      obtain ⟨u, hu, hidle⟩ := Option.bind_eq_some_iff.mp hstep
      obtain rfl := whenIdle_eq hidle
      exact startWait_returned h (hs.managers id) hu
  | wake id =>
      simp only [step] at hstep
      split at hstep
      · cases hstep
      · rename_i w hwaiter
        split at hstep
        · cases hstep
        · rename_i object hobject
          obtain rfl := whenIdle_eq hstep
          exact wake_returned h ((hs.managers id).waited hwaiter hobject)
  | cleanup id =>
      simp only [step] at hstep
      split at hstep
      · obtain rfl := Option.some.inj hstep
        exact h
      · obtain rfl := whenIdle_eq hstep
        exact h.set
  | crash id =>
      obtain rfl := Option.some.inj hstep
      exact h.set
  | wait ms =>
      obtain rfl := Option.some.inj hstep
      exact h

/-- In every run of any number of managers, every code that a `wait_for_code` returned was
accepted by a `submit_code`. -/
theorem returned_accepted {now : Nat} {run : List Label}
    (h : Runs.exec step (init now) run = some s) :
    ∀ r ∈ s.reports, ∀ code, r.code = some code → code ∈ s.accepted :=
  (Runs.invariant (I := fun s => Inv s ∧ Returned s)
    (fun _ _ _ hs hstep => ⟨step_inv hs.1 hstep, step_returned hs.1 hs.2 hstep⟩)
    ⟨init_inv now, fun _ hr => absurd hr List.not_mem_nil⟩ h).2

/-- The manager that took the code crashes, and the engine finds it in Redis. -/
theorem codeSubmitted_accepted :
    ∃ u, Runs.exec step (init 0) (codeSubmitted ++ [.crash 2, .wake 1, .finish 1]) = some u ∧
      u.reports.map Report.code = [some "123456"] ∧
      ∀ r ∈ u.reports, ∀ code, r.code = some code → code ∈ u.accepted :=
  ⟨_, rfl, rfl, returned_accepted
    (show Runs.exec step (init 0) (codeSubmitted ++ [.crash 2, .wake 1, .finish 1]) = some _ from
      rfl)⟩

end Plaidify.Mfa
