/-!
# Structured programs

Programs of actions and conditionals over a state that the outside keeps. An action
completes or fails. A condition is tested once: it holds, it is missed, or testing
it fails. A program stops at its first failure.

The rules of `Runs` are the meaning of a program; a program has exactly one run from
every state (`runs_eq`, `exists_runs`).
-/

namespace Structured

/-- How a program ends. -/
inductive Ending where
  | completed
  | failed
deriving Repr, DecidableEq

/-- How the test of a condition comes out. -/
inductive Verdict where
  | holds
  | missed
  | failed
deriving Repr, DecidableEq

/-- Statements over actions `α` and conditions `γ`. -/
inductive Stmt (α γ : Type) where
  | act (action : α)
  | branch (condition : γ) (thenStmts elseStmts : List (Stmt α γ))

/-- What actions and tests do to a state. -/
structure Machine (σ α γ : Type) where
  act : α → σ → Ending × σ
  test : γ → σ → Verdict × σ

variable {σ α γ : Type} (m : Machine σ α γ)

mutual

/-- The runs of a list of statements. -/
inductive Runs : List (Stmt α γ) → σ → Ending → σ → Prop where
  | nil (s : σ) : Runs [] s .completed s
  | next {stmt : Stmt α γ} {stmts : List (Stmt α γ)} {s t u : σ} {e : Ending}
      (first : RunsStmt stmt s .completed t) (rest : Runs stmts t e u) :
      Runs (stmt :: stmts) s e u
  /-- Nothing runs after a failure. -/
  | stop {stmt : Stmt α γ} {stmts : List (Stmt α γ)} {s t : σ}
      (first : RunsStmt stmt s .failed t) : Runs (stmt :: stmts) s .failed t

/-- The runs of a statement. -/
inductive RunsStmt : Stmt α γ → σ → Ending → σ → Prop where
  | act {action : α} {s t : σ} {e : Ending} (h : m.act action s = (e, t)) :
      RunsStmt (.act action) s e t
  | thenBranch {condition : γ} {thenStmts elseStmts : List (Stmt α γ)} {s t u : σ} {e : Ending}
      (h : m.test condition s = (.holds, t)) (run : Runs thenStmts t e u) :
      RunsStmt (.branch condition thenStmts elseStmts) s e u
  | elseBranch {condition : γ} {thenStmts elseStmts : List (Stmt α γ)} {s t u : σ} {e : Ending}
      (h : m.test condition s = (.missed, t)) (run : Runs elseStmts t e u) :
      RunsStmt (.branch condition thenStmts elseStmts) s e u
  | noBranch {condition : γ} {thenStmts elseStmts : List (Stmt α γ)} {s t : σ}
      (h : m.test condition s = (.failed, t)) :
      RunsStmt (.branch condition thenStmts elseStmts) s .failed t

end

variable {m}

/-! ## One run from every state -/

mutual

theorem exists_runs : ∀ (stmts : List (Stmt α γ)) (s : σ), ∃ e t, Runs m stmts s e t
  | [], s => ⟨.completed, s, .nil s⟩
  | stmt :: stmts, s => by
      rcases exists_runsStmt stmt s with ⟨e, t, hfirst⟩
      cases e with
      | completed =>
          rcases exists_runs stmts t with ⟨e, u, hrest⟩
          exact ⟨e, u, .next hfirst hrest⟩
      | failed => exact ⟨.failed, t, .stop hfirst⟩

theorem exists_runsStmt : ∀ (stmt : Stmt α γ) (s : σ), ∃ e t, RunsStmt m stmt s e t
  | .act action, s => ⟨_, _, .act rfl⟩
  | .branch condition thenStmts elseStmts, s => by
      cases htest : m.test condition s with
      | mk verdict t =>
          cases verdict with
          | holds =>
              rcases exists_runs thenStmts t with ⟨e, u, hrun⟩
              exact ⟨e, u, .thenBranch htest hrun⟩
          | missed =>
              rcases exists_runs elseStmts t with ⟨e, u, hrun⟩
              exact ⟨e, u, .elseBranch htest hrun⟩
          | failed => exact ⟨.failed, t, .noBranch htest⟩

end

mutual

theorem runs_eq : ∀ {stmts : List (Stmt α γ)} {s t t' : σ} {e e' : Ending},
    Runs m stmts s e t → Runs m stmts s e' t' → e = e' ∧ t = t'
  | [], _, _, _, _, _, .nil _, .nil _ => ⟨rfl, rfl⟩
  | stmt :: stmts, s, t, t', e, e', h, h' => by
      cases h with
      | next hfirst hrest =>
          cases h' with
          | next hfirst' hrest' =>
              obtain ⟨-, rfl⟩ := runsStmt_eq hfirst hfirst'
              exact runs_eq hrest hrest'
          | stop hfirst' => cases (runsStmt_eq hfirst hfirst').1
      | stop hfirst =>
          cases h' with
          | next hfirst' _ => cases (runsStmt_eq hfirst hfirst').1
          | stop hfirst' => exact runsStmt_eq hfirst hfirst'

theorem runsStmt_eq : ∀ {stmt : Stmt α γ} {s t t' : σ} {e e' : Ending},
    RunsStmt m stmt s e t → RunsStmt m stmt s e' t' → e = e' ∧ t = t'
  | .act action, s, t, t', e, e', .act h, .act h' => by
      rw [h] at h'
      obtain ⟨rfl, rfl⟩ := Prod.mk.inj h'
      exact ⟨rfl, rfl⟩
  | .branch condition thenStmts elseStmts, s, t, t', e, e', h, h' => by
      -- the verdict is one, and so is the branch
      cases h with
      | thenBranch htest hrun =>
          cases h' with
          | thenBranch htest' hrun' =>
              obtain ⟨-, rfl⟩ := Prod.mk.inj (htest.symm.trans htest')
              exact runs_eq hrun hrun'
          | elseBranch htest' _ => cases htest.symm.trans htest'
          | noBranch htest' => cases htest.symm.trans htest'
      | elseBranch htest hrun =>
          cases h' with
          | thenBranch htest' _ => cases htest.symm.trans htest'
          | elseBranch htest' hrun' =>
              obtain ⟨-, rfl⟩ := Prod.mk.inj (htest.symm.trans htest')
              exact runs_eq hrun hrun'
          | noBranch htest' => cases htest.symm.trans htest'
      | noBranch htest =>
          cases h' with
          | thenBranch htest' _ => cases htest.symm.trans htest'
          | elseBranch htest' _ => cases htest.symm.trans htest'
          | noBranch htest' =>
              obtain ⟨-, rfl⟩ := Prod.mk.inj (htest.symm.trans htest')
              exact ⟨rfl, rfl⟩

end

/-! ## Sequences -/

/-- What ends in a part that fails from every state fails. -/
theorem exists_runs_append_failed {q : List (Stmt α γ)}
    (hq : ∀ s, ∃ t, Runs m q s .failed t) (p : List (Stmt α γ)) (s : σ) :
    ∃ t, Runs m (p ++ q) s .failed t := by
  induction p generalizing s with
  | nil => exact hq s
  | cons stmt p ih =>
      rcases exists_runsStmt stmt s with ⟨e, t, hfirst⟩
      cases e with
      | completed =>
          rcases ih t with ⟨u, hrest⟩
          exact ⟨u, .next hfirst hrest⟩
      | failed => exact ⟨t, .stop hfirst⟩

/-- Statements that complete from every state complete one after the other. -/
theorem exists_runs_completed {p : List (Stmt α γ)}
    (hp : ∀ stmt ∈ p, ∀ s, ∃ t, RunsStmt m stmt s .completed t) (s : σ) :
    ∃ t, Runs m p s .completed t := by
  induction p generalizing s with
  | nil => exact ⟨s, .nil s⟩
  | cons stmt p ih =>
      rcases hp stmt List.mem_cons_self s with ⟨t, hfirst⟩
      rcases ih (fun stmt hstmt => hp stmt (List.mem_cons_of_mem _ hstmt)) t with ⟨u, hrest⟩
      exact ⟨u, .next hfirst hrest⟩

end Structured
