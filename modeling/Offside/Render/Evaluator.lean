import Offside.Data
import Offside.Failure

/-!
# Evaluators

Rendering leaves expressions and control blocks to an evaluator. For a control block the evaluator
answers with a schedule: it may have the body run in some environment, learn whether that failed,
and go on from there, until it stops with an outcome. The outcome tells the next sibling block,
such as an `else`, what happened here.
-/

namespace Offside

/-- What a control block did. -/
inductive Outcome where
  /-- There was no control block directly before. -/
  | none
  /-- The body did not run. -/
  | skipped
  /-- The body ran. -/
  | entered
deriving DecidableEq, Repr

/-- How the body of a control block is run: step by step, each step knowing whether the body failed
in the one before. -/
inductive Schedule where
  /-- The block is done, with or without a failure. -/
  | stop (outcome : Outcome) (failure : Option Failure)
  /-- The body runs in the environment; `next` tells how to go on. -/
  | enter (env : Env) (next : Option Failure → Schedule)

namespace Schedule

/-- Carries out a schedule. `body` runs the body in an environment: it changes a state and may
fail. -/
def exec {σ : Type} (body : Env → σ → σ × Option Failure) :
    Schedule → σ → σ × Outcome × Option Failure
  | stop outcome failure, s => (s, outcome, failure)
  | enter env next, s =>
    let (s, failure) := body env s
    exec body (next failure) s

theorem exec_enter {σ : Type} (body : Env → σ → σ × Option Failure) (env : Env)
    (next : Option Failure → Schedule) (s : σ) :
    exec body (enter env next) s = exec body (next (body env s).2) (body env s).1 := rfl

/-- Two bodies that keep a relation between their states and fail alike are carried out alike: the
schedule sees nothing of the state. -/
theorem exec_related {σ τ : Type} {R : σ → τ → Prop} {f : Env → σ → σ × Option Failure}
    {g : Env → τ → τ × Option Failure}
    (hstep : ∀ env s t, R s t → R (f env s).1 (g env t).1 ∧ (f env s).2 = (g env t).2)
    (schedule : Schedule) {s : σ} {t : τ} (h : R s t) :
    R (schedule.exec f s).1 (schedule.exec g t).1 ∧
      (schedule.exec f s).2 = (schedule.exec g t).2 := by
  induction schedule generalizing s t with
  | stop outcome failure => exact ⟨h, rfl⟩
  | enter env next ih =>
    obtain ⟨hrelated, halike⟩ := hstep env s t h
    rw [exec_enter, exec_enter, ← halike]
    exact ih (f env s).2 hrelated

/-- Stops without running the body. -/
def skip (outcome : Outcome) : Schedule := stop outcome none

/-- Stops with a failure before the body ran. -/
def fail (failure : Failure) : Schedule := stop .none (some failure)

/-- Runs the body once. -/
def once (env : Env) : Schedule := enter env fun failure => stop .entered failure

/-- Runs the body in one environment after the other, up to the first failure. -/
def each : List Env → Schedule
  | [] => stop .entered none
  | env :: envs => enter env fun
    | some failure => stop .none (some failure)
    | none => each envs

/-- Runs the body in the environments of `i`, `i + 1` and so on, `count` of them, up to the first
failure. They are made one by one, as the body gets to them. -/
def counting (env : Nat → Env) (i : Nat) : (count : Nat) → Schedule
  | 0 => stop .entered none
  | count + 1 => enter (env i) fun
    | some failure => stop .none (some failure)
    | none => counting env (i + 1) count

end Schedule

/-- How expressions are evaluated: the value of a text in an environment. -/
abbrev Evaluation := (source : Text) → Env → Except Failure Data

/-- What evaluates the expressions of a template and runs its control blocks. -/
structure Evaluator where
  /-- The environment of a context. -/
  bind : Data → Env
  /-- The value of an expression. -/
  evaluate : Evaluation
  /-- How a control block runs, given its source, its lambda variables and the outcome of the block
  directly before it. -/
  scope : (source : Text) → (vars : List Text) → Env → (prior : Outcome) → Schedule

/-- How expressions are evaluated if there may be no evaluator. -/
def Evaluator.evaluation : Option Evaluator → Evaluation
  | none => fun _ _ => .error .noEvaluator
  | some e => e.evaluate

end Offside
