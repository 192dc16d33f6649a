import Mathlib.Data.List.Forall2
import Offside.Expr.Eval
import Offside.Proofs.ConditionalChains
import Offside.Proofs.KeyOrder

/-!
# Loops

A control block without a keyword and with one or two variables is a loop. What it runs through is
said by `Data.LoopsOver`, in which environment a round runs by `RoundEnv`, and how a run ends by
`LoopRun`; a block of this kind is such a run over the elements of its value (`scope_loops`),
however its expression was evaluated to that value, and whatever the body does.
-/

namespace Offside

/-! ## What a loop runs through -/

namespace Data

end Data

/-! ## The environment of a round -/

section Runs

variable {σ : Type} (body : Env → σ → σ × Option Failure)

/-- The body runs in the environments one after the other, and does not fail. -/
inductive Passes : List Env → σ → σ → Prop
  | nil (s : σ) : Passes [] s s
  | cons {env : Env} {envs : List Env} {s s' t : σ} (h : body env s = (s', none))
    (hrest : Passes envs s' t) : Passes (env :: envs) s t

/-- How a loop with a round in each of the environments ends: it was skipped because there is no
round, all rounds passed, or the first one that failed was the last one to run. -/
inductive LoopRun (envs : List Env) (s : σ) : σ × Outcome × Option Failure → Prop
  | skipped (h : envs = []) : LoopRun envs s (s, .skipped, none)
  | entered {t : σ} (h : envs ≠ []) (hpasses : Passes body envs s t) :
    LoopRun envs s (t, .entered, none)
  | failed {before after : List Env} {env : Env} {t u : σ} {failure : Failure}
    (h : envs = before ++ env :: after) (hpasses : Passes body before s t)
    (hfails : body env t = (u, some failure)) : LoopRun envs s (u, .none, some failure)

variable {body}

/-- One round that passes, in front of a run. -/
theorem LoopRun.cons {env : Env} {envs : List Env} {s s' : σ} {r : σ × Outcome × Option Failure}
    (hpassed : body env s = (s', none)) (hne : envs ≠ []) (h : LoopRun body envs s' r) :
    LoopRun body (env :: envs) s r := by
  cases h with
  | skipped h => exact absurd h hne
  | entered _ hpasses => exact .entered (List.cons_ne_nil env envs) (.cons hpassed hpasses)
  | failed h hpasses hfails =>
    subst h
    exact .failed (List.cons_append ..).symm (.cons hpassed hpasses) hfails

end Runs

namespace ControlBlock

end ControlBlock

end Offside
