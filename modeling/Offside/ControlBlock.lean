import Offside.Data.Truth
import Offside.Render.Evaluator

/-!
# Control blocks

A control block may start with one of the keywords `if`, `unless`, `else if` and `else`. Without a
keyword its expression is a condition or, with lambda variables, what a loop runs through. How the
expressions themselves are evaluated is given (`Evaluator.ofEvaluation`).
-/

namespace Offside

namespace ControlBlock

/-- The name under which the whole context is known. -/
def contextName : Text := "this".toList

/-! ## The environment of a context -/

/-- The public fields of a record and the entries of a map with text keys, by name. -/
def fieldsOf : Data → List (Text × Data)
  | .record _ fields _ => fields.filter fun f => Data.isPublic f.1
  | .dict (.int _) _ _ _ => []
  | .dict _ _ _ entries => entries.map fun (k, v) => (k.keyText, v)
  | _ => []

/-- The names that a context brings: its methods, the fields and entries of what it is or points
to, and the context itself. -/
def bind (context : Data) : Env :=
  let env := context.methods.foldl (fun env (n, v) => Table.set env n v) []
  let env := (fieldsOf context.deref).foldl (fun env (n, v) => Table.set env n v) env
  Table.set env contextName context

/-! ## Blocks -/

/-- The condition after a keyword, which a space or an opening parenthesis must follow. -/
def afterKeyword? (keyword : String) (source : Text) : Option Text :=
  match Text.cut? keyword.toList source with
  | some (c :: rest) => if c = ' ' || c = '(' then some (Text.trim (c :: rest)) else none
  | _ => none

/-- Runs the body once if the condition holds, or if it does not where `negate` asks for that. -/
def conditional (evaluate : Evaluation) (condition : Text) (negate : Bool) (env : Env) :
    Schedule :=
  match evaluate condition env with
  | .error failure => .fail failure
  | .ok v => if v.truthy == negate then .skip .skipped else .once env

/-- A block that goes on from the one before: it runs as `run` says if that one was skipped. -/
def following (prior : Outcome) (run : Schedule) : Schedule :=
  match prior with
  | .none => .fail .elseWithoutIf
  | .entered => .skip .entered
  | .skipped => run

/-- The environment of one round of a loop: one variable is the item, two are the key and the
item. -/
def loopEnv (env : Env) (vars : List Text) (key item : Data) : Env :=
  match vars with
  | [x] => env.set x item
  | [k, x] => (env.set k key).set x item
  | _ => env

/-- Runs the body once per element; without any the block is skipped. -/
def rounds (envOf : (key item : Data) → Env) : Data.Elements → Schedule
  | .items [] => .skip .skipped
  | .items entries => .each (entries.map fun (key, item) => envOf key item)
  | .below 0 => .skip .skipped
  | .below n => .counting (fun i => envOf (Data.counted i) (Data.counted i)) 0 n

/-- A loop over a value. -/
def loop (v : Data) (vars : List Text) (env : Env) : Schedule :=
  if 2 < vars.length then .fail .tooManyVars
  else match v.elements? with
    | none => .fail (.notIterable v.typeName)
    | some elements => rounds (loopEnv env vars) elements

/-- How a block without a keyword runs: as a condition, or as a loop if it has variables. -/
def unkeyed (evaluate : Evaluation) (source : Text) (vars : List Text) (env : Env) : Schedule :=
  match evaluate source env with
  | .error failure => .fail failure
  | .ok v =>
    if vars.isEmpty then
      if v.truthy then .once env else .skip .skipped
    else loop v vars env

/-- How a control block runs. -/
def scope (evaluate : Evaluation) (source : Text) (vars : List Text) (env : Env)
    (prior : Outcome) : Schedule :=
  let source := Text.trim source
  if source = "else".toList then following prior (.once env)
  else match afterKeyword? "else if" source with
    | some condition => following prior (conditional evaluate condition false env)
    | none =>
      match afterKeyword? "if" source with
      | some condition => conditional evaluate condition false env
      | none =>
        match afterKeyword? "unless" source with
        | some condition => conditional evaluate condition true env
        | none => unkeyed evaluate source vars env

end ControlBlock

/-- The evaluator that evaluates expressions as it is told to, and runs control blocks by them. -/
def Evaluator.ofEvaluation (evaluate : Evaluation) : Evaluator where
  bind := ControlBlock.bind
  evaluate := evaluate
  scope := ControlBlock.scope evaluate

end Offside
