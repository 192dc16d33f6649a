import Offside.Render.Evaluator

/-!
# Expression languages

What an expression means is a matter of the language that it is written in. All that is known of a
language is that it makes a plan of a text, or refuses it, and that it runs a plan in an
environment. What does not depend on it is how a text is taken: without the blanks around it, and
not at all if nothing remains.
-/

namespace Offside

/-- A language of expressions. -/
structure Language where
  /-- What an expression is compiled to. -/
  Plan : Type
  /-- The plan of a text that is not empty and has no blanks around it, if it is an expression. -/
  plan? : Text → Option Plan
  /-- The value of a plan in an environment. -/
  run : Plan → Env → Except Failure Data

namespace Language

variable (l : Language)

/-- The plan of the expression that a text writes. Blanks around it do not count. -/
def compile (source : Text) : Except ExprProblem l.Plan :=
  let source := Text.trim source
  if source.isEmpty then .error .empty
  else match l.plan? source with
    | some plan => .ok plan
    | none => .error (.invalid source)

/-- Compiles an expression for nothing but the problem with it. -/
def check (source : Text) : Except ExprProblem Unit := (l.compile source).map fun _ => ()

/-- The value of the expression that a text writes. -/
def evaluate : Evaluation := fun source env =>
  match l.compile source with
  | .error problem => .error (.expression problem)
  | .ok plan => l.run plan env

end Language
end Offside
