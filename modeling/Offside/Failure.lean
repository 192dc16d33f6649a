import Offside.Text.Quoted

/-!
# Failures

What can go wrong when an expression is compiled or a template is rendered, with the text that
tells so.
-/

namespace Offside

/-- Why a text is no expression. -/
inductive ExprProblem where
  /-- There is nothing but blanks. -/
  | empty
  /-- The text is not an expression. -/
  | invalid (source : Text)
deriving DecidableEq, Repr

namespace ExprProblem

/-- The trimmed text that is no expression. -/
def source : ExprProblem → Text
  | empty => []
  | invalid source => source

/-- The text that tells the problem. What exactly is wrong with an expression is left open. -/
def message (p : ExprProblem) : Text :=
  "compile ".toList ++ Text.quote p.source ++ ": ".toList ++
    match p with
    | empty => "empty expression".toList
    | invalid _ => "...".toList

end ExprProblem

/-- Why a template could not be rendered. -/
inductive Failure where
  /-- The context is not of the type that the template was compiled for. -/
  | invalidType (expected actual : Text)
  /-- There is an expression but nothing to evaluate it. -/
  | noEvaluator
  /-- An expression does not compile. -/
  | expression (problem : ExprProblem)
  /-- An expression failed while it was evaluated. -/
  | evaluation
  /-- An `else` without a block before it that it could belong to. -/
  | elseWithoutIf
  /-- More than two lambda variables. -/
  | tooManyVars
  /-- A loop over a value of a type that cannot be looped over. -/
  | notIterable (type : Text)
  /-- A failure that an evaluator or the body of a block reports in its own words. -/
  | custom (message : Text)
deriving DecidableEq, Repr

/-- The text that tells a failure. -/
def Failure.message : Failure → Text
  | invalidType expected actual =>
    "invalid type: expected a ".toList ++ expected ++ " but got a ".toList ++ actual
  | noEvaluator => "template needs an expression evaluator".toList
  | expression problem => problem.message
  | evaluation => "expression failed".toList
  | elseWithoutIf => "else without a preceding if".toList
  | tooManyVars => "at most two lambda variables are supported".toList
  | notIterable type => "cannot iterate over a ".toList ++ type
  | custom message => message

end Offside
