import Offside.Failure
import Offside.Program.Problem

/-!
# Errors

All that can go wrong between a template source and its output, in one type. An error may hold a
place in a template; it is then described with the place in front.
-/

namespace Offside

/-- What is wrong with a template. -/
inductive TemplateProblem where
  /-- Its structure. -/
  | layout (problem : Problem)
  /-- One of its expressions. -/
  | expression (problem : ExprProblem)
deriving DecidableEq, Repr

/-- The text that tells what is wrong with a template. -/
def TemplateProblem.message : TemplateProblem → Text
  | layout problem => problem.message
  | expression problem => problem.message

/-- An error. -/
inductive Error where
  /-- A template is wrong at some place. -/
  | template (problem : Located TemplateProblem)
  /-- Rendering failed. -/
  | failure (cause : Failure)
  /-- There is no template of that path. -/
  | templateNotFound (path : Text)
  /-- Something outside the template failed; the text tells what. -/
  | outside (message : Text)
  /-- An error with a remark on what was being done. -/
  | during (doing : Text) (error : Error)
deriving DecidableEq, Repr

namespace Error

/-- The text that tells an error. -/
def message : Error → Text
  | template problem => problem.cause.message ++ " at ".toList ++ problem.pos.describe
  | failure cause => cause.message
  | templateNotFound path => "template ".toList ++ Text.quote path ++ " not found".toList
  | outside message => message
  | during doing error => doing ++ ": ".toList ++ error.message

/-- The problem and its place, if the error holds one. -/
def located? : Error → Option (Located TemplateProblem)
  | template problem => some problem
  | during _ error => error.located?
  | _ => none

/-- An error as a user is told about it: with the place in front if there is one. -/
def describe (e : Error) : Text :=
  match e.located? with
  | some problem => problem.pos.describe ++ ": ".toList ++ problem.cause.message
  | none => e.message

end Error
end Offside
