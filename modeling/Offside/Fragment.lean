import Offside.Text.Basic

/-!
# Fragments

A line of output is put together from fragments: literal text, which is stored as it is written,
expressions, which are evaluated when the template is rendered, and text that passes through a
filter. Neighbouring literals are joined, so a line has one form.
-/

namespace Offside

/-- A piece of a line of output. -/
inductive Fragment where
  /-- Text that is put out as it stands. -/
  | literal (text : Text)
  /-- The value of an expression, escaped or not. -/
  | expression (source : Text) (escape : Bool)
  /-- Text that passes through the named filter. -/
  | filter (name text : Text)
deriving DecidableEq, Repr

/-- A line of output as its fragments. -/
abbrev Fragments := List Fragment

namespace Fragment

/-- Whether the fragment is put out without evaluating anything. -/
def isLiteral : Fragment → Bool
  | literal _ => true
  | _ => false

/-- A fragment as a line description shows it. -/
def describe : Fragment → Text
  | literal text => text
  | expression source _ => '{' :: source ++ ['}']
  | filter name text => ':' :: name ++ '{' :: text ++ ['}']

end Fragment

namespace Fragments

/-- Neighbouring literals become one. -/
def merge : Fragments → Fragments
  | [] => []
  | .literal a :: fs =>
    match merge fs with
    | .literal b :: gs => .literal (a ++ b) :: gs
    | gs => .literal a :: gs
  | f :: fs => f :: merge fs

/-- Several lines one after the other on one line. -/
def join (vs : List Fragments) : Fragments := merge vs.flatten

/-- A line of literal text. -/
def ofLiteral (text : Text) : Fragments := [.literal text]

/-- A line of literal text, given as a string. -/
def ofString (s : String) : Fragments := ofLiteral s.toList

/-- Whether nothing in the line has to be evaluated. -/
def isLiteral (v : Fragments) : Bool := v.all Fragment.isLiteral

/-- The line with its expressions in braces. -/
def describe (v : Fragments) : Text := v.flatMap Fragment.describe

end Fragments
end Offside
