import Offside.Fragment
import Offside.Text.Escape
import Offside.Token.Braces

/-!
# Interpolation

Text may hold expressions, written `#{…}`. A backslash before the hash keeps the sequence literal,
and so does a brace that is never closed. The literal text between the expressions is escaped once
and for all.
-/

namespace Offside

/-- The text up to the first expression, not yet escaped, and the fragments from that expression
on. -/
def interpolateFrom : Text → Text × Fragments
  | [] => ([], [])
  | '\\' :: '#' :: '{' :: t =>
    let (lit, fs) := interpolateFrom ('{' :: t)
    ('#' :: lit, fs)
  | '#' :: '{' :: t =>
    match braceEnd 1 t with
    | some n =>
      let (lit, fs) := interpolateFrom (t.drop n)
      ([], .expression (t.take (n - 1)) true :: .literal (Text.escape lit) :: fs)
    | none =>
      let (lit, fs) := interpolateFrom ('{' :: t)
      ('#' :: lit, fs)
  | c :: t =>
    let (lit, fs) := interpolateFrom t
    (c :: lit, fs)
termination_by t => t.length
decreasing_by all_goals simp <;> omega

/-- The fragments of a text: a literal, and then an expression and a literal in turn. -/
def interpolate (t : Text) : Fragments :=
  let (lit, fs) := interpolateFrom t
  .literal (Text.escape lit) :: fs

end Offside
