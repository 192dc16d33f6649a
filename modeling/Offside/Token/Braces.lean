import Offside.Text.Basic

/-!
# Matching braces

A braced expression runs from an opening brace to the brace that closes it. Braces nest and
nothing else matters: quotes do not hide them.
-/

namespace Offside

/-- How many characters of `t` it takes to close `depth` open braces, the last closing brace
included. -/
def braceEnd : (depth : Nat) → Text → Option Nat
  | _, [] => none
  | depth, c :: t =>
    if c = '{' then (braceEnd (depth + 1) t).map (· + 1)
    else if c = '}' then
      if depth ≤ 1 then some 1 else (braceEnd (depth - 1) t).map (· + 1)
    else (braceEnd depth t).map (· + 1)

/-- The index just past the brace that closes the opening brace at index `start`, if there is an
opening brace and it is ever closed. -/
def matchBraces (t : Text) (start : Nat) : Option Nat :=
  match t.drop start with
  | '{' :: rest => (braceEnd 1 rest).map (· + (start + 1))
  | _ => none

end Offside
