import Offside.Text.Basic

/-!
# Locations

A location names a place in a template file. Line, column and offset count characters from zero;
the offset counts from the start of the file, a line break being one character. Messages count
lines and columns from one.
-/

namespace Offside

/-- A place in a template file. -/
structure Location where
  file : Text := []
  line : Nat := 0
  column : Nat := 0
  offset : Nat := 0
deriving DecidableEq, Repr, Inhabited

namespace Location

/-- The location as messages show it: file, line and column, the latter two counted from one. -/
def describe (l : Location) : Text :=
  l.file ++ ':' :: Text.ofNat (l.line + 1) ++ ':' :: Text.ofNat (l.column + 1)

end Location
end Offside
