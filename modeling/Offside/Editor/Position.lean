import Offside.Text.Utf8

/-!
# Positions and changes

An editor names a place in a document by a line and by the number of UTF-16 code units before it on
that line. Lines end at line feeds only. A place that the document does not have stands for its
very start, except that a place behind the end of a line stands for the end of that line; of a
character of two units no place between the two is reached.
-/

namespace Offside.Editor

/-- A place in a document as an editor names it. -/
structure Position where
  line : Nat := 0
  character : Nat := 0
deriving DecidableEq, Repr

/-- How many characters of a line stand before the place with the given number of UTF-16 code
units before it. Nothing if the text ends before that place. -/
def columnIndex? : (units : Nat) → Text → Option Nat
  | 0, _ => some 0
  | _ + 1, [] => none
  | units + 1, c :: t =>
    if c = '\n' then some 0
    else if Text.units16 c ≤ units + 1 then
      (columnIndex? (units + 1 - Text.units16 c) t).map (· + 1)
    else some 0

namespace Position

/-- The number of characters before a place. -/
def index (p : Position) (content : Text) : Nat :=
  match content.lineStart? p.line with
  | none => 0
  | some start =>
    match columnIndex? p.character (content.drop start) with
    | none => 0
    | some n => start + n

end Position

/-- How places are found in a text: the numbers of characters before two of them. -/
abbrev Indexing := (start stop : Position) → Text → Nat × Nat

/-- Each place is found on its own. -/
def Position.indexes : Indexing := fun start stop content =>
  (start.index content, stop.index content)

/-- A change of a document. -/
inductive Change where
  /-- The whole document is new. -/
  | whole (text : Text)
  /-- What stands from `start` to `stop` is replaced. -/
  | replace (start stop : Position) (text : Text)
deriving DecidableEq, Repr

namespace Change

/-- A document after a change. Both places are looked up in the document as it was before. -/
def apply (indexing : Indexing) (content : Text) : Change → Text
  | whole text => text
  | replace start stop text =>
    let (i, j) := indexing start stop content
    content.take i ++ text ++ content.drop j

end Change
end Offside.Editor
