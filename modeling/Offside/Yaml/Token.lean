import Offside.Yaml.Scalar

/-!
# The tokens of a YAML document

A document is cut into scalars and marks, each with its line and column: in block style the columns
alone tell what belongs to what.
-/

namespace Offside.Yaml

/-- A character that ends a line. -/
def isBreak (c : Char) : Bool := c == '\n' || c == '\r'

/-- A blank or the end of a line. -/
def isSeparator (c : Char) : Bool := isGap c || isBreak c

/-- Whether a mark is set off by what follows it: a blank or the end. -/
def isSetOff (t : Text) : Bool :=
  match t with
  | [] => true
  | c :: _ => isSeparator c

/-- Whether a line is a marker between documents. -/
def startsMarker (t : Text) : Bool :=
  (t.take 3 = "---".toList || t.take 3 = "...".toList) && isSetOff (t.drop 3)

/-- How many lines end in a text. A carriage return and the line feed behind it are one end. -/
def lineEnds : Text → Nat
  | [] => 0
  | '\r' :: '\n' :: t => lineEnds t + 1
  | c :: t => if isBreak c then lineEnds t + 1 else lineEnds t

/-- What a token is. -/
inductive TokenKind where
  /-- The dash before an entry of a block sequence. -/
  | dash
  /-- The colon between a key and its value. -/
  | colon
  | comma
  | openList
  | closeList
  | openMap
  | closeMap
  /-- Three dashes: a document starts. -/
  | documentStart
  /-- Three points: a document ends. -/
  | documentEnd
  | comment
  | scalar (s : Scalar)
deriving DecidableEq, Repr

/-- A token and where it starts. Lines and columns count from one. -/
structure Token where
  line : Nat
  column : Nat
  kind : TokenKind
  /-- How many lines end inside of it. -/
  inside : Nat
  /-- How many lines end between it and the next token, if that is a colon. -/
  behind : Nat
deriving DecidableEq, Repr

end Offside.Yaml
