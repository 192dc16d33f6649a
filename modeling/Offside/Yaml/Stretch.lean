import Offside.Yaml.Token

/-!
# Stretches of text

While a plain scalar is read its characters are collected in a stretch. Blanks are collected too,
but they count only once something else follows them, so that a scalar never ends in blanks.

Where a plain scalar goes on with a dash at the start of a further line, the lines that follow are
folded: a single end of a line between lines that start in one column becomes a space.
-/

namespace Offside.Yaml

/-- The characters of a scalar so far, the last one first, and how many of the last ones count only
if another one follows. -/
structure Stretch where
  chars : Text
  loose : Nat
deriving DecidableEq, Repr

namespace Stretch

/-- Nothing collected. -/
def empty : Stretch := { chars := [], loose := 0 }

/-- Whether nothing is collected. -/
def isEmpty (s : Stretch) : Bool := s.chars.isEmpty

/-- The characters that count. -/
def settled (s : Stretch) : Stretch := { chars := s.chars.drop s.loose, loose := 0 }

/-- The text that counts. -/
def value (s : Stretch) : Text := s.settled.chars.reverse

/-- All characters, blanks at the end included. -/
def all (s : Stretch) : Text := s.chars.reverse

/-- How many lines end inside of it and how many at its end, spaces and ends at its start left
out. -/
def lineEnds (s : Stretch) : Nat × Nat :=
  let isAround (c : Char) : Bool := c == ' ' || isBreak c
  let behind := s.chars.takeWhile isAround
  let inside := ((s.chars.drop behind.length).reverse.dropWhile isAround)
  (Yaml.lineEnds inside, if inside = [] then 0 else Yaml.lineEnds behind.reverse)

/-- One more character. -/
def push (s : Stretch) (c : Char) : Stretch :=
  { chars := c :: s.chars, loose := if isGap c then s.loose + 1 else 0 }

/-- One more character that counts, whatever it is. -/
def pushFirm (s : Stretch) (c : Char) : Stretch := { chars := c :: s.chars, loose := 0 }

/-- One more character; blanks at the start are left out. -/
def add (s : Stretch) (c : Char) : Stretch := if s.isEmpty && isGap c then s else s.push c

/-- The end of an empty line: it replaces the space that the end of the line before left. -/
def breakLine (s : Stretch) : Stretch :=
  match s.chars with
  | ' ' :: cs => { s with chars := '\n' :: cs }
  | cs => { chars := '\n' :: cs, loose := s.loose + 1 }

/-- Whether it starts with a tab, which may follow one space. -/
def isTabLed (s : Stretch) : Bool :=
  match s.all with
  | '\t' :: _ | ' ' :: '\t' :: _ => true
  | _ => false

end Stretch

/-- How lines are folded. Columns are those where lines start; zero stands for an empty line. -/
structure Folding where
  /-- The column of the dash that started it. -/
  first : Nat
  /-- The column of the current line. -/
  current : Nat
  /-- The column of the line before. -/
  previous : Nat
  /-- Whether the end of the line before is still to be folded. -/
  pending : Bool
deriving DecidableEq, Repr

namespace Folding

/-- Folding that starts with a dash in a column. -/
def start (column : Nat) : Folding :=
  { first := column, current := column, previous := 0, pending := false }

/-- The end of a line. -/
def nextLine (f : Folding) : Folding :=
  { f with previous := f.current, current := 0, pending := true }

/-- A space before the first character of a line. Spaces right of the first line's start count, and
such a line is not folded. -/
def indent (f : Folding) (s : Stretch) (column : Nat) : Folding × Stretch :=
  if column < f.first then (f, s) else ({ f with pending := false }, s.pushFirm ' ')

/-- The characters before a line that starts in a column, with the end of the line before folded. -/
def fold (f : Folding) (s : Stretch) (column : Nat) : Folding × Stretch :=
  let current := if f.current = 0 then column else f.current
  let s := match f.pending, s.chars with
    | true, '\n' :: cs =>
      if current = f.previous then { s with chars := ' ' :: cs }
      else if f.previous = 0 then { s with chars := cs }
      else s
    | _, _ => s
  ({ f with current, pending := false }, s)

/-- The text of folded lines: spaces and ends of lines at its end are left out. -/
def value (s : Stretch) : Text :=
  ((s.settled.chars.dropWhile (· = '\n')).dropWhile (· = ' ')).reverse

end Folding
end Offside.Yaml
