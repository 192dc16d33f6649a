import Offside.Yaml.Quoted
import Offside.Yaml.Stretch

/-!
# Cutting a document into tokens

The text is read character by character. A plain scalar is collected until a mark, a comment or a
line that starts too far left ends it; a line belongs to the scalar if it starts right of the
margin, the column of the last key or dash. A mark inside a plain scalar is often just a character
of it, so what a character means depends on whether a scalar has started and on the brackets that
are open.

Anchors, tags, aliases, directives, explicit keys and block scalars are not part of the language
that is read here.
-/

namespace Offside.Yaml

/-- How a line starts compared with the margin. -/
inductive Turn where
  /-- Right of the margin. -/
  | deeper
  /-- At the margin or left of it. -/
  | back
  /-- No line starts here, or there is no margin. -/
  | onward
deriving DecidableEq, Repr

/-- How far a document is cut into tokens. -/
structure Scan where
  /-- What is still to be read. -/
  rest : Text
  /-- The character before it. -/
  before : Char
  line : Nat
  column : Nat
  /-- How many blanks start the line. -/
  indent : Nat
  /-- Whether nothing but blanks stands before on the line. -/
  fresh : Bool
  /-- The column of the last key or dash, or zero. -/
  margin : Nat
  /-- How many square brackets are open. -/
  lists : Nat
  /-- How many curly brackets are open. -/
  maps : Nat
  /-- The plain scalar that has started. -/
  text : Stretch
  /-- What was read since the last token. -/
  source : Stretch
  /-- Where the plain scalar started, if that was on an earlier line. -/
  start : Option (Nat × Nat)
  /-- How the lines of the plain scalar are folded, if a dash made them so. -/
  folding : Option Folding
  /-- The tokens so far, the last one first. -/
  tokens : List Token

namespace Scan

/-- The start of a document. -/
def ofText (t : Text) : Scan :=
  { rest := t, before := '\n', line := 1, column := 1, indent := 0, fresh := true, margin := 0,
    lists := 0, maps := 0, text := .empty, source := .empty, start := none, folding := none,
    tokens := [] }

/-- Whether a plain scalar has started. -/
def hasText (s : Scan) : Bool := !s.text.isEmpty

/-- Whether a bracket is open. -/
def inFlow (s : Scan) : Bool := 0 < s.lists || 0 < s.maps

/-! ## Moving on -/

/-- Passes over characters without a change of column. -/
def skip (s : Scan) (n : Nat) : Scan :=
  { s with rest := s.rest.drop n, before := (s.rest.take n).getLastD s.before }

/-- Passes over characters of a line. -/
def pass (s : Scan) (n : Nat) : Scan := { s.skip n with column := s.column + n }

/-- Passes over the character that ends a line. -/
def nextLine (s : Scan) : Scan :=
  { s.skip 1 with line := s.line + 1, column := 1, indent := 0, fresh := true }

/-- Forgets what was collected. -/
def clear (s : Scan) : Scan := { s with text := .empty, source := .empty, folding := none }

/-! ## Tokens -/

/-- A token that starts at the current place. -/
def emit (s : Scan) (kind : TokenKind) (inside : Nat) : Scan :=
  { s with tokens := { line := s.line, column := s.column, kind, inside, behind := 0 } :: s.tokens }

/-- Where the plain scalar started. -/
def textStart (s : Scan) : Nat × Nat :=
  s.start.getD (s.line, s.column - s.text.chars.length)

/-- The plain scalar as a token, if one has started. -/
def flush (s : Scan) : Scan :=
  if s.hasText then
    let text := if s.folding.isSome then Folding.value s.text else s.text.value
    let (line, column) := s.textStart
    let (inside, behind) := s.source.lineEnds
    let kind := .scalar { text, quoted := false }
    { s with
      tokens := { line, column, kind, inside, behind } :: s.tokens
      text := .empty, source := .empty, start := none }
  else { s with start := none }

/-- A mark of `n` characters. -/
def mark (s : Scan) (kind : TokenKind) (n : Nat) : Scan := ((s.flush.emit kind 0).pass n).clear

/-- A character as one of a plain scalar. -/
def take (s : Scan) (c : Char) : Scan :=
  { s with text := s.text.add c, source := s.source.push c }.pass 1

/-- A character that starts no plain scalar, and is refused there. -/
def takeInside? (s : Scan) (c : Char) : Option Scan := if s.hasText then some (s.take c) else none

/-! ## What the characters mean -/

/-- A bracket. -/
def bracket (s : Scan) (c : Char) : Scan :=
  match c with
  | '[' =>
    if s.hasText && !s.inFlow then s.take c else { s.mark .openList 1 with lists := s.lists + 1 }
  | ']' =>
    if s.hasText && s.lists = 0 then s.take c
    else { s.mark .closeList 1 with lists := s.lists - 1 }
  | '\x7b' =>
    if s.hasText && !s.inFlow then s.take c else { s.mark .openMap 1 with maps := s.maps + 1 }
  | '\x7d' => if s.maps = 0 then s.take c else { s.mark .closeMap 1 with maps := s.maps - 1 }
  | c => s.take c

/-- Whether a text starts with exactly `n` times a character. -/
def isRun (c : Char) (n : Nat) (t : Text) : Bool := (t.takeWhile (· = c)).length = n

/-- Whether the place is the very start of a line. -/
def atLineStart (s : Scan) : Bool := s.indent = 0 && s.column = 1

/-- A dash: part of a marker, the start of an entry or a character. Where it continues a plain
scalar on a further line, that line and the following ones are folded. -/
def dash? (s : Scan) (turn : Turn) (rest : Text) : Option Scan :=
  if s.atLineStart && isRun '-' 3 s.rest && isSetOff (s.rest.drop 3) then
    some { s.mark .documentStart 3 with margin := 0, indent := 0 }
  else if s.hasText then
    some { s.take '-' with folding := if turn = .deeper then some (.start s.column) else none }
  else if !isSetOff rest then some (s.take '-')
  else if s.source.isTabLed then none
  else some { s.mark .dash 1 with margin := s.column }

/-- Whether the last token is a colon. -/
def isAfterColon (s : Scan) : Bool := s.tokens.head?.any (·.kind = .colon)

/-- The margin behind a colon: the column of its key. -/
def keyMargin (s : Scan) : Nat :=
  if s.hasText then s.textStart.2
  else match s.tokens.head? with
    | some { kind := .scalar { quoted := true, .. }, column, .. } => column
    | _ => s.margin

/-- A colon: the end of a key or a character. Between curly brackets no blank has to follow it, but
a value may not hold another key. -/
def colon? (s : Scan) (rest : Text) : Option Scan :=
  let isText := if s.maps = 0 then !isSetOff rest else rest.head? = some '/' || s.isAfterColon
  if isText then some (s.take ':')
  else if s.source.isTabLed then none
  else some { s.mark .colon 1 with margin := s.keyMargin }

/-- Whether a key that takes over the entries of a map stands at the start of a text: two signs,
spaces and a colon that is set off. -/
def isMergeKey (t : Text) : Bool :=
  isRun '<' 2 t && match (t.drop 2).dropWhile (· = ' ') with
    | ':' :: c :: _ => c == ' ' || isBreak c
    | _ => false

/-- A sign that may start a key that takes over entries. -/
def merge (s : Scan) : Scan :=
  if isMergeKey s.rest then
    let kind := .scalar { text := "<<".toList, quoted := false }
    { ((s.emit kind (s.source.push '<').lineEnds.1).pass 2).clear with margin := s.column }
  else s.take '<'

/-- A number sign: a comment that reaches to the end of the line, unless it stands right behind a
character of a plain scalar. -/
def comment (s : Scan) : Scan :=
  if s.hasText && !isSeparator s.before then s.take '#'
  else
    let s := s.flush.emit .comment 0
    { s with rest := s.rest.dropWhile (!isBreak ·) }.nextLine.clear

/-- A quote that starts a scalar. -/
def quote? (s : Scan) (c : Char) (rest : Text) : Option Scan :=
  if s.hasText then some (s.take c)
  else match quoted? s.margin s.line s.column c rest with
    | none => none
    | some (q, after) =>
      let kind := .scalar { text := q.text.reverse, quoted := true }
      let s := (s.emit kind q.ends).clear
      some { s with
        rest := after.drop q.surplus, before := c, line := q.line, column := q.column
        indent := if q.line = s.line then s.indent else 0, fresh := s.fresh || q.line ≠ s.line }

/-- The end of a line. In a plain scalar it is a space, and an empty line is an end of a line. -/
def lineEnd (s : Scan) (c : Char) (rest : Text) : Scan :=
  let start := if s.hasText && s.start.isNone then
    some (s.line, s.column - s.text.value.length) else s.start
  let s := { s with start }
  let s := if 0 < s.source.loose then
    { s with source := s.source.settled, text := s.text.settled } else s
  let text := if s.hasText && s.fresh then s.text.breakLine else s.text.add ' '
  if c = '\r' && rest.head? = some '\n' then
    { s with text, source := (s.source.push '\r').push '\n' }.skip 1 |>.nextLine
  else { s with text, source := s.source.push c }.nextLine

/-- A tab. Right of the margin it is left out; at the start of a line it may not stand left of
it. -/
def tab? (s : Scan) : Option Scan :=
  if (s.hasText && s.margin = 0) || s.margin < s.column then
    some ({ s with indent := s.indent + 1, source := s.source.push '\t' }.skip 1)
  else if s.fresh && !s.inFlow then none
  else some (s.take '\t')

/-- Reads a character outside of folded lines, which `rest` follows. -/
def read? (s : Scan) (turn : Turn) (c : Char) (rest : Text) : Option Scan :=
  match c with
  | '[' | ']' | '\x7b' | '\x7d' => some (s.bracket c)
  | ',' => some (if s.inFlow then s.mark .comma 1 else s.take c)
  | '.' => some (if s.atLineStart && isRun '.' 3 s.rest then s.mark .documentEnd 3 else s.take c)
  | '<' => some s.merge
  | '-' => s.dash? turn rest
  | ':' => s.colon? rest
  | '|' | '>' | '!' | '&' | '*' | '@' | '\x60' => s.takeInside? c
  | '%' => if s.indent = 0 then s.takeInside? c else some (s.take c)
  | '?' => if rest.head?.any isGap then s.takeInside? c else some (s.take c)
  | '#' => some s.comment
  | '\'' | '"' => s.quote? c rest
  | '\n' | '\r' => some (s.lineEnd c rest)
  | ' ' => some (if s.fresh then { s with source := s.source.push c }.pass 1 else s.take c)
  | '\t' => s.tab?
  | c => some (s.take c)

/-- A scalar of folded lines that ends at the current place. -/
def endFolded (s : Scan) : Scan :=
  let kind := .scalar { text := Folding.value s.text, quoted := false }
  (s.emit kind s.source.lineEnds.1).clear

/-- Reads a character of folded lines, which `rest` follows. -/
def readFolded? (s : Scan) (f : Folding) (c : Char) (rest : Text) : Option Scan :=
  let s := { s with source := s.source.push c }
  let indents := s.fresh && c = ' '
  if rest = [] then
    let text := if indents then (f.indent s.text s.column).2 else s.text.add c
    some ({ s with text }.endFolded.pass 1)
  else if isBreak c then
    let s := { s with text := s.text.add c, folding := some f.nextLine }.nextLine
    some (if startsMarker rest then s.endFolded else s)
  else if indents then
    let (f, text) := f.indent s.text s.column
    some ({ s with text, folding := some f }.pass 1)
  else if c = '\t' && s.fresh && s.column < f.first then none
  else if c = '\t' && f.first ≤ s.column then some ({ s with text := s.text.pushFirm c }.pass 1)
  else
    let (f, text) := f.fold s.text s.column
    let text := if c = ' ' then text.push c else text.pushFirm c
    some ({ s with text, folding := some f }.pass 1)

/-! ## The whole -/

/-- How a line starts with a character, if it does. -/
def turn (s : Scan) (c : Char) : Turn :=
  if !s.fresh || isSeparator c || s.margin = 0 then .onward
  else if s.margin < s.column then .deeper
  else .back

/-- Counts the blanks at the start of a line, up to the first other character. -/
def enter (s : Scan) (c : Char) : Scan :=
  if !s.fresh then s
  else if c = ' ' then { s with indent := s.indent + 1 }
  else if isSeparator c then s
  else { s with fresh := false }

/-- Reads one character, and those that belong to it. A line that starts at the margin or left of it
ends the plain scalar before it; folded lines may not have started in the first column. -/
def step? (s : Scan) : Option Scan :=
  match s.rest with
  | [] => some s
  | c :: rest =>
    let turn := s.turn c
    let s := s.enter c
    let s := if turn = .back then s.flush else s
    match s.folding with
    | none => s.read? turn c rest
    | some f =>
      if turn ≠ .back then s.readFolded? f c rest
      else if s.tokens.head?.any (·.column = 1) then none
      else { s with folding := none }.read? turn c rest

/-- The tokens of a document; `budget` is more than the length of what is still to be read. -/
def tokens? : (budget : Nat) → Scan → Option (List Token)
  | 0, _ => none
  | budget + 1, s =>
    if s.rest = [] then some s.flush.tokens.reverse
    else match s.step? with
      | some s => tokens? budget s
      | none => none

end Scan

/-- The tokens of a document, without its comments. -/
def tokens? (t : Text) : Option (List Token) :=
  (Scan.tokens? (t.length + 1) (.ofText t)).map (List.filter (·.kind ≠ .comment))

end Offside.Yaml
