import Offside.Token.Line

/-!
# From a file to its tokens

A file is read in its normalised form: a leading byte order mark is dropped and every line break,
be it CR, LF or CR LF, becomes one LF. The lines are then cut into pieces one after the other. The
only thing that one line passes on to the next is the raw block it may have opened.
-/

namespace Offside

/-- Every line break becomes one line feed. -/
def unifyBreaks : Text → Text
  | [] => []
  | '\r' :: '\n' :: t => '\n' :: unifyBreaks t
  | '\r' :: t => '\n' :: unifyBreaks t
  | c :: t => c :: unifyBreaks t

/-- The text without a leading byte order mark. -/
def dropByteOrderMark : Text → Text
  | '\ufeff' :: t => t
  | t => t

/-- The text that locations refer to. -/
def normalise (t : Text) : Text := unifyBreaks (dropByteOrderMark t)

/-- The lines of a normalised text. -/
def splitLines (t : Text) : List Text := Text.splitAt '\n' t

/-- The tokens among the pieces of a line, each with its place. `column` is where the first piece
starts and `offset` where the line does. -/
def placePieces (file : Text) (line offset : Nat) : (column : Nat) → List Piece → List Token
  | _, [] => []
  | column, .skip raw :: ps => placePieces file line offset (column + raw.length) ps
  | column, .token kind raw :: ps =>
    { kind
      start := { file, line, column, offset := offset + column }
      contents := Piece.contents kind raw } ::
    placePieces file line offset (column + raw.length) ps

/-- The tokens of the lines from number `line` on, which starts at `offset`. -/
def lexLines (file : Text) : (line offset : Nat) → (block : Option Nat) → List Text → List Token
  | _, _, _, [] => []
  | line, offset, block, t :: ts =>
    let (ps, block) := scanLine (line == 0) block t
    placePieces file line offset 0 ps
      ++ lexLines file (line + 1) (offset + t.length + 1) block ts

/-- The tokens of a file. -/
def lex (file source : Text) : List Token :=
  lexLines file 0 0 none (splitLines (normalise source))

end Offside
