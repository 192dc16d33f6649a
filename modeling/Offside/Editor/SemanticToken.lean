import Offside.Token

/-!
# Semantic tokens

An editor colours a document by its semantic tokens. They are sent as a row of 32-bit words, five
for a token: how many lines after the token before it starts, how many columns after its start (or
after the start of the line, if it is on another line), its length, what it is, and a word that is
always zero. `decode` is the editor's side: it adds the distances up again.
-/

namespace Offside.Editor

/-- A token as an editor colours it. The words are 32 bits wide, as they are sent. -/
structure SemanticToken where
  line : UInt32
  column : UInt32
  length : UInt32
  /-- An index into `SemanticToken.legend`. -/
  type : UInt32
deriving DecidableEq, Repr

namespace SemanticToken

/-- What a semantic token can be. -/
def legend : List Text :=
  ["keyword".toList, "string".toList, "comment".toList, "variable".toList]

/-- What a token is to an editor. Indentation, the equals sign of an attribute and text are not
coloured. -/
def typeOf? : TokenKind → Option UInt32
  | .doctypeMark | .tagMark | .idMark | .classMark | .filterMark | .outputMark | .silentMark
  | .arrow => some 0
  | .word | .quoted | .doctypeWord => some 1
  | .commentMark | .comment => some 2
  | .code | .braced | .vars => some 3
  | _ => none

/-- The semantic token of a token. An empty one is not sent. -/
def ofToken? (t : Token) : Option SemanticToken :=
  match typeOf? t.kind with
  | none => none
  | some type =>
    if t.contents = [] then none
    else some
      { line := UInt32.ofNat t.start.line
        column := UInt32.ofNat t.start.column
        length := UInt32.ofNat t.contents.length
        type }

/-- The words of semantic tokens after a token that starts at `line` and `column`. -/
def encodeFrom (line column : UInt32) : List SemanticToken → List UInt32
  | [] => []
  | t :: ts =>
    [t.line - line, if t.line = line then t.column - column else t.column, t.length, t.type, 0]
      ++ encodeFrom t.line t.column ts

/-- The words of semantic tokens. The first one counts from the start of the document. -/
def encode (ts : List SemanticToken) : List UInt32 := encodeFrom 0 0 ts

/-- The semantic tokens of words after a token that starts at `line` and `column`. Words that do not
make up a whole token are left out. -/
def decodeFrom (line column : UInt32) : List UInt32 → List SemanticToken
  | lines :: columns :: length :: type :: _ :: words =>
    let column := if lines = 0 then column + columns else columns
    { line := line + lines, column, length, type } :: decodeFrom (line + lines) column words
  | _ => []

/-- The semantic tokens of words. -/
def decode (words : List UInt32) : List SemanticToken := decodeFrom 0 0 words

end SemanticToken
end Offside.Editor
