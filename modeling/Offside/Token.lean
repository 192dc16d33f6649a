import Offside.Location
import Offside.Text.Utf8

/-!
# Tokens

A template line is a row of tokens: marks such as `%` and `->`, and the words, quoted strings,
braced expressions and text between them. A token keeps its exact text and the place where it
starts.
-/

namespace Offside

/-- What a token is. `other` is a kind that no line of a template contains; a hand-made token list
may. -/
inductive TokenKind where
  | doctypeMark
  | doctypeWord
  | indent
  | tagMark
  | idMark
  | classMark
  | equals
  | filterMark
  | word
  | quoted
  | braced
  | code
  | text
  | outputMark
  | silentMark
  | commentMark
  | comment
  | arrow
  | vars
  | other
deriving DecidableEq, Repr, Inhabited

namespace TokenKind

/-- The name of a kind in messages and listings. -/
def label : TokenKind → String
  | doctypeMark => "Doctype identifier"
  | doctypeWord => "Doctype"
  | indent => "Whitespace"
  | tagMark => "Element identifier"
  | idMark => "Element ID identifier"
  | classMark => "Element class identifier"
  | equals => "Attribute connector"
  | filterMark => "Filter identifier"
  | word => "String"
  | quoted => "Quoted string"
  | braced => "Bracket expression"
  | code => "Expression"
  | text => "Text"
  | outputMark => "Code identifier"
  | silentMark => "Silent code identifier"
  | commentMark => "Comment identifier"
  | comment => "Comment"
  | arrow => "Lambda variables identifier"
  | vars => "Lambda variables"
  | other => "<unknown>"

/-- All kinds, in the order of their declaration. -/
def all : List TokenKind :=
  [doctypeMark, doctypeWord, indent, tagMark, idMark, classMark, equals, filterMark, word, quoted,
    braced, code, text, outputMark, silentMark, commentMark, comment, arrow, vars, other]

/-- The kind with a given name. -/
def ofLabel? (s : String) : Option TokenKind := all.find? (·.label == s)

end TokenKind

/-- A token: its kind, where it starts and its text. -/
structure Token where
  kind : TokenKind
  start : Location
  contents : Text
deriving DecidableEq, Repr, Inhabited

namespace Token

/-- How deep a line is indented, read off its indentation token. -/
def depth (t : Token) : Nat := t.contents.byteLength

end Token
end Offside
