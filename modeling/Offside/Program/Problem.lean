import Offside.Text.Quoted
import Offside.Token

/-!
# Problems in a template

What can be wrong with the structure of a template, with the text that tells so. A problem is
reported at the location of a token.
-/

namespace Offside

/-- What is wrong with the structure of a template. -/
inductive Problem where
  /-- The tokens end where another one is needed. -/
  | unexpectedEnd
  /-- A line of a filter block is indented less than the block's first line. -/
  | shallowFilterLine
  /-- More scopes are open at once than the limit allows. -/
  | tooDeep
  /-- Lambda variables are given but no indented block follows. -/
  | variablesWithoutBlock
  /-- A token that nothing can start with. -/
  | unexpectedToken (got : Token)
  /-- A token of other kinds is needed. -/
  | expectedOther (got : Token) (expected : List TokenKind)
  /-- A doctype keyword that stands for nothing. -/
  | unknownDoctype (keyword : Text)
deriving DecidableEq, Repr

namespace Problem

/-- The text that tells a problem. -/
def message : Problem → Text
  | unexpectedEnd => "unexpected end of input".toList
  | shallowFilterLine =>
    "filter block lines must be indented at least as deep as the first one".toList
  | tooDeep => "max nesting depth reached".toList
  | variablesWithoutBlock => "lambda variables need an indented block".toList
  | unexpectedToken got =>
    "unexpected ".toList ++ got.kind.label.toList ++ ' ' :: Text.quote got.contents
  | expectedOther got expected =>
    "expected ".toList ++ Text.join " or ".toList (expected.map (·.label.toList))
      ++ ", found ".toList ++ Text.quote got.contents ++ " (".toList ++ got.kind.label.toList
      ++ [')']
  | unknownDoctype keyword => "unknown doctype ".toList ++ Text.quote keyword

end Problem

/-- A problem of some sort together with its place. -/
structure Located (α : Type) where
  cause : α
  pos : Location
deriving DecidableEq, Repr

end Offside
