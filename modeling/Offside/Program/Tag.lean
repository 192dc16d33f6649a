import Offside.Fragment
import Offside.Program.Problem
import Offside.Text.Escape

/-!
# Tags

A tag line starts with a name, ids and classes, followed by attributes. Reading it off the tokens
gives a `Tag`; its opening and closing text are then fixed. There is one id and one class
attribute: the first attribute that is literally called `id` replaces the ids of the header, and
the first that is literally called `class` adds to its classes.
-/

namespace Offside

/-- The result of reading tokens, or a located problem. -/
abbrev Reading := Except (Located Problem)

/-- The next token, which must be of one of the given kinds. `stop` is where the input ends. -/
def takeOne (stop : Location) (kinds : List TokenKind) : List Token → Reading (Token × List Token)
  | [] => .error ⟨.unexpectedEnd, stop⟩
  | t :: ts => if t.kind ∈ kinds then .ok (t, ts) else .error ⟨.expectedOther t kinds, t.start⟩

/-- A value in a tag: a braced expression is evaluated and escaped when the template is rendered,
a quoted string or a word is escaped now. -/
def tagValue (t : Token) : Fragments :=
  match t.kind with
  | .braced => [.expression (Text.dropEnds t.contents) true]
  | .quoted => Fragments.ofLiteral (Text.escape (Text.dropEnds t.contents))
  | _ => Fragments.ofLiteral (Text.escape t.contents)

/-- A tag: its name, the id that counts, its classes and its attributes in the order in which they
are written. -/
structure Tag where
  name : Option Fragments := none
  id : Option Fragments := none
  classes : List Fragments := []
  attributes : List (Fragments × Fragments) := []
deriving DecidableEq, Repr

namespace Tag

/-- The kinds of token that can be a name, an id, a class or an attribute's name. -/
def wordKinds : List TokenKind := [.braced, .word]

/-- The kinds of token that can be an attribute's value. -/
def valueKinds : List TokenKind := [.braced, .quoted, .word]

/-- Reads ids and classes. Of several ids the last one counts. -/
def readMarks (stop : Location) (tag : Tag) : List Token → Reading (Tag × List Token)
  | [] => .ok (tag, [])
  | m :: ts =>
    if m.kind = .idMark ∨ m.kind = .classMark then
      match ts with
      | [] => .error ⟨.unexpectedEnd, stop⟩
      | v :: ts =>
        if v.kind ∈ wordKinds then
          readMarks stop
            (if m.kind = .idMark then { tag with id := some (tagValue v) }
              else { tag with classes := tag.classes ++ [tagValue v] }) ts
        else .error ⟨.expectedOther v wordKinds, v.start⟩
    else .ok (tag, m :: ts)

/-- Reads attributes. -/
def readAttributes (stop : Location) (tag : Tag) : List Token → Reading (Tag × List Token)
  | [] => .ok (tag, [])
  | n :: ts =>
    if n.kind ∈ wordKinds then
      match ts with
      | [] => .error ⟨.unexpectedEnd, stop⟩
      | e :: ts =>
        if e.kind = .equals then
          match ts with
          | [] => .error ⟨.unexpectedEnd, stop⟩
          | v :: ts =>
            if v.kind ∈ valueKinds then
              readAttributes stop
                { tag with attributes := tag.attributes ++ [(tagValue n, tagValue v)] } ts
            else .error ⟨.expectedOther v valueKinds, v.start⟩
        else .error ⟨.expectedOther e [.equals], e.start⟩
    else .ok (tag, n :: ts)

/-- Reads a name, if there is one. -/
def readName (stop : Location) : List Token → Reading (Tag × List Token)
  | [] => .ok ({}, [])
  | t :: ts =>
    if t.kind = .tagMark then do
      let (v, ts) ← takeOne stop wordKinds ts
      .ok ({ name := some (tagValue v) }, ts)
    else .ok ({}, t :: ts)

/-- Whether the header has none of the three parts. -/
def isNothing (tag : Tag) : Bool := tag.name.isNone && tag.id.isNone && tag.classes.isEmpty

/-- Reads a tag, if the tokens start with one. -/
def read (stop : Location) (ts : List Token) : Reading (Option Tag × List Token) := do
  let (tag, ts) ← readName stop ts
  let (tag, ts) ← readMarks stop tag ts
  if tag.isNothing then .ok (none, ts)
  else
    let (tag, ts) ← readAttributes stop tag ts
    .ok (some tag, ts)

/-- Takes the first attribute that is literally called `name` out of a list. -/
def takeAttribute (name : Text) :
    List (Fragments × Fragments) → Option (Fragments × List (Fragments × Fragments))
  | [] => none
  | a :: as =>
    if a.1.isLiteral && a.1.describe == name then some (a.2, as)
    else (takeAttribute name as).map fun (v, as) => (v, a :: as)

/-- The tag with its attributes called `id` and `class` moved to where they count. -/
def settle (tag : Tag) : Tag :=
  let tag := match takeAttribute "id".toList tag.attributes with
    | some (v, as) => { tag with id := some v, attributes := as }
    | none => tag
  match takeAttribute "class".toList tag.attributes with
  | some (v, as) => { tag with classes := tag.classes ++ [v], attributes := as }
  | none => tag

/-- The name of the element; `div` if none is given. -/
def element (tag : Tag) : Fragments := tag.name.getD (Fragments.ofString "div")

/-- An attribute as it is written, after a space. -/
def attributeText (name value : Fragments) : List Fragments :=
  [Fragments.ofString " ", name, Fragments.ofString "=\"", value, Fragments.ofString "\""]

/-- The values with a space between them. -/
def spaced : List Fragments → List Fragments
  | [] => []
  | [v] => [v]
  | v :: vs => v :: Fragments.ofString " " :: spaced vs

/-- The opening text of a settled tag. -/
def openingOf (tag : Tag) : Fragments :=
  Fragments.join <|
    [Fragments.ofString "<", tag.element]
    ++ (match tag.id with
      | some v => [Fragments.ofString " id=\"", v, Fragments.ofString "\""]
      | none => [])
    ++ (if tag.classes.isEmpty then []
      else Fragments.ofString " class=\"" :: spaced tag.classes ++ [Fragments.ofString "\""])
    ++ tag.attributes.flatMap (fun (n, v) => attributeText n v)
    ++ [Fragments.ofString ">"]

/-- The text that opens the element. -/
def opening (tag : Tag) : Fragments := tag.settle.openingOf

/-- The text that closes the element. -/
def closing (tag : Tag) : Fragments :=
  Fragments.join [Fragments.ofString "</", tag.element, Fragments.ofString ">"]

end Tag
end Offside
