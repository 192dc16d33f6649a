import Offside.Yaml.Scan

/-!
# The items of a document

Before the tokens are read as values, each scalar that a colon follows is joined with it to a key,
and a key with the scalar behind it on the same line to a pair. The items are then cut into
documents at the markers.
-/

namespace Offside.Yaml

/-- A key: a scalar and where it stands, how many lines end inside of it and before its colon, and
the line of the colon. -/
structure Key where
  scalar : Scalar
  line : Nat
  column : Nat
  inside : Nat
  behind : Nat
  colonLine : Nat
deriving DecidableEq, Repr

/-- A key without its value, a key with a scalar as its value, or any other token. -/
inductive Item where
  | key (k : Key)
  | pair (k : Key) (value : Scalar)
  | single (t : Token)
deriving DecidableEq, Repr

namespace Item

/-- The line where an item starts. -/
def line : Item → Nat
  | key k | pair k _ => k.line
  | single t => t.line

/-- The column where an item starts. -/
def column : Item → Nat
  | key k | pair k _ => k.column
  | single t => t.column

/-- Whether an item is a token of the given kind. -/
def is (item : Item) (kind : TokenKind) : Bool :=
  match item with
  | single t => t.kind = kind
  | _ => false

/-- Whether an item is a key, with or without its value. -/
def isKey : Item → Bool
  | single _ => false
  | _ => true

/-- Whether an item is a scalar without a colon. -/
def isScalar : Item → Bool
  | single { kind := .scalar s, .. } => !s.isMerge
  | _ => false

/-- Whether an item can stand where an entry of a map is expected. -/
def isMapPart (item : Item) : Bool := item.isKey || item.is .openMap || item.is .closeMap

/-- Whether an item ends an entry between curly brackets. -/
def endsEntry (item : Item) : Bool := item.is .closeMap || item.is .comma

end Item

/-- A token before items. With a colon at their start it becomes a key. -/
def joinColon? (t : Token) (items : List Item) : Option (List Item) :=
  match items with
  | .single c :: rest =>
    if c.kind ≠ .colon then some (.single t :: items)
    else match t.kind with
      | .scalar scalar =>
        some (.key { scalar, line := t.line, column := t.column, inside := t.inside,
                     behind := t.behind, colonLine := c.line } :: rest)
      | _ => none
  | _ => some (.single t :: items)

/-- The tokens with keys joined; a colon may be left at the start. -/
def keyedTail? : List Token → Option (List Item)
  | [] => some []
  | t :: ts => (keyedTail? ts).bind (joinColon? t)

/-- The tokens with keys joined. Each colon must follow a scalar. -/
def keyed? (ts : List Token) : Option (List Item) :=
  (keyedTail? ts).filter (!·.head?.any (Item.is · .colon))

/-- An item before items. A key takes the scalar that follows it on its line. -/
def joinValue (item : Item) (items : List Item) : List Item :=
  match item, items with
  | .key k, .single { kind := .scalar value, line, .. } :: rest =>
    if line = k.line && !value.isMerge then .pair k value :: rest else item :: items
  | _, _ => item :: items

/-- The items with keys joined with the scalars behind them. -/
def paired (items : List Item) : List Item := items.foldr joinValue []

/-- The document of items that are given last first, unless there are none. -/
def finished (front : List Item) : List (List Item) :=
  if front = [] then [] else [front.reverse]

/-- The items of each document; `front` holds those of the first one so far, last first. No block
starts on the line of a marker for a start, and no scalar follows a marker for an end. Where two
markers for a start follow each other, the documents end. -/
def documentsFrom? : (front : List Item) → List Item → Option (List (List Item))
  | front, [] => some (finished front)
  | front, item :: items =>
    if item.is .documentStart then
      match items with
      | [] => some (finished front)
      | next :: _ =>
        if next.is .documentStart then some (finished front)
        else if next.line = item.line && (next.isKey || next.is .dash) then none
        else (documentsFrom? [] items).map (finished front ++ ·)
    else if item.is .documentEnd then
      match items with
      | [] => some (finished front)
      | next :: _ =>
        if next.isScalar then none else (documentsFrom? [] items).map (finished front ++ ·)
    else documentsFrom? (item :: front) items

/-- The items of each document of a text. -/
def documents? (t : Text) : Option (List (List Item)) :=
  match tokens? t with
  | none => none
  | some ts =>
    match keyed? ts with
    | none => none
    | some items => documentsFrom? [] (paired items)

end Offside.Yaml
