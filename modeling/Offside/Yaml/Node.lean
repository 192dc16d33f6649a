import Offside.Yaml.Item

/-!
# The grammar of documents

A document is read from its items. In block style the entries of a collection start in the same
column, and what belongs to an entry stands further right or, unless it is an entry itself, in the
very same column. Between brackets columns matter only inside block collections. Two keys of a map
must not be written alike.
-/

namespace Offside.Yaml

/-- The key of a node: its scalar, and whether it stands between curly brackets without a colon. -/
structure Label where
  scalar : Scalar
  bare : Bool
deriving DecidableEq, Repr

/-- A value as it is written. -/
inductive Node where
  | scalar (s : Scalar)
  | list (items : List Node)
  | map (entries : List (Label × Node))

/-- What stands where nothing is written. -/
def Node.empty : Node := .scalar .empty

/-- A node with the items that follow it. -/
abbrev Parsed (α : Type) := Option (α × List Item)

/-- Whether a key is written as it may be. In block style a key that is a text stands on one line
with its colon. Between brackets the colon follows on the line where the key ends. -/
def Key.fits (flow : Bool) (k : Key) : Bool :=
  let plain := k.scalar.isPlainText
  if flow then k.line + k.inside + (if plain then 0 else k.behind) = k.colonLine
  else !(k.scalar.quoted || plain) || k.inside + k.behind = 0

/-- The label of a key that is written as it may be. -/
def Key.label? (flow : Bool) (k : Key) : Option Label :=
  if k.fits flow then some { scalar := k.scalar, bare := false } else none

/-- A map, unless two of its keys are written alike. Keys without a colon do not count. -/
def Node.ofEntries? (entries : List (Label × Node)) : Option Node :=
  let keys := (entries.filter (!·.1.bare)).map (·.1.scalar.text)
  if keys.eraseDups.length = keys.length then some (.map entries) else none

/-- Whether the items behind a pair in a column may follow it: nothing further right does, except
for what ends an item between square brackets. -/
def mayFollow (flow : Bool) (column : Nat) : List Item → Bool
  | [] => true
  | item :: _ => item.column ≤ column || (flow && (item.is .comma || item.is .closeList))

mutual

/-- A value. `flow` tells whether a bracket is open. -/
def node? (flow : Bool) : (budget : Nat) → List Item → Parsed Node
  | 0, _ => none
  | _ + 1, [] => none
  | budget + 1, .single t :: items =>
    match t.kind with
    | .openMap => flowMap? budget true [] items
    | .openList => flowList? budget true [] items
    | .dash => (sequence? flow budget t.column (.single t :: items)).map fun (ns, rest) =>
        (.list ns, rest)
    | .scalar s => some (.scalar s, items)
    | _ => none
  | budget + 1, items =>
    match entries? flow budget items with
    | some (entries, rest) => (Node.ofEntries? entries).map fun m => (m, rest)
    | none => none

/-- The values behind the dashes in a column. -/
def sequence? (flow : Bool) : (budget column : Nat) → List Item → Parsed (List Node)
  | 0, _, _ => none
  | _ + 1, _, [] => some ([], [])
  | budget + 1, column, item :: items =>
    if item.is .dash && item.column = column then
      let first : Parsed Node := match items with
        | [] => some (.empty, [])
        | next :: _ =>
          if next.column < column || (next.is .dash && next.column = column) then
            some (.empty, items)
          else node? flow budget items
      match first with
      | some (n, rest) => (sequence? flow budget column rest).map fun (ns, rest) => (n :: ns, rest)
      | none => none
    else some ([], item :: items)

/-- The value behind a key. It is left out where the next key follows, or something further left. -/
def value? (flow : Bool) : (budget : Nat) → Key → List Item → Parsed Node
  | 0, _, _ => none
  | _ + 1, _, [] => some (.empty, [])
  | budget + 1, k, next :: items =>
    if next.line = k.line && (next.is .dash || (next.isKey && next.column ≠ k.column)) then none
    else if next.column < k.column || (next.column = k.column && next.isMapPart) then
      some (.empty, next :: items)
    else node? flow budget (next :: items)

/-- An entry of a map in block style and those that follow it in its column. -/
def entries? (flow : Bool) : (budget : Nat) → List Item → Parsed (List (Label × Node))
  | 0, _ => none
  | budget + 1, .key k :: items =>
    match k.label? flow, value? flow budget k items with
    | some label, some (v, rest) => moreEntries? flow budget k.column [(label, v)] rest
    | _, _ => none
  | budget + 1, .pair k s :: items =>
    match k.label? flow, mayFollow flow k.column items with
    | some label, true => moreEntries? flow budget k.column [(label, .scalar s)] items
    | _, _ => none
  | _ + 1, _ => none

/-- The entries of a map in a column, given those before. A bracket in that column ends them; a
curly one belongs to them. -/
def moreEntries? (flow : Bool) : (budget column : Nat) → List (Label × Node) → List Item →
    Parsed (List (Label × Node))
  | 0, _, _, _ => none
  | _ + 1, _, entries, [] => some (entries, [])
  | budget + 1, column, entries, item :: items =>
    if item.column ≠ column || (flow && item.is .closeList) then some (entries, item :: items)
    else if item.is .closeMap then some (entries, items)
    else if !item.isMapPart then none
    else match entries? flow budget (item :: items) with
      | some (more, rest) => moreEntries? flow budget column (entries ++ more) rest
      | none => none

/-- The rest of a map between curly brackets; the entries before it are given last first. Only the
first entry may do without a comma before it. -/
def flowMap? : (budget : Nat) → (first : Bool) → List (Label × Node) → List Item → Parsed Node
  | 0, _, _, _ => none
  | _ + 1, _, _, [] => none
  | budget + 1, first, entries, item :: items =>
    if item.is .closeMap then (Node.ofEntries? entries.reverse).map fun m => (m, items)
    else if !first && !item.is .comma then none
    else match if item.is .comma then items else item :: items with
      | [] => none
      | .pair k s :: rest =>
        match k.label? true with
        | some label => flowMap? budget false ((label, .scalar s) :: entries) rest
        | none => none
      | .key k :: rest =>
        match k.label? true, flowValue? budget rest with
        | some label, some (v, rest) => flowMap? budget false ((label, v) :: entries) rest
        | _, _ => none
      | .single t :: rest =>
        match t.kind with
        | .closeMap => (Node.ofEntries? entries.reverse).map fun m => (m, rest)
        | .scalar scalar =>
          if rest.head?.any Item.endsEntry then
            flowMap? budget false (({ scalar, bare := true }, .empty) :: entries) rest
          else none
        | _ => none

/-- The value behind a colon between curly brackets; it may be left out. -/
def flowValue? : (budget : Nat) → List Item → Parsed Node
  | 0, _ => none
  | budget + 1, items =>
    if items.head?.any Item.endsEntry then some (.empty, items) else node? true budget items

/-- The rest of a list between square brackets; the items before it are given last first. -/
def flowList? : (budget : Nat) → (first : Bool) → List Node → List Item → Parsed Node
  | 0, _, _, _ => none
  | _ + 1, _, _, [] => none
  | budget + 1, first, nodes, item :: items =>
    if item.is .closeList then some (.list nodes.reverse, items)
    else if first = item.is .comma then none
    else
      let items := if first then item :: items else items
      if items.head?.any (·.is .closeList) then some (.list nodes.reverse, items.drop 1)
      else match node? true budget items with
        | some (n, rest) => flowList? budget false (n :: nodes) rest
        | none => none

end

/-- The node of a document, if it is not empty. All of its items belong to it. -/
def document? (items : List Item) : Option (Option Node) :=
  if items = [] then some none
  else match node? false (4 * items.length + 4) items with
    | some (n, []) => some (some n)
    | _ => none

end Offside.Yaml
