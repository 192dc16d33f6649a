import Offside.Data.Shown
import Offside.Yaml.Node

/-!
# The values of documents

A node stands for a value. The entries of a map are set one after the other, so of two keys with one
text the later one counts; a merge key sets the entries of a map, or of all maps of a list, in its
place. A text may hold several documents; the first one with a value is the one that is read.
-/

namespace Offside.Yaml

/-- The text of a key. A key without a value has a name of its own, except in the map that is the
whole document, where its text is empty. -/
def Scalar.keyText (whole : Bool) (s : Scalar) : Text :=
  match s.value with
  | .text t => t
  | .null => if whole then [] else "null".toList
  | v => v.shown

namespace Node

mutual

/-- The value of a node. -/
def data? : Node → Option Data
  | .scalar s => some (if s.isMerge then .null else s.value)
  | .list items => (items? items).map .ofList
  | .map entries => (fields? false entries).map .ofFields

/-- The values of the items of a list. -/
def items? : List Node → Option (List Data)
  | [] => some []
  | n :: ns =>
    match n.data?, items? ns with
    | some v, some vs => some (v :: vs)
    | _, _ => none

/-- The fields that the entries of a map set, in order. -/
def fields? (whole : Bool) : List (Label × Node) → Option (List (Text × Data))
  | [] => some []
  | (label, n) :: entries =>
    let first := if label.scalar.isMerge then n.merged? whole
      else n.data?.map fun v => [(label.scalar.keyText whole, v)]
    match first, fields? whole entries with
    | some fs, some gs => some (fs ++ gs)
    | _, _ => none

/-- The fields that a value behind a merge key sets. -/
def merged? (whole : Bool) : Node → Option (List (Text × Data))
  | .scalar _ => none
  | .list items => mergedItems? whole items
  | .map entries => fields? whole entries

/-- The fields that a list behind a merge key sets. -/
def mergedItems? (whole : Bool) : List Node → Option (List (Text × Data))
  | [] => some []
  | .map entries :: ns =>
    match fields? whole entries, mergedItems? whole ns with
    | some fs, some gs => some (fs ++ gs)
    | _, _ => none
  | _ :: _ => none

end

/-- Whether a node has no value at all, as opposed to one that says so. -/
def isAbsent : Node → Bool
  | .scalar s => s.isMerge
  | _ => false

end Node

/-- The nodes of the documents that have a value. All documents must be well formed. -/
def nodes? (t : Text) : Option (List Node) :=
  match documents? t with
  | none => none
  | some documents =>
    match documents.mapM document? with
    | none => none
    | some nodes =>
      let nodes := nodes.filterMap id
      if nodes.all (·.data?.isSome) then some (nodes.filter (!·.isAbsent)) else none

/-- The fields of the map that a text holds. An empty text holds an empty map. -/
def fieldsOf? (t : Text) : Option (List (Text × Data)) :=
  match nodes? t with
  | none => none
  | some [] => some []
  | some (.map entries :: _) => Node.fields? true entries
  | some _ => none

end Offside.Yaml
