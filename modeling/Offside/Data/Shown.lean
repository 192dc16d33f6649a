import Offside.Data
import Offside.Decimal.Shortest

/-!
# The text of a value

How a value is written into the output. At the top nothing is written for `null`; inside a list, a
map or a record it is `<nil>`. A value with a `String` method is written as that method says, and
inside others, or where there is no such method, one with an `Error` method as that one says; the
methods of what is in a private field are out of reach. References are followed at the top only.
-/

namespace Offside.Data

/-- The text that a value has by a method of its own, which takes nothing and gives a plain text. -/
def ownText? (v : Data) (name : String) : Option Text :=
  match Table.get? v.methods name.toList with
  | some (method (.result _) (some (text t))) => some t
  | _ => none

/-- The text that a value has by its methods inside another one, if they can be called. -/
def describes? (calls : Bool) (v : Data) : Option Text :=
  if calls then (v.ownText? "Error").or (v.ownText? "String") else none

mutual

/-- The text of a value inside another one; `calls` tells whether its methods can be called. -/
def shownBy (calls : Bool) : Data → Text
  | null => "<nil>".toList
  | bool b => if b then "true".toList else "false".toList
  | int _ n => Text.ofInt n
  | float x => Decimal.ofFloat x
  | float32 x => Decimal.ofFloat32 x
  | text t => t
  | list _ _ items => '[' :: shownItems calls items ++ [']']
  | dict _ _ _ entries => "map[".toList ++ shownEntries calls entries ++ [']']
  | declared type methods base =>
    (describes? calls (declared type methods base)).getD (shownBy calls base)
  | record type fields methods =>
    (describes? calls (record type fields methods)).getD ('{' :: shownFields calls fields ++ ['}'])
  | reference type methods value =>
    (describes? calls (reference type methods value)).getD
      (if value.isSome then "<pointer>".toList else "<nil>".toList)
  | method .. => "<func>".toList

/-- The texts of the items of a list, with spaces between them. -/
def shownItems (calls : Bool) : List Data → Text
  | [] => []
  | [v] => shownBy calls v
  | v :: vs => shownBy calls v ++ ' ' :: shownItems calls vs

/-- The entries of a map, with spaces between them. -/
def shownEntries (calls : Bool) : List (Data × Data) → Text
  | [] => []
  | [(k, v)] => shownBy calls k ++ ':' :: shownBy calls v
  | (k, v) :: es => shownBy calls k ++ ':' :: shownBy calls v ++ ' ' :: shownEntries calls es

/-- The values of the fields of a record, with spaces between them. -/
def shownFields (calls : Bool) : List (Text × Data) → Text
  | [] => []
  | [(n, v)] => shownBy (calls && isPublic n) v
  | (n, v) :: fs => shownBy (calls && isPublic n) v ++ ' ' :: shownFields calls fs

end

/-- The text of a value inside another one. -/
def shownInside (v : Data) : Text := shownBy true v

/-- Whether a value is made of others. -/
def isComposite : Data → Bool
  | list .. | dict .. | record .. => true
  | declared _ _ base => isComposite base
  | _ => false

/-- The text of a value as output. -/
def shown (v : Data) : Text :=
  match v with
  | null => []
  | reference _ _ (some target) =>
    (v.ownText? "String").or (v.ownText? "Error") |>.getD
      (if target.isComposite then '&' :: shownInside target else "<pointer>".toList)
  | v => (v.ownText? "String").getD (shownInside v)

end Offside.Data
