import Offside.Expr

/-!
# Types that are known in advance

Names have no declared types, so most of an expression is only checked when it runs. What literals
make certain is checked beforehand: `1 + 'a'` is refused, while `n + 'a'` is not. An operator
accepts an operand of unknown type if its other operand could go with some value.

Nothing is known of a name, and the type of what is taken out of a container of mixed values is
only known to be some type. Both are open; they differ in what a known type can be assigned to.
-/

namespace Offside

/-- What is known of the type of an expression. -/
inductive StaticType where
  | unknown
  /-- Some type, as of an item of a list of mixed values. -/
  | any
  | null
  | bool
  | int
  | float
  | text
  | list (elem : StaticType)
  /-- The list of the integers of a range. -/
  | ints
  | map
  | function
deriving DecidableEq, Repr

namespace StaticType

/-- Types of which nothing is known before the expression runs. -/
def isOpen : StaticType → Bool
  | unknown | any => true
  | _ => false

/-- Integers and floating-point numbers. -/
def isNumber : StaticType → Bool
  | int | float => true
  | _ => false

/-- The type of the items of a list. -/
def elem? : StaticType → Option StaticType
  | list e => some e
  | ints => some int
  | _ => none

/-- Lists of whatever type. -/
def isList (t : StaticType) : Bool := t.elem?.isSome

/-- Whether two types are of one kind. All lists are, and so are the types without a value type. -/
def sameKind (l r : StaticType) : Bool :=
  l = r || (l.isList && r.isList) || (l = unknown && r = null) || (l = null && r = unknown)

/-- Whether a value of the first type can take the place of one of the second. -/
def assignable (l r : StaticType) : Bool :=
  match l, r with
  | unknown, _ => false
  | _, unknown => false
  | _, null => false
  | null, r => r = any || r.isList || r = map || r = function
  | _, any => true
  | list _, list _ => true
  | l, r => l = r

/-- Whether two operands, one of them of open type or both, can go together under an operator that
accepts the types in `p`. -/
def looselyBoth (p : StaticType → Bool) (l r : StaticType) : Bool :=
  (l.isOpen && (r.isOpen || p r)) || (p l && r.isOpen)

/-- Whether an operator accepts operands that both have the property, or of which some is open. -/
def both (p : StaticType → Bool) (l r : StaticType) : Bool := (p l && p r) || looselyBoth p l r

/-- Whether values of the two types can be equal. -/
def comparable (l r : StaticType) : Bool :=
  l.isOpen || r.isOpen || l = null || r = null || (l.isNumber && r.isNumber) || sameKind l r

/-- The type of `+`, `-` and `*` on numbers. -/
def arithmetic (l r : StaticType) : StaticType := if l = int && r = int then int else float

/-- The type of a list literal, given the types of its items: they are known only if they are all
of one kind, and then the last one counts. -/
def ofItems : List StaticType → StaticType
  | [] => list unknown
  | t :: ts => if ts.all (sameKind t) then list (ts.getLast?.getD t) else list any

/-- The type of a value that is one of two. -/
def ofEither (l r : StaticType) : StaticType :=
  if l = null then r
  else if r = null then l
  else if assignable l r then l
  else unknown

/-- The type that a unary operator gives, if it accepts its operand. -/
def ofUnary (op : UnaryOp) (t : StaticType) : Option StaticType :=
  match op with
  | .not => if t = bool || t.isOpen then some bool else none
  | .neg | .pos => if t.isNumber then some t else if t.isOpen then some unknown else none

/-- The type that an operator gives, if it accepts its operands. -/
def ofBinary (op : BinaryOp) (l r : StaticType) : Option StaticType :=
  let when (b : Bool) (t : StaticType) : Option StaticType := if b then some t else none
  match op with
  | .eq | .ne => when (comparable l r) bool
  | .or | .and => when (both (· = bool) l r) bool
  | .lt | .gt | .le | .ge =>
    when ((l = text && r = text) || (l.isNumber && r.isNumber)
      || looselyBoth (fun t => t.isNumber || t = text) l r) bool
  | .add =>
    if l.isNumber && r.isNumber then some (arithmetic l r)
    else if l = text && r = text then some text
    else when (looselyBoth (fun t => t.isNumber || t = text) l r) unknown
  | .sub | .mul =>
    if l.isNumber && r.isNumber then some (arithmetic l r)
    else when (looselyBoth isNumber l r) unknown
  | .div | .pow => when (both isNumber l r) float
  | .mod => when (both (· = int) l r) int
  | .range => when (both (· = int) l r) ints
  | .contains | .startsWith | .endsWith => when (both (· = text) l r) bool
  | .isIn =>
    match r with
    | map => when (l.isOpen || l = text) bool
    | text => when l.isOpen bool
    | r =>
      match r.elem? with
      | some elem => when (comparable l elem) bool
      | none => when r.isOpen bool
  | .coalesce =>
    if l = null then some r else if r = null then some l
    else some (if assignable r l then r else unknown)

/-- The type of a member, if there can be one. -/
def ofMember (base key : StaticType) : Option StaticType :=
  if base.isOpen then some unknown
  else if base = map then if key = text || key.isOpen then some any else none
  else match base.elem? with
    | some elem => if key = int || key.isOpen then some elem else none
    | none => none

/-- The type that a function gives, if it accepts its arguments. -/
def ofBuiltin (f : Builtin) (args : List StaticType) : Option StaticType :=
  let textual (t : StaticType) : Bool := t = text || t.isOpen
  match f, args with
  | .len, [t] => if textual t || t = map || t.isList then some int else none
  | .upper, [t] => if textual t then some text else none
  | .lower, [t] => if textual t then some text else none
  | .trim, [t] => if textual t then some text else none
  | .trim, [t, u] => if textual t && textual u then some text else none
  | _, _ => none

end StaticType
end Offside
