import Offside.Table
import Offside.Text.Letter

/-!
# Data

A template is rendered against a value of the program that embeds it. Such values are dynamic:
what an expression may do with one depends on its type, and the type has a name that is shown and
compared. Besides plain values there are values of declared types, records with fields and methods,
references and bound methods.

A name is public when it starts with an upper case letter; the other fields of a record can be
printed but not read.
-/

namespace Offside

/-- The integer types. -/
inductive IntType where
  | int
  | int8
  | int16
  | int32
  | int64
  | uint
  | uint8
  | uint16
  | uint32
  | uint64
  | uintptr
deriving DecidableEq, Repr

/-- The name of an integer type. -/
def IntType.name : IntType → String
  | int => "int"
  | int8 => "int8"
  | int16 => "int16"
  | int32 => "int32"
  | int64 => "int64"
  | uint => "uint"
  | uint8 => "uint8"
  | uint16 => "uint16"
  | uint32 => "uint32"
  | uint64 => "uint64"
  | uintptr => "uintptr"

/-- The least integer not below `-2 ^ (bits - 1)` that agrees with `n` modulo `2 ^ bits`. -/
def wrapSigned (bits : Nat) (n : Int) : Int := Int.bmod n (Nat.pow 2 bits)

/-- The least natural number that agrees with `n` modulo `2 ^ bits`. -/
def wrapUnsigned (bits : Nat) (n : Int) : Int := n % (Nat.pow 2 bits : Nat)

/-- The value of an integer in a type: it wraps around at the type's bounds. -/
def IntType.wrap : IntType → Int → Int
  | int => wrapSigned 64
  | int8 => wrapSigned 8
  | int16 => wrapSigned 16
  | int32 => wrapSigned 32
  | int64 => wrapSigned 64
  | uint => wrapUnsigned 64
  | uint8 => wrapUnsigned 8
  | uint16 => wrapUnsigned 16
  | uint32 => wrapUnsigned 32
  | uint64 => wrapUnsigned 64
  | uintptr => wrapUnsigned 64

/-- The identity of a type. Declared types may share a name; `serial` tells them apart. -/
structure TypeId where
  name : Text
  serial : Nat := 0
deriving DecidableEq, Repr

/-- The type of the elements of a list or a map. -/
inductive ElemType where
  | any
  | text
  | int
deriving DecidableEq, Repr

/-- The name of an element type. -/
def ElemType.name : ElemType → String
  | any => "interface \x7b\x7d"
  | text => "string"
  | int => "int"

/-- How a list is held: with a length of its own, with a fixed length, or not at all. -/
inductive ListForm where
  | growable
  | fixed
  | absent
deriving DecidableEq, Repr

/-- The type of the keys of a map. Declared key types are over texts. -/
inductive KeyType where
  | text
  | int (type : IntType := .int)
  | declared (type : TypeId)
deriving DecidableEq, Repr

/-- The name of a key type. -/
def KeyType.name : KeyType → Text
  | text => "string".toList
  | int type => type.name.toList
  | declared type => type.name

/-- What a bound method does when it is called. -/
inductive Action where
  /-- Takes nothing and gives its bound value, which is of the given type. -/
  | result (type : TypeId)
  /-- Adds its argument to the bound integer. -/
  | addInt
  /-- Appends its argument to the bound text. -/
  | appendText
deriving DecidableEq, Repr

/-- The type of a method. -/
def Action.signature : Action → Text
  | result type => "func() ".toList ++ type.name
  | addInt => "func(int) int".toList
  | appendText => "func(string) string".toList

/-- A value. -/
inductive Data where
  | null
  | bool (b : Bool)
  | int (type : IntType) (n : Int)
  | float (x : Float)
  | float32 (x : Float32)
  | text (t : Text)
  | list (elem : ElemType) (form : ListForm) (items : List Data)
  /-- A map; the entries are in the order of their keys, and `present` is false for a map that was
  never made. -/
  | dict (key : KeyType) (elem : ElemType) (present : Bool) (entries : List (Data × Data))
  /-- A value of a declared type, with the value it is made of. -/
  | declared (type : TypeId) (methods : List (Text × Data)) (base : Data)
  | record (type : TypeId) (fields methods : List (Text × Data))
  /-- A reference of the given type to a value, or to nothing. -/
  | reference (type : TypeId) (methods : List (Text × Data)) (value : Option Data)
  /-- A method with the value that it works on; without one, calling it fails. -/
  | method (action : Action) (bound : Option Data)
deriving Inhabited

/-- The names that an expression can use, with their values. -/
abbrev Env := Table Data

namespace Data

/-- An ordinary integer. -/
def ofInt (n : Int) : Data := int .int n

/-- The number that a loop has counted to, as an ordinary integer: it wraps around. -/
def counted (i : Nat) : Data := ofInt (IntType.int.wrap i)

/-- A list of values of any type. -/
def ofList (items : List Data) : Data := list .any .growable items

/-- Inserts an entry into entries that are ordered by a key, in place of one with the same key. -/
def insertEntry {κ : Type} (lt : κ → κ → Bool) (keyOf : Data → κ) (e : Data × Data) :
    List (Data × Data) → List (Data × Data)
  | [] => [e]
  | f :: fs =>
    if lt (keyOf e.1) (keyOf f.1) then e :: f :: fs
    else if lt (keyOf f.1) (keyOf e.1) then f :: insertEntry lt keyOf e fs
    else e :: fs

/-- The text of a key that is a text, also of a declared type. -/
def keyText : Data → Text
  | text t => t
  | declared _ _ (text t) => t
  | _ => []

/-- The number of a key that is an integer. -/
def keyInt : Data → Int
  | int _ n => n
  | _ => 0

/-- The map of the given entries; of several entries with one key the last one counts. -/
def ofEntries (key : KeyType) (elem : ElemType) (entries : List (Data × Data)) : Data :=
  let insert := match key with
    | .int _ => insertEntry (fun a b => decide (a < b)) keyInt
    | _ => insertEntry Text.lt keyText
  dict key elem true (entries.foldl (fun acc e => insert e acc) [])

/-- A map from texts to values of any type. -/
def ofFields (fields : List (Text × Data)) : Data :=
  ofEntries .text .any (fields.map fun (k, v) => (text k, v))

/-- The name of a value's type. -/
def typeName : Data → Text
  | null => "<nil>".toList
  | bool _ => "bool".toList
  | int type _ => type.name.toList
  | float _ => "float64".toList
  | float32 _ => "float32".toList
  | text _ => "string".toList
  | list elem form items =>
    (if form = .fixed then '[' :: Text.ofNat items.length ++ [']'] else "[]".toList)
      ++ elem.name.toList
  | dict key elem _ _ => "map[".toList ++ key.name ++ ']' :: elem.name.toList
  | declared type _ _ => type.name
  | record type _ _ => type.name
  | reference type _ _ => type.name
  | method action _ => action.signature

/-- The identity of a value's type. Types that are built from a declared one differ when it does. -/
def typeId : Data → TypeId
  | declared type _ _ => type
  | record type _ _ => type
  | reference type _ _ => type
  | dict (.declared key) elem present entries =>
    { name := (dict (.declared key) elem present entries).typeName, serial := key.serial }
  | method (.result type) bound =>
    { name := (method (.result type) bound).typeName, serial := type.serial }
  | v => { name := v.typeName }

/-- The value that references lead to; a reference to nothing leads to `null`. -/
def deref : Data → Data
  | reference _ _ (some v) => deref v
  | reference _ _ none => null
  | v => v

/-- The methods of a value. -/
def methods : Data → List (Text × Data)
  | declared _ methods _ => methods
  | record _ _ methods => methods
  | reference _ methods _ => methods
  | _ => []

/-- The text that a method without arguments gives, if the value has it. -/
def methodText? (v : Data) (name : String) : Option Text :=
  match Table.get? v.methods name.toList with
  | some (method (.result _) (some (text t))) => some t
  | some (method (.result _) (some (declared _ _ (text t)))) => some t
  | _ => none

/-- Whether a name can be read from outside its record. -/
def isPublic : Text → Bool
  | [] => false
  | c :: _ => isUpper c

/-- Absent values: nothing, and lists, maps and references that hold nothing at all. -/
def isAbsent : Data → Bool
  | null => true
  | list _ .absent _ => true
  | dict _ _ false _ => true
  | reference _ _ none => true
  | _ => false

end Data
end Offside
