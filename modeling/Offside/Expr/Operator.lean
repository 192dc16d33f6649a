import Offside.Data.Shown
import Offside.Expr
import Offside.Expr.Number

/-!
# Operators on values

What the operators and functions of expressions do with values. An operation on values that it
does not accept fails; why it fails is of no interest to a template.
-/

namespace Offside.Data

/-! ## Equality -/

mutual

/-- Equality of values of the same type. -/
def identical : Data → Data → Bool
  | null, null => true
  | bool a, bool b => a == b
  | int s a, int t b => s == t && a == b
  | float a, float b => a == b
  | float32 a, float32 b => a == b
  | text a, text b => a == b
  | list e f a, list e' f' b =>
    e == e' && f == f' && identicalItems a b
  | dict k e p a, dict k' e' p' b =>
    k == k' && e == e' && p == p' && identicalEntries a b
  | declared s _ a, declared t _ b => s == t && identical a b
  | record s a _, record t b _ => s == t && identicalFields a b
  | reference s _ none, reference t _ none => s == t
  | reference s _ (some a), reference t _ (some b) => s == t && identical a b
  | _, _ => false

/-- Equality of lists, item by item. -/
def identicalItems : List Data → List Data → Bool
  | [], [] => true
  | a :: as, b :: bs => identical a b && identicalItems as bs
  | _, _ => false

/-- Equality of maps, entry by entry. -/
def identicalEntries : List (Data × Data) → List (Data × Data) → Bool
  | [], [] => true
  | (k, a) :: as, (l, b) :: bs => identical k l && identical a b && identicalEntries as bs
  | _, _ => false

/-- Equality of records, field by field. -/
def identicalFields : List (Text × Data) → List (Text × Data) → Bool
  | [], [] => true
  | (_, a) :: as, (_, b) :: bs => identical a b && identicalFields as bs
  | _, _ => false

end

/-- Whether lists of these elements and forms are compared item by item. -/
def comparableLists (e e' : ElemType) (f f' : ListForm) : Bool :=
  f != .fixed && f' != .fixed && (e == e' || e == .any || e' == .any)

mutual

/-- Equality as expressions see it: numbers are equal by value whatever their types, lists item by
item, absent values are all equal, and everything else must be of the same type. -/
def equals : Data → Data → Bool
  | list e f a, list e' f' b =>
    if comparableLists e e' f f' then equalItems a b
    else identical (list e f a) (list e' f' b)
  | a, b =>
    match a.number?, b.number? with
    | some m, some n => Number.test (· == ·) (· == ·) m n
    | _, _ => (a.isAbsent && b.isAbsent) || identical a b

/-- Equality of lists, item by item. -/
def equalItems : List Data → List Data → Bool
  | [], [] => true
  | a :: as, b :: bs => equals a b && equalItems as bs
  | _, _ => false

end

/-! ## Order -/

/-- Whether the first value comes before the second; numbers and texts can be compared. -/
def before? (a b : Data) : Option Bool :=
  match a, b with
  | text s, text t => some (Text.lt s t)
  | a, b =>
    match a.number?, b.number? with
    | some m, some n => some (Number.test (fun m n => decide (m < n)) (fun x y => x < y) m n)
    | _, _ => none

/-- Whether the first value comes before the second or is equal to it. -/
def notAfter? (a b : Data) : Option Bool :=
  match a, b with
  | text s, text t => some (Text.le s t)
  | a, b =>
    match a.number?, b.number? with
    | some m, some n => some (Number.test (fun m n => decide (m ≤ n)) (fun x y => x ≤ y) m n)
    | _, _ => none

/-! ## Arithmetic -/

/-- The sum of two numbers, or two texts one after the other. -/
def add? (a b : Data) : Option Data :=
  match a, b with
  | text s, text t => some (text (s ++ t))
  | a, b => do
    let m ← a.number?
    let n ← b.number?
    some (Number.apply (· + ·) (· + ·) m n).toData

/-- The difference of two numbers. -/
def sub? (a b : Data) : Option Data := do
  let m ← a.number?
  let n ← b.number?
  some (Number.apply (· - ·) (· - ·) m n).toData

/-- The product of two numbers. -/
def mul? (a b : Data) : Option Data := do
  let m ← a.number?
  let n ← b.number?
  some (Number.apply (· * ·) (· * ·) m n).toData

/-- The quotient of two numbers, in floating point. -/
def div? (a b : Data) : Option Data := do
  let m ← a.number?
  let n ← b.number?
  some (float (m.toFloat / n.toFloat))

/-- A number to the power of another, in floating point. -/
def pow? (a b : Data) : Option Data := do
  let m ← a.number?
  let n ← b.number?
  some (float (power m.toFloat n.toFloat))

/-- The remainder of two integers, with the sign of the dividend. There is none by zero. -/
def mod? (a b : Data) : Option Data := do
  let m ← a.integer?
  let n ← b.integer?
  if n = 0 then none else some (ofInt (Int.tmod m n))

/-! ## Lists, maps and texts -/

/-- The first integer of a range and how many there are. A range whose end comes before its start
is empty; the count is a word, so that it may wrap around. -/
def rangeOf? (a b : Data) : Option (Int × Nat) := do
  let lo ← a.whole?
  let hi ← b.whole?
  some (lo, (wrapSigned 64 (hi - lo + 1)).toNat)

/-- The list of `count` integers from `lo` on. -/
def ofRange (lo : Int) (count : Nat) : Data :=
  list .int .growable ((List.range count).map fun (i : Nat) => ofInt (lo + i))

/-- A condition on two texts; it does not hold of absent values. -/
def onTexts? (p : Text → Text → Bool) (a b : Data) : Option Data :=
  if a.isAbsent || b.isAbsent then some (bool false)
  else match a, b with
    | text s, text t => some (bool (p s t))
    | _, _ => none

/-- The value that stands for a missing one of a type. -/
def zeroOf : ElemType → Data
  | .any => null
  | .text => text []
  | .int => ofInt 0

/-- Whether a value can be looked up among keys of a type; `null` stands for the zero key. -/
def asKey? (key : KeyType) (v : Data) : Option Data :=
  match key, v with
  | .text, text t => some (text t)
  | .text, null => some (text [])
  | .int type, int type' n => if type = type' then some (int type n) else none
  | .int type, null => some (int type 0)
  | .declared type, declared type' ms base =>
    if type = type' then some (declared type' ms base) else none
  | .declared type, null => some (declared type [] (text []))
  | _, _ => none

/-- The entry of a key. -/
def lookup (entries : List (Data × Data)) (key : Data) : Option Data :=
  (entries.find? fun e => identical e.1 key).map (·.2)

/-- The position that an index means in a list of the given length; negative ones count from the
end. -/
def position? (length : Nat) (index : Data) : Option Nat := do
  let n ← index.whole?
  let n := if n < 0 then length + n else n
  if 0 ≤ n && n < length then some n.toNat else none

/-- The bytes of a text, as numbers. -/
def bytesOf (t : Text) : List UInt8 := (String.ofList t).toUTF8.toList

/-- The field of a record that a name reads. The empty name reads the only field there is; fields
that are not public cannot be read. -/
def field? (fields : List (Text × Data)) (name : Text) : Option Data :=
  match name, fields with
  | [], [(n, v)] => if isPublic n then some v else none
  | name, fields => if isPublic name then Table.get? fields name else none

/-- A member of a value: a method, an item, an entry, a public field or, in a text, a byte. -/
def member? (base key : Data) : Option Data :=
  let method? : Option Data := match key with
    | text n => Table.get? base.methods n
    | _ => none
  match method? with
  | some m => some m
  | none =>
    match base.deref with
    | list _ _ items => do
      let i ← position? items.length key
      items[i]?
    | dict k e _ entries => do
      let key ← asKey? k key
      some ((lookup entries key).getD (zeroOf e))
    | record _ fields _ =>
      match key with
      | text n => field? fields n
      | _ => none
    | text t => byteAt? t key
    | declared _ _ (text t) => byteAt? t key
    | _ => none
where
  /-- The byte of a text at an index. -/
  byteAt? (t : Text) (key : Data) : Option Data := do
    let bytes := bytesOf t
    let i ← position? bytes.length key
    let b ← bytes[i]?
    some (int .uint8 b.toNat)

/-- Whether a value is an item of a list, a key of a map or the name of a field. -/
def isIn? (v container : Data) : Option Bool :=
  if container.isAbsent then
    match container with
    | dict k _ _ _ => (asKey? k v).map fun _ => false
    | _ => some false
  else match container.deref with
    | list _ _ items => some (items.any fun item => equals item v)
    | dict k _ _ entries => (asKey? k v).map fun key => (lookup entries key).isSome
    | record _ fields _ =>
      match v with
      | text n => some (fields.any (·.1 == n))
      | declared _ _ (text n) => some (fields.any (·.1 == n))
      | _ => none
    | _ => none

/-! ## Functions -/

/-- The number of characters, items or entries of a value. -/
def length? : Data → Option Nat
  | text t => some t.length
  | list _ _ items => some items.length
  | dict _ _ _ entries => some entries.length
  | declared _ _ (text t) => some t.length
  | _ => none

/-- The value of a call. `null` stands for the zero value of an argument. -/
def call? : Data → List Data → Option Data
  | method (.result _) (some v), [] => some v
  | method .addInt (some (int _ n)), [int .int m] => some (ofInt (wrapSigned 64 (n + m)))
  | method .addInt (some (int _ n)), [null] => some (ofInt (wrapSigned 64 n))
  | method .appendText (some (text s)), [text t] => some (text (s ++ t))
  | method .appendText (some (text s)), [null] => some (text s)
  | _, _ => none

/-- The value of a function. -/
def builtin? : Builtin → List Data → Option Data
  | .len, [v] => v.length?.map fun n => ofInt n
  | .upper, [text t] => some (text (t.map Char.toUpper))
  | .lower, [text t] => some (text (t.map Char.toLower))
  | .trim, [text t] => some (text (Text.trim t))
  | .trim, [text t, text cut] => some (text (Text.trimBoth (cut.elem ·) t))
  | _, _ => none

end Offside.Data
