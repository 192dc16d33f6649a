import Offside.Data
import Offside.Decimal.Digits

/-!
# Scalars

What a scalar means. A quoted scalar is a text. A plain one means nothing, a truth value, a number
or else a text. Whole numbers have a base mark or a leading zero for octal, and underscores anywhere
but at the start; those without a minus sign are unsigned. A number with a fraction has a point; an
exponent alone makes no number. What does not fit into 64 bits is a text.
-/

namespace Offside.Yaml

/-- A scalar: its text and whether it stands in quotes. -/
structure Scalar where
  text : Text
  quoted : Bool
deriving DecidableEq, Repr

/-- The words that mean nothing. -/
def nullWords : List String := ["", "~", "null", "Null", "NULL"]

/-- The words that mean a truth value. -/
def boolWords : List (String × Bool) :=
  [("true", true), ("True", true), ("TRUE", true), ("false", false), ("False", false),
    ("FALSE", false)]

/-- The words for numbers that no digits write. -/
def floatWords : List (String × Float) :=
  [(".inf", 1.0 / 0.0), (".Inf", 1.0 / 0.0), (".INF", 1.0 / 0.0), ("-.inf", -1.0 / 0.0),
    ("-.Inf", -1.0 / 0.0), ("-.INF", -1.0 / 0.0), (".nan", 0.0 / 0.0), (".NaN", 0.0 / 0.0),
    (".NAN", 0.0 / 0.0)]

/-- The digits of a whole number and their base. -/
def wholeDigits (t : Text) : Nat × Text :=
  match t with
  | '0' :: 'x' :: ds => (16, ds)
  | '0' :: 'o' :: ds => (8, ds)
  | '0' :: 'b' :: ds => (2, ds)
  | '0' :: d :: ds => (8, d :: ds)
  | ds => (10, ds)

/-- Whether a text starts with a mark for a base. -/
def hasBaseMark : Text → Bool
  | '0' :: c :: _ => c == 'x' || c == 'o' || c == 'b'
  | _ => false

/-- A number with its sign and its underscores already taken off. -/
def unsignedNumber? (negative : Bool) (t : Text) : Option Data :=
  if '.' ∈ t && !hasBaseMark t then
    (Decimal.float? t).map fun x => .float (if negative then -x else x)
  else
    let (base, ds) := wholeDigits t
    match Decimal.natOfDigits? base ds with
    | some n =>
      if negative then
        if n ≤ Nat.pow 2 63 then some (.int .int64 (-(n : Int))) else none
      else if n < Nat.pow 2 64 then some (.int .uint64 n) else none
    | none => none

/-- The text without a character at its start. -/
def dropSign (sign : Char) : Text → Text
  | [] => []
  | c :: t => if c = sign then t else c :: t

/-- The number that a text writes. A plus sign, a minus sign or both in this order may stand before
it. -/
def number? (t : Text) : Option Data :=
  if t.head? = some '_' || 1 < t.count '.' then none
  else unsignedNumber? (t.head? = some '-') ((dropSign '-' (dropSign '+' t)).filter (· ≠ '_'))

/-- The value of a plain scalar. -/
def resolve (t : Text) : Data :=
  let word := String.ofList t
  if word ∈ nullWords then .null
  else match boolWords.lookup word, floatWords.lookup word with
    | some b, _ => .bool b
    | none, some x => .float x
    | none, none => (number? t).getD (.text t)

namespace Scalar

/-- The scalar that stands for nothing. -/
def empty : Scalar := { text := [], quoted := false }

/-- The value of a scalar. -/
def value (s : Scalar) : Data := if s.quoted then .text s.text else resolve s.text

/-- The mark that stands as a key before a map whose entries are taken over. -/
def isMerge (s : Scalar) : Bool := !s.quoted && s.text = "<<".toList

/-- A plain scalar that means a text. -/
def isPlainText (s : Scalar) : Bool :=
  !s.quoted && !s.isMerge && match resolve s.text with
    | .text _ => true
    | _ => false

end Scalar
end Offside.Yaml
