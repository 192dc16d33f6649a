import Offside.Text.Basic

/-!
# Expressions

The expressions inside a template: literals, names, lists, maps, operators, access to members and
calls. A chain is the part of an expression that an absent value before `?.` skips. The size of an
expression is what a limit on its length is measured by.
-/

namespace Offside

/-- Operators in front of an operand. -/
inductive UnaryOp where
  | not
  | neg
  | pos
deriving DecidableEq, Repr

/-- Operators between two operands. -/
inductive BinaryOp where
  | or
  | and
  | eq
  | ne
  | lt
  | gt
  | le
  | ge
  | isIn
  | contains
  | startsWith
  | endsWith
  | range
  | add
  | sub
  | mul
  | div
  | mod
  | pow
  | coalesce
deriving DecidableEq, Repr

/-- Functions that every expression can call. -/
inductive Builtin where
  | len
  | upper
  | lower
  | trim
deriving DecidableEq, Repr

/-- An expression. -/
inductive Expr where
  | null
  | bool (b : Bool)
  | int (n : Int)
  | float (x : Float)
  | text (t : Text)
  | name (n : Text)
  | list (items : List Expr)
  | map (pairs : List (Expr × Expr))
  | unary (op : UnaryOp) (e : Expr)
  | binary (op : BinaryOp) (left right : Expr)
  | cond (test yes no : Expr)
  /-- The condition itself if it holds, and `no` otherwise. -/
  | fallback (test no : Expr)
  /-- A member of a value; with `optional`, an absent value ends the chain. -/
  | member (base key : Expr) (optional : Bool)
  | chain (e : Expr)
  | call (callee : Expr) (args : List Expr)
  | builtin (f : Builtin) (args : List Expr)
  /-- Several expressions, of which the last one gives the value. -/
  | seq (items : List Expr)
deriving Inhabited

namespace UnaryOp

/-- The operator that a symbol stands for. -/
def ofSymbol? : String → Option UnaryOp
  | "not" => some not
  | "!" => some not
  | "-" => some neg
  | "+" => some pos
  | _ => none

/-- How tightly an operator binds its operand. -/
def precedence : UnaryOp → Nat
  | not => 50
  | neg => 90
  | pos => 90

end UnaryOp

namespace BinaryOp

/-- The operator that a symbol stands for. -/
def ofSymbol? : String → Option BinaryOp
  | "or" => some or
  | "||" => some or
  | "and" => some and
  | "&&" => some and
  | "==" => some eq
  | "!=" => some ne
  | "<" => some lt
  | ">" => some gt
  | "<=" => some le
  | ">=" => some ge
  | "in" => some isIn
  | "contains" => some contains
  | "startsWith" => some startsWith
  | "endsWith" => some endsWith
  | ".." => some range
  | "+" => some add
  | "-" => some sub
  | "*" => some mul
  | "/" => some div
  | "%" => some mod
  | "**" => some pow
  | "^" => some pow
  | "??" => some coalesce
  | _ => none

/-- How tightly an operator binds its operands. -/
def precedence : BinaryOp → Nat
  | or => 10
  | and => 15
  | eq | ne | lt | gt | le | ge | isIn | contains | startsWith | endsWith => 20
  | range => 25
  | add | sub => 30
  | mul | div | mod => 60
  | pow => 100
  | coalesce => 500

/-- Operators that can be chained, as in `a < b < c`. -/
def isComparison : BinaryOp → Bool
  | lt | gt | le | ge => true
  | _ => false

/-- Operators that `not` can stand before, as in `a not in b`. -/
def isNegatable : BinaryOp → Bool
  | isIn | contains | startsWith | endsWith => true
  | _ => false

/-- The least precedence of an operator in the right operand: operators of the same precedence are
grouped from the left, but powers from the right. -/
def rightPrecedence (op : BinaryOp) : Nat :=
  if op = pow then op.precedence else op.precedence + 1

end BinaryOp

/-- The function that a name stands for in a call. -/
def Builtin.ofName? (name : Text) : Option Builtin :=
  if name = "len".toList then some len
  else if name = "upper".toList then some upper
  else if name = "lower".toList then some lower
  else if name = "trim".toList then some trim
  else none

/-- The names of functions. Such a name is no plain name: what it stands for is known to be a
function wherever types are checked. -/
def functionNames : List String :=
  ["all", "none", "any", "one", "filter", "map", "find", "findIndex", "findLast", "findLastIndex",
    "count", "sum", "groupBy", "sortBy", "reduce", "len", "type", "abs", "ceil", "floor", "round",
    "int", "float", "string", "trim", "trimPrefix", "trimSuffix", "upper", "lower", "split",
    "splitAfter", "replace", "repeat", "join", "indexOf", "lastIndexOf", "hasPrefix", "hasSuffix",
    "max", "min", "mean", "median", "toJSON", "fromJSON", "toBase64", "fromBase64", "now",
    "duration", "date", "timezone", "first", "last", "get", "take", "keys", "values", "toPairs",
    "fromPairs", "reverse", "uniq", "concat", "flatten", "sort", "bitand", "bitor", "bitxor",
    "bitnand", "bitshl", "bitshr", "bitushr", "bitnot"]

/-- Whether a name is the name of a function. -/
def isFunctionName (name : Text) : Bool := functionNames.any (·.toList == name)

namespace Expr

/-- How many members a chain goes through, from the first optional one on. -/
def links : Expr → Nat
  | member base _ optional =>
    match links base with
    | 0 => if optional then 1 else 0
    | n + 1 => n + 2
  | call callee _ => links callee
  | _ => 0

mutual

/-- The size of an expression: its literals, names, operators, calls, lists and maps, the names and
positions of members, the entries of maps and the links of chains. -/
def size : Expr → Nat
  | list items => sizes items + 1
  | map pairs => pairSizes pairs + 1
  | unary _ e => size e + 1
  | binary _ l r => size l + size r + 1
  | cond test yes no => size test + size yes + size no + 1
  | fallback test no => size test + size no + 1
  | member base key _ => size base + size key + 1
  | chain e => size e + links e
  | call callee args => size callee + sizes args + 1
  | builtin _ args => sizes args + 1
  | seq items => sizes items + 1
  | _ => 1

/-- The sizes of several expressions together. -/
def sizes : List Expr → Nat
  | [] => 0
  | e :: es => size e + sizes es

/-- The sizes of the entries of a map together. -/
def pairSizes : List (Expr × Expr) → Nat
  | [] => 0
  | (k, v) :: ps => size k + size v + 1 + pairSizes ps

end

end Expr
end Offside
