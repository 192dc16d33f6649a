import Offside.Data

/-!
# Arithmetic on values

Integers of all types are computed with as 64-bit words that wrap around; as soon as one operand
is a floating-point number, both are taken as such, each with the value it has in its own type.
Quotients and powers are always floating-point numbers. Only plain numbers take part: values of
declared types do not.
-/

namespace Offside

/-- A number to compute with. An integer has the value that it has in its type. -/
inductive Number where
  | int (n : Int)
  | float (x : Float)

namespace Number

/-- The number as a floating-point number. -/
def toFloat : Number → Float
  | int n => Float.ofInt n
  | float x => x

/-- The word that an integer is computed with. -/
def word (n : Int) : Int := wrapSigned 64 n

/-- The number as a value. -/
def toData : Number → Data
  | int n => Data.ofInt n
  | float x => .float x

/-- Applies an operation to two numbers, in integers if both are. -/
def apply (onInts : Int → Int → Int) (onFloats : Float → Float → Float) (a b : Number) : Number :=
  match a, b with
  | int m, int n => int (wrapSigned 64 (onInts (word m) (word n)))
  | a, b => float (onFloats a.toFloat b.toFloat)

/-- Compares two numbers, as integers if both are. -/
def test (onInts : Int → Int → Bool) (onFloats : Float → Float → Bool) (a b : Number) : Bool :=
  match a, b with
  | int m, int n => onInts (word m) (word n)
  | a, b => onFloats a.toFloat b.toFloat

end Number

namespace Data

/-- The number that a value is, if it is one. -/
def number? : Data → Option Number
  | int .uintptr _ => none
  | int _ n => some (.int n)
  | float x => some (.float x)
  | float32 x => some (.float x.toFloat)
  | _ => none

/-- The word of the integer that a value is, if it is one. -/
def integer? (v : Data) : Option Int :=
  match v.number? with
  | some (.int n) => some (Number.word n)
  | _ => none

/-- The word that is left of a floating-point number without what follows the point. Numbers that
no word is near to give the least word. -/
def truncated (x : Float) : Int :=
  if -9223372036854775808.0 ≤ x && x < 9223372036854775808.0 then x.toInt64.toInt
  else -9223372036854775808

/-- The word that a number counts as where positions and bounds are asked for. -/
def whole? (v : Data) : Option Int :=
  match v.number? with
  | some (.int n) => some (Number.word n)
  | some (.float x) => some (truncated x)
  | none => none

/-- The value with its sign changed; its type stays. -/
def negate? : Data → Option Data
  | int .uintptr _ => none
  | int type n => some (int type (type.wrap (-n)))
  | float x => some (float (-x))
  | float32 x => some (float32 (-x))
  | _ => none

end Data

/-! ## Powers -/

/-- Multiplies `a · 2 ^ ae` by the `i`-th power of `x · 2 ^ xe`, by repeated squaring. The factor
`x` is kept between one half and one so that nothing overflows on the way. -/
def powerLoop (i : Nat) (x : Float) (xe : Int) (a : Float) (ae : Int) : Float × Int :=
  if _h : i = 0 then (a, ae)
  else if xe < -4096 || 4096 < xe then (a, ae + xe)
  else
    let (a, ae) := if i % 2 = 1 then (a * x, ae + xe) else (a, ae)
    let x := x * x
    let xe := 2 * xe
    let (x, xe) := if x < 0.5 then (x + x, xe - 1) else (x, xe)
    powerLoop (i / 2) x xe a ae
termination_by i

/-- `x` to the power of `y`. For finite `x ≠ 0` and `y` the whole part of the exponent is done by
repeated squaring and the rest by exponential and logarithm. -/
def power (x y : Float) : Float :=
  if x == 0 || !x.isFinite || !y.isFinite || x == 1 || y == 0 then Float.pow x y
  else if y == 1 then x
  else if y == 0.5 then x.sqrt
  else if y == -0.5 then 1 / x.sqrt
  else
    let whole := y.abs.floor
    let rest := y.abs - whole
    if rest != 0 && x < 0 then Float.pow x y
    else if 9223372036854775808.0 ≤ whole then Float.pow x y
    else
      let (rest, whole) := if 0.5 < rest then (rest - 1, whole + 1) else (rest, whole)
      let a := if rest != 0 then (rest * x.log).exp else 1
      let (m, e) := x.frExp
      let (a, ae) := powerLoop whole.toUInt64.toNat m e a 0
      if y < 0 then (1 / a).scaleB (-ae) else a.scaleB ae

end Offside
