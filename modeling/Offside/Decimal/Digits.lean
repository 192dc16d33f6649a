import Offside.Text.Basic

/-!
# Reading numbers

Numbers are written by digits of some base, or as a decimal with a point and an exponent. The float
that a decimal stands for is the one nearest to it.
-/

namespace Offside.Decimal

/-- The value of a hexadecimal digit. -/
def digitValue? (c : Char) : Option Nat :=
  if '0' ≤ c && c ≤ '9' then some (c.toNat - 48)
  else if 'a' ≤ c && c ≤ 'f' then some (c.toNat - 87)
  else if 'A' ≤ c && c ≤ 'F' then some (c.toNat - 55)
  else none

/-- The number that exactly `count` digits at the start of a text write, and the rest. -/
def readDigits (base : Nat) : (count acc : Nat) → Text → Option (Nat × Text)
  | 0, acc, t => some (acc, t)
  | _ + 1, _, [] => none
  | count + 1, acc, c :: t =>
    match digitValue? c with
    | some d => if d < base then readDigits base count (acc * base + d) t else none
    | none => none

/-- The value of digits in a base, if all are digits of that base and there is one. -/
def natOfDigits? (base : Nat) (ds : Text) : Option Nat :=
  if ds.isEmpty then none else (readDigits base ds.length 0 ds).map (·.1)

/-- The exponent of a decimal: nothing, or a mark, a sign and digits. -/
def exponent? : Text → Option Int
  | [] => some 0
  | _ :: '-' :: ds => (natOfDigits? 10 ds).map fun n => -(n : Int)
  | _ :: '+' :: ds => (natOfDigits? 10 ds).map fun n => (n : Int)
  | _ :: ds => (natOfDigits? 10 ds).map fun n => (n : Int)

/-- The float nearest to `m · 10 ^ e`. Decimals that are far too large or too small for a float are
told by their exponent, so that no huge power is computed for them. -/
def toFloat (m : Nat) (e : Int) : Float :=
  if m = 0 then 0
  else if 400 < e then 1.0 / 0.0
  else if e + (Nat.log2 m : Int) < -400 then 0
  else Float.ofScientific m (e < 0) e.natAbs

/-- The float of a decimal without a sign, if it is not too large. -/
def float? (t : Text) : Option Float :=
  let (mantissa, e) := Text.splitWhile (fun c => c != 'e' && c != 'E') t
  let (whole, rest) := Text.splitWhile (· != '.') mantissa
  let fraction := rest.drop 1
  match natOfDigits? 10 (whole ++ fraction), exponent? e with
  | some m, some e =>
    let x := toFloat m (e - fraction.length)
    if x.isInf then none else some x
  | _, _ => none

end Offside.Decimal
