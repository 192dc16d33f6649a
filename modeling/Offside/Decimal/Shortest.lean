import Offside.Text.Basic

/-!
# The shortest decimal

A binary floating-point number stands for an interval of reals: all that round to it. Its shortest
decimal is the point of that interval on the coarsest grid of powers of ten that has one; of two
such points the nearer one counts, and of two equally near ones the even one. Everything here is
exact arithmetic on natural numbers.
-/

namespace Offside.Decimal

/-- A positive binary number `mantissa · 2 ^ exponent`. The number below it is only half as far away
as the number above it if `narrow` holds, which is so at a power of two. -/
structure Binary where
  mantissa : Nat
  exponent : Int
  narrow : Bool
deriving DecidableEq, Repr

/-- A decimal number `digits · 10 ^ exponent`. -/
structure Scaled where
  digits : Nat
  exponent : Int
deriving DecidableEq, Repr

/-- `base ^ e` as a fraction, numerator first. -/
def power (base : Nat) (e : Int) : Nat × Nat := (Nat.pow base e.toNat, Nat.pow base (-e).toNat)

namespace Binary

/-- The number and its distance to the two ends of its interval, in quarters of its last place. -/
def quarters (b : Binary) : Nat × Nat × Nat :=
  (4 * b.mantissa, if b.narrow then 1 else 2, 2)

/-- Whether `digits · 10 ^ k` rounds to the number. The ends of the interval do if the mantissa is
even. -/
def holds (b : Binary) (k : Int) (digits : Nat) : Bool :=
  let (v, below, above) := b.quarters
  let (two, half) := power 2 (b.exponent - 2)
  let (ten, tenth) := power 10 k
  let point := digits * ten * half
  let low := (v - below) * two * tenth
  let high := (v + above) * two * tenth
  if b.mantissa % 2 = 0 then low ≤ point && point ≤ high else low < point && point < high

/-- The point of the grid `10 ^ k` that rounds to the number and is nearest to it. -/
def onGrid? (b : Binary) (k : Int) : Option Scaled :=
  let (v, _, _) := b.quarters
  let (two, half) := power 2 (b.exponent - 2)
  let (ten, tenth) := power 10 k
  let num := v * two * tenth
  let den := ten * half
  let d := num / den
  let r := num % den
  let lower := b.holds k d
  let upper := b.holds k (d + 1)
  if lower && upper then
    let up := den < 2 * r || (2 * r == den && d % 2 == 1)
    some ⟨if up then d + 1 else d, k⟩
  else if lower then some ⟨d, k⟩
  else if upper then some ⟨d + 1, k⟩
  else none

/-- A power of ten above the number: no coarser grid has a point that rounds to it. -/
def topGrid (b : Binary) : Int := (b.exponent + b.mantissa.log2 + 1) * 30103 / 100000 + 2

/-- The shortest decimal that rounds to the number. Seventeen digits always suffice, so the grids
that are tried reach far enough. -/
def shortest (b : Binary) : Scaled :=
  ((List.range 26).findSome? fun (i : Nat) => b.onGrid? (b.topGrid - i)).getD ⟨0, 0⟩

end Binary

/-! ## Layout -/

/-- The decimal digits of a number. -/
def digitsOf (n : Nat) : Text := Text.ofNat n

/-- An exponent: its sign and at least two digits. -/
def exponentText (e : Int) : Text :=
  let ds := digitsOf e.natAbs
  (if e < 0 then '-' else '+') :: (if ds.length < 2 then '0' :: ds else ds)

/-- Numbers whose leading digit stands at a power of ten from `plainFrom` to `plainTo` are written
without an exponent. -/
def plainFrom : Int := -4

/-- The greatest power of ten at which a leading digit is written without an exponent. -/
def plainTo : Int := 5

/-- The text of a decimal number. -/
def Scaled.text (d : Scaled) : Text :=
  let ds := digitsOf d.digits
  let lead := d.exponent + ds.length - 1
  if lead < plainFrom || plainTo < lead then
    ds.take 1 ++ (if ds.length ≤ 1 then [] else '.' :: ds.drop 1) ++ 'e' :: exponentText lead
  else if lead < 0 then
    '0' :: '.' :: List.replicate (-lead - 1).toNat '0' ++ ds
  else if 0 ≤ d.exponent then ds ++ List.replicate d.exponent.toNat '0'
  else ds.take (lead + 1).toNat ++ '.' :: ds.drop (lead + 1).toNat

/-- The text of a binary floating-point number given by its parts: `fraction` of `width` bits and
the biased `exponent`, whose greatest value `special` marks infinities and the rest. -/
def floatText (negative : Bool) (exponent fraction width special : Nat) : Text :=
  let bias : Int := special / 2
  let sign (t : Text) : Text := if negative then '-' :: t else t
  if exponent = special then
    if fraction = 0 then (if negative then '-' else '+') :: "Inf".toList else "NaN".toList
  else if exponent = 0 then
    if fraction = 0 then sign ['0']
    else sign (Binary.shortest ⟨fraction, 1 - bias - width, false⟩).text
  else
    sign (Binary.shortest ⟨Nat.pow 2 width + fraction, exponent - bias - width,
      fraction == 0 && 1 < exponent⟩).text

/-- The text of a number of double precision. -/
def ofFloat (x : Float) : Text :=
  let bits := x.toBits.toNat
  floatText (Nat.pow 2 63 ≤ bits) (bits / Nat.pow 2 52 % 2048) (bits % Nat.pow 2 52) 52 2047

/-- The text of a number of single precision, which has its own shortest digits. -/
def ofFloat32 (x : Float32) : Text :=
  let bits := x.toBits.toNat
  floatText (Nat.pow 2 31 ≤ bits) (bits / Nat.pow 2 23 % 256) (bits % Nat.pow 2 23) 23 255

end Offside.Decimal
