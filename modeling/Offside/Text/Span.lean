/-!
# Spans of code points

Character classes of Unicode are kept as lists of arithmetic runs: a span covers `first`,
`first + step`, … up to `last`. Alternating runs of upper and lower case letters are one span
with step two.
-/

namespace Offside

/-- The code points `first`, `first + step`, … that do not exceed `last`. -/
structure Span where
  first : Nat
  last : Nat
  step : Nat

namespace Span

/-- Whether the code point of `c` is one of the span's. -/
def contains (s : Span) (c : Char) : Bool :=
  s.first ≤ c.toNat && c.toNat ≤ s.last && (c.toNat - s.first) % s.step == 0

/-- Whether one of the spans holds `c`. -/
def anyContains (spans : List Span) (c : Char) : Bool := spans.any (·.contains c)

end Span
end Offside
