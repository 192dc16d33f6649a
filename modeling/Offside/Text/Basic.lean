/-!
# Text

Templates, tokens and output are sequences of Unicode characters, kept as lists so that every
scan is a recursion on the data. This module holds the character classes of plain scanning and the
few list operations that the rest of the library uses: trimming, splitting, joining, replacing and
the decimal text of integers.

Two notions of blank must not be confused. `isSpace` is the Unicode property White_Space; it
decides which lines are blank and what is trimmed off an expression. `isGap` is only the space and
the tab, which separate the parts of a tag line. Indentation counts neither: it is made of plain
spaces alone.
-/

namespace Offside

/-- A sequence of Unicode characters. -/
abbrev Text := List Char

/-! ## Character classes -/

/-- The Unicode property White_Space. -/
def isSpace (c : Char) : Bool :=
  (9 ≤ c.toNat && c.toNat ≤ 13) || c.toNat == 0x20 || c.toNat == 0x85 || c.toNat == 0xa0
    || c.toNat == 0x1680 || (0x2000 ≤ c.toNat && c.toNat ≤ 0x200a) || c.toNat == 0x2028
    || c.toNat == 0x2029 || c.toNat == 0x202f || c.toNat == 0x205f || c.toNat == 0x3000

/-- A separator inside a line: the space or the tab. -/
def isGap (c : Char) : Bool := c == ' ' || c == '\t'

/-- An ASCII letter. -/
def isAsciiLetter (c : Char) : Bool := ('A' ≤ c && c ≤ 'Z') || ('a' ≤ c && c ≤ 'z')

/-- An ASCII digit. -/
def isAsciiDigit (c : Char) : Bool := '0' ≤ c && c ≤ '9'

/-- The replacement character U+FFFD, which stands for bytes that are no text. -/
def replacement : Char := '\ufffd'

namespace Text

/-! ## Trimming -/

/-- Drops White_Space at the start. -/
def trimLeft (t : Text) : Text := t.dropWhile isSpace

/-- Drops White_Space at the end. -/
def trimRight (t : Text) : Text := (t.reverse.dropWhile isSpace).reverse

/-- Drops White_Space at both ends. -/
def trim (t : Text) : Text := trimRight (trimLeft t)

/-- Drops the characters that satisfy `p` at both ends. -/
def trimBoth (p : Char → Bool) (t : Text) : Text :=
  ((t.dropWhile p).reverse.dropWhile p).reverse

/-- Nothing but White_Space. -/
def isBlank (t : Text) : Bool := t.all isSpace

/-! ## Splitting and joining -/

/-- The pieces between the occurrences of `sep`; there is always one more piece than there are
separators. -/
def splitAt (sep : Char) : Text → List Text
  | [] => [[]]
  | c :: t =>
    if c = sep then [] :: splitAt sep t
    else match splitAt sep t with
      | [] => [[c]]
      | w :: ws => (c :: w) :: ws

/-- Where line `k` of a text starts: just behind its `k`-th line feed, if there is one. -/
def lineStart? : Text → (k : Nat) → Option Nat
  | _, 0 => some 0
  | [], _ + 1 => none
  | c :: t, k + 1 => (lineStart? t (if c = '\n' then k else k + 1)).map (· + 1)

/-- The texts one after the other with `sep` between them. -/
def join (sep : Text) : List Text → Text
  | [] => []
  | [t] => t
  | t :: ts => t ++ sep ++ join sep ts

/-- The text cut into its longest runs of characters on which `p` agrees, each with the value that
`p` has on it. -/
def runs (p : Char → Bool) : Text → List (Bool × Text)
  | [] => []
  | c :: t =>
    match runs p t with
    | [] => [(p c, [c])]
    | (b, r) :: rest => if p c = b then (b, c :: r) :: rest else (p c, [c]) :: (b, r) :: rest

/-- The longest start of a text on which `p` holds, and the rest. -/
def splitWhile (p : Char → Bool) (t : Text) : Text × Text := (t.takeWhile p, t.dropWhile p)

theorem splitWhile_append {p : Char → Bool} {t a b : Text} (h : splitWhile p t = (a, b)) :
    a ++ b = t := by
  cases h
  exact List.takeWhile_append_dropWhile

/-- If `t` starts with `head`, the rest after it. -/
def cut? (head : Text) (t : Text) : Option Text :=
  match head, t with
  | [], t => some t
  | _ :: _, [] => none
  | h :: hs, c :: t => if h = c then cut? hs t else none

/-- Whether `t` starts with `head`. -/
def startsWith (t head : Text) : Bool := (cut? head t).isSome

/-- Whether `t` ends with `tail`. -/
def endsWith (t tail : Text) : Bool := startsWith t.reverse tail.reverse

/-- Whether `part` occurs in `t`. -/
def contains (t part : Text) : Bool :=
  startsWith t part || match t with
    | [] => false
    | _ :: t => contains t part

/-- Every occurrence of `old`, from left to right and without overlap, becomes `new`. The number
`skip` counts the characters of the last occurrence that are still to be passed over. -/
def replaceFrom (old new : Text) : (skip : Nat) → Text → Text
  | _, [] => []
  | skip + 1, _ :: t => replaceFrom old new skip t
  | 0, c :: t =>
    if startsWith (c :: t) old then new ++ replaceFrom old new (old.length - 1) t
    else c :: replaceFrom old new 0 t

/-- Every occurrence of the non-empty text `old` becomes `new`. -/
def replace (old new t : Text) : Text := replaceFrom old new 0 t

/-! ## Numbers and order -/

/-- A natural number in decimal. -/
def ofNat (n : Nat) : Text := (Nat.repr n).toList

theorem ofNat_inj {m n : Nat} (h : ofNat m = ofNat n) : m = n := by
  rw [ofNat, ofNat, Nat.toList_repr, Nat.toList_repr] at h
  calc m = Nat.ofDigitChars 10 (Nat.toDigits 10 m) 0 := Nat.ofDigitChars_ten_toDigits.symm
    _ = Nat.ofDigitChars 10 (Nat.toDigits 10 n) 0 := by rw [h]
    _ = n := Nat.ofDigitChars_ten_toDigits

/-- An integer in decimal, with a minus sign if it is negative. -/
def ofInt (n : Int) : Text := if n < 0 then '-' :: ofNat n.natAbs else ofNat n.natAbs

/-- The order of texts by code point, which is also the order of their UTF-8 bytes. -/
def le : Text → Text → Bool
  | [], _ => true
  | _ :: _, [] => false
  | a :: s, b :: t => a.toNat < b.toNat || (a.toNat == b.toNat && le s t)

/-- Strictly before in the order by code point. -/
def lt (s t : Text) : Bool := !le t s

end Text
end Offside
