import Offside.Yaml.Token

/-!
# Quoted scalars

A quoted scalar may go on over several lines. The end of a line becomes a space and each further one
right behind it stays; blanks around the ends of lines are dropped. A carriage return and the line
feed behind it are two ends of lines. Between single quotes a quote is written twice; between double
quotes there are escapes.
-/

namespace Offside.Yaml

/-- How far a quoted scalar is read. -/
structure Quoting where
  /-- The text so far, its last character first. -/
  text : Text
  /-- The place of the next character. -/
  line : Nat
  column : Nat
  /-- Whether nothing but blanks stands before on the line, which is not the first one. -/
  fresh : Bool
  /-- How many lines ended. A carriage return and the line feed behind it are one end. -/
  ends : Nat
  /-- How many characters behind the closing quote belong to the scalar. -/
  surplus : Nat
deriving DecidableEq, Repr

namespace Quoting

/-- A character of the text, written by `width` characters. -/
def add (q : Quoting) (c : Char) (width : Nat) : Quoting :=
  { q with text := c :: q.text, column := q.column + width, fresh := false }

/-- Passes over characters that write nothing. -/
def pass (q : Quoting) (width : Nat) : Quoting := { q with column := q.column + width }

/-- The start of the next line. -/
def nextLine (q : Quoting) : Quoting :=
  { q with line := q.line + 1, column := 1, fresh := true, ends := q.ends + 1 }

/-- The end of a line by `c`, which `rest` follows. -/
def lineEnd (q : Quoting) (c : Char) (rest : Text) : Quoting :=
  let text := q.text.dropWhile (· = ' ')
  { q.nextLine with
    text := (if q.fresh then '\n' else ' ') :: text
    ends := if c = '\r' && rest.head? = some '\n' then q.ends else q.ends + 1 }

/-- Blanks at the start of a line and ends of lines, which both kinds of quotes treat alike. A tab
may not stand left of what belongs to column `margin`, and no line may be a marker between
documents. The outer `none` tells that the character is something else. -/
def blank? (margin : Nat) (q : Quoting) (c : Char) (rest : Text) : Option (Option Quoting) :=
  if isBreak c then some (if startsMarker rest then none else some (q.lineEnd c rest))
  else if q.fresh && c = ' ' then some (some (q.pass 1))
  else if q.fresh && c = '\t' then some (if q.column ≤ margin then none else some (q.pass 1))
  else none

end Quoting

/-- Reads on to the closing single quote. Gives what was read and the rest. -/
def singleQuoted? (margin : Nat) : Quoting → Text → Option (Quoting × Text)
  | _, [] => none
  | q, '\'' :: '\'' :: t =>
    singleQuoted? margin { q with text := '\'' :: q.text, column := q.column + 2 } t
  | q, c :: t =>
    match q.blank? margin c t with
    | some (some q) => singleQuoted? margin q t
    | some none => none
    | none => if c = '\'' then some (q.pass 1, t) else singleQuoted? margin (q.add c 1) t

/-! ## Escapes -/

/-- The character of a one-letter escape. -/
def simpleEscape? (c : Char) : Option Char :=
  match c with
  | '0' => some (Char.ofNat 0)
  | 'a' => some (Char.ofNat 7)
  | 'b' => some (Char.ofNat 8)
  | 't' | '\t' => some '\t'
  | 'n' => some '\n'
  | 'v' => some (Char.ofNat 11)
  | 'f' => some (Char.ofNat 12)
  | 'r' => some '\r'
  | 'e' => some (Char.ofNat 27)
  | ' ' => some ' '
  | '"' => some '"'
  | '/' => some '/'
  | '\\' => some '\\'
  | 'N' => some (Char.ofNat 0x85)
  | '_' => some (Char.ofNat 0xa0)
  | 'L' => some (Char.ofNat 0x2028)
  | 'P' => some (Char.ofNat 0x2029)
  | _ => none

/-- How many hexadecimal digits follow an escape letter. -/
def hexEscape? (c : Char) : Option Nat :=
  match c with
  | 'x' => some 2
  | 'u' => some 4
  | 'U' => some 8
  | _ => none

/-- The value of a hexadecimal digit. Any other character counts by its distance from the digit
zero. -/
def hexValue (c : Char) : Int :=
  match Decimal.digitValue? c with
  | some d => d
  | none => (c.toNat : Int) - 48

/-- The number that hexadecimal digits write. -/
def hexCode (ds : Text) : Int := ds.foldl (fun n d => 16 * n + hexValue d) 0

/-- The character with a number of 32 bits; numbers without a character give the replacement
character. -/
def charOfCode (code : Int) : Char :=
  let n := (code % 4294967296).toNat
  if n < 0xd800 || (0xe000 ≤ n && n < 0x110000) then Char.ofNat n else replacement

/-- The second half of a pair that writes one character. -/
def lowHalf? (t : Text) : Option Int :=
  match t with
  | '\\' :: 'u' :: t =>
    let digits := t.take 4
    let low := hexCode digits
    if digits.length = 4 && 0xdc00 ≤ low && low ≤ 0xdfff then some low else none
  | _ => none

/-- What an escape with `count` digits writes, where `c` is its letter and `t` follows, and how many
characters of `t` belong to it. Without enough characters it writes its letter. -/
def hexEscaped? (q : Quoting) (c : Char) (count : Nat) (t : Text) : Option (Quoting × Nat) :=
  let digits := t.take count
  if digits.length < count then some (q.add c 2, 0)
  else
    let code := hexCode digits
    if c = 'u' && 0xd800 ≤ code && code ≤ 0xdbff then
      (lowHalf? (t.drop count)).map fun low =>
        (q.add (charOfCode ((code - 0xd800) * 0x400 + (low - 0xdc00) + 0x10000)) 12, 10)
    else some (q.add (charOfCode code) (count + 2), count)

/-- What an escape writes, given what follows the backslash, and how many characters of that belong
to it. A backslash at the end of a line joins it with the next one. -/
def escaped? (q : Quoting) : Text → Option (Quoting × Nat)
  | [] => none
  | '\r' :: '\n' :: _ => some (q.nextLine.pass 2, 2)
  | '\r' :: _ => some (q.nextLine.pass 1, 1)
  | '\n' :: _ => some (q.nextLine, 1)
  | c :: t =>
    match simpleEscape? c, hexEscape? c with
    | some e, _ => some (q.add e 2, 1)
    | none, some count => (hexEscaped? q c count t).map fun (q, n) => (q, n + 1)
    | none, none => none

/-- What a tab inside a line writes, given what follows it, and how many characters of that belong
to it. Before the end of a line it writes nothing, together with the blanks behind it. Elsewhere it
is kept, and unless the closing quote follows at once, the scalar reaches one character further than
its closing quote. -/
def tabbed (q : Quoting) (t : Text) : Quoting × Nat :=
  let blanks := (t.takeWhile isGap).length
  if (t.drop blanks).head?.all isBreak then (q.pass (blanks + 1), blanks)
  else
    let surplus := if t.head? = some '"' then 0 else 1
    ({ q.add '\t' (surplus + 1) with surplus := q.surplus + surplus }, 0)

/-- Reads on to the closing double quote, after the next `skip` characters. Gives what was read and
the rest. -/
def doubleQuoted? (margin : Nat) : (skip : Nat) → Quoting → Text → Option (Quoting × Text)
  | _, _, [] => none
  | skip + 1, q, _ :: t => doubleQuoted? margin skip q t
  | 0, q, c :: t =>
    match q.blank? margin c t with
    | some (some q) => doubleQuoted? margin 0 q t
    | some none => none
    | none =>
      if c = '"' then some (q.pass 1, t)
      else if c = '\\' then
        match escaped? q t with
        | some (q, n) => doubleQuoted? margin n q t
        | none => none
      else if c = '\t' then
        let (q, n) := tabbed q t
        doubleQuoted? margin n q t
      else doubleQuoted? margin 0 (q.add c 1) t

/-- Reads a quoted scalar whose opening quote is `quote` and stands before the text, at a place. -/
def quoted? (margin line column : Nat) (quote : Char) (t : Text) : Option (Quoting × Text) :=
  let q : Quoting :=
    { text := [], line, column := column + 1, fresh := false, ends := 0, surplus := 0 }
  if quote = '\'' then singleQuoted? margin q t else doubleQuoted? margin 0 q t

end Offside.Yaml
