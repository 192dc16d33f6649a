import Offside.Decimal.Digits
import Offside.Expr
import Offside.Text.Letter
import Offside.Text.Utf8

/-!
# The tokens of an expression

Blanks and comments separate tokens. Words that are operators, such as `and` and `contains`, are
operator tokens. Strings come with their escapes resolved; numbers keep their text, because a map
may use it as a key.
-/

namespace Offside.Expr

/-- A token of an expression. -/
inductive Token where
  | name (t : Text)
  | number (t : Text)
  | text (t : Text)
  | op (symbol : String)
  | bracket (c : Char)
deriving DecidableEq, Repr

/-- Letters, underscores and dollar signs start a name. -/
def isNameStart (c : Char) : Bool := c == '_' || c == '$' || isLetter c

/-- Characters of a name. -/
def isNameChar (c : Char) : Bool := isNameStart c || isDigit c

/-- Words that are no names. -/
def wordOperators : List String :=
  ["not", "in", "or", "and", "matches", "contains", "startsWith", "endsWith", "let", "if", "else"]

/-- The token of a word. -/
def wordToken (w : Text) : Token :=
  match wordOperators.find? (·.toList == w) with
  | some s => .op s
  | none => .name w

/-! ## Numbers -/

/-- The digits of a number whose first two characters are `0` and the given one. -/
def digitClass (mark : Char) : Option (Char → Bool) :=
  if mark = 'x' || mark = 'X' then some fun c => (Decimal.digitValue? c).isSome || c == '_'
  else if mark = 'o' || mark = 'O' then some fun c => ('0' ≤ c && c ≤ '7') || c == '_'
  else if mark = 'b' || mark = 'B' then some fun c => c == '0' || c == '1' || c == '_'
  else none

/-- Decimal digits and separators. -/
def isDecimalChar (c : Char) : Bool := isAsciiDigit c || c == '_'

/-- How a number starts, what its digits are, and what follows the start. -/
def numberStart : Text → Text × (Char → Bool) × Text
  | '0' :: c :: t =>
    match digitClass c with
    | some digits => (['0', c], digits, t)
    | none => ([], isDecimalChar, '0' :: c :: t)
  | t => ([], isDecimalChar, t)

/-- The exponent of a number, if there is one. -/
def splitExponent (digits : Char → Bool) : Text → Text × Text
  | c :: t =>
    if c = 'e' || c = 'E' then
      let (sign, t) := match t with
        | '+' :: t => (['+'], t)
        | '-' :: t => (['-'], t)
        | t => ([], t)
      let (ds, t) := Text.splitWhile digits t
      (c :: sign ++ ds, t)
    else ([], c :: t)
  | [] => ([], [])

/-- The text of a number at the start of `t`, and the rest. Two points in a row are not part of a
number; a number must not run into a name. -/
def scanNumber (t : Text) : Option (Text × Text) :=
  let (start, digits, t) := numberStart t
  let (whole, t) := Text.splitWhile digits t
  let done (n t : Text) : Option (Text × Text) :=
    let (e, t) := splitExponent digits t
    match t with
    | c :: _ => if isNameChar c then none else some (n ++ e, t)
    | [] => some (n ++ e, t)
  match t with
  | '.' :: '.' :: _ => some (start ++ whole, t)
  | '.' :: t =>
    let (fraction, t) := Text.splitWhile digits t
    done (start ++ whole ++ '.' :: fraction) t
  | t => done (start ++ whole) t

/-! ## Strings -/

/-- The character with the given number; numbers of surrogates give the replacement character, and
numbers above the last code point none at all. -/
def charOfCode? (n : Nat) : Option Char :=
  if n < 0xd800 || (0xe000 ≤ n && n < 0x110000) then some (Char.ofNat n)
  else if n < 0x110000 then some replacement
  else none

/-- The character that an escape sequence stands for, and the rest after it. -/
def readEscape (quote : Char) : Text → Option (Char × Text)
  | [] => none
  | c :: t =>
    let code (base count : Nat) (t : Text) : Option (Char × Text) := do
      let (n, rest) ← Decimal.readDigits base count 0 t
      let c ← charOfCode? n
      some (c, rest)
    if c = quote || c = '\\' then some (c, t)
    else if c = 'a' then some (Char.ofNat 7, t)
    else if c = 'b' then some (Char.ofNat 8, t)
    else if c = 'f' then some (Char.ofNat 12, t)
    else if c = 'n' then some ('\n', t)
    else if c = 'r' then some ('\r', t)
    else if c = 't' then some ('\t', t)
    else if c = 'v' then some (Char.ofNat 11, t)
    else if c = 'x' then code 16 2 t
    else if c = 'u' then code 16 4 t
    else if c = 'U' then code 16 8 t
    else if '0' ≤ c && c ≤ '3' then code 8 3 (c :: t)
    else none

/-- The rest of a quoted string with its escapes resolved, and what follows the closing quote. A
line break ends no string: the string is then not closed. Every step takes at least one
character. -/
def scanTextFrom (quote : Char) : (steps : Nat) → Text → Option (Text × Text)
  | 0, _ => none
  | _, [] => none
  | steps + 1, c :: t =>
    if c = quote then some ([], t)
    else if c = '\n' then none
    else do
      let (d, t) ←
        if c = '\\' then readEscape quote t else some (if c = '\r' then '\n' else c, t)
      let (s, rest) ← scanTextFrom quote steps t
      some (d :: s, rest)

/-- The rest of a quoted string with its escapes resolved, and what follows the closing quote. -/
def scanText (quote : Char) (t : Text) : Option (Text × Text) := scanTextFrom quote t.length t

/-- The rest of a string in backquotes, in which a backquote is written twice, and what follows
it. -/
def scanRaw : Text → Option (Text × Text)
  | '\x60' :: '\x60' :: t => (scanRaw t).map fun (s, rest) => ('\x60' :: s, rest)
  | '\x60' :: t => some ([], t)
  | c :: t => (scanRaw t).map fun (s, rest) => (c :: s, rest)
  | [] => none

/-! ## Tokens -/

/-- What follows a comment up to the end of the line. -/
def skipLine (t : Text) : Text := t.dropWhile (· != '\n')

/-- What follows a comment that a star and a slash end. -/
def skipComment : Text → Option Text
  | '*' :: '/' :: t => some t
  | _ :: t => skipComment t
  | [] => none

/-- An operator of one or two characters: the first, and the second if it is one of `seconds`. -/
def operator (c : Char) (seconds : List Char) (t : Text) : Token × Text :=
  match t with
  | d :: t => if d ∈ seconds then (.op (String.ofList [c, d]), t)
    else (.op (String.ofList [c]), d :: t)
  | [] => (.op (String.ofList [c]), [])

/-- The first token of a text and the rest, where the text starts with neither a blank nor a
comment. -/
def scanToken (c : Char) (t : Text) : Option (Token × Text) :=
  if c = '\'' || c = '"' then (scanText c t).map fun (s, rest) => (.text s, rest)
  else if c = '\x60' then (scanRaw t).map fun (s, rest) => (.text s, rest)
  else if isAsciiDigit c then (scanNumber (c :: t)).map fun (n, rest) => (.number n, rest)
  else if c = '?' then some (operator c ['.', '?'] t)
  else if c = '/' then some (.op "/", t)
  else if c = '#' then some (operator c ['#'] t)
  else if c = '|' then some (operator c ['|'] t)
  else if c = ':' then some (operator c [':'] t)
  else if c ∈ ['(', ')', '[', ']', '{', '}'] then some (.bracket c, t)
  else if c ∈ [',', ';', '%', '^', '+', '-'] then some (.op (String.ofList [c]), t)
  else if c ∈ ['&', '!', '=', '*', '<', '>'] then some (operator c ['&', '=', '*'] t)
  else if c = '.' then
    match t with
    | d :: _ =>
      if isAsciiDigit d then (scanNumber t).map fun (n, rest) => (.number ('.' :: n), rest)
      else some (operator c ['.'] t)
    | [] => some (.op ".", [])
  else if isNameChar c then
    let (w, rest) := Text.splitWhile isNameChar (c :: t)
    some (wordToken w, rest)
  else none

/-- The tokens of an expression, or none if some part is no token. Every step takes at least one
character, so as many steps as there are characters suffice. -/
def tokensFrom : (steps : Nat) → Text → Option (List Token)
  | _, [] => some []
  | 0, _ :: _ => none
  | steps + 1, c :: t =>
    if isSpace c then tokensFrom steps t
    else match c, t with
      | '/', '/' :: t => tokensFrom steps (skipLine t)
      | '/', '*' :: t => (skipComment t).bind (tokensFrom steps)
      | c, t => do
        let (token, rest) ← scanToken c t
        let tokens ← tokensFrom steps rest
        some (token :: tokens)

/-- The tokens of an expression, or none if some part is no token. -/
def tokens? (t : Text) : Option (List Token) := tokensFrom t.length t

end Offside.Expr
