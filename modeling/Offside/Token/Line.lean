import Offside.Token
import Offside.Token.Braces

/-!
# The pieces of a line

A line is cut into pieces that follow each other without gap or overlap: tokens, and blanks that
are passed over. The cut is made without looking at positions, which are then the running sums of
the lengths of the pieces (`Offside.Token.Lex`). Nothing of a line is ever lost: a tag header, an
attribute, a filter mark or a braced expression that turns out incomplete is undone as a whole and
its characters become part of what follows.

The token text is the raw text of its piece, except for expressions and lambda variables, whose
tokens carry the trimmed text (`contents`).
-/

namespace Offside

/-- A piece of a line. -/
inductive Piece where
  /-- Characters that belong to no token. -/
  | skip (raw : Text)
  /-- The characters of a token. -/
  | token (kind : TokenKind) (raw : Text)
deriving DecidableEq, Repr

namespace Piece

/-- The characters of the line that the piece covers. -/
def raw : Piece → Text
  | skip raw => raw
  | token _ raw => raw

/-- The text that a token of kind `kind` carries for the characters `raw`. -/
def contents (kind : TokenKind) (raw : Text) : Text :=
  match kind with
  | .code | .vars => Text.trim raw
  | _ => raw

end Piece

open Piece

/-! ## Values: words, quoted strings and braced expressions -/

/-- Characters that end a word anywhere in a tag line. -/
def endsWord (c : Char) : Bool := c == ' ' || c == '"' || c == '=' || c == '{' || c == '}'

/-- Characters that end a tag name, an id or a class. -/
def endsHeaderWord (c : Char) : Bool := endsWord c || c == '#' || c == '.' || c == '!'

/-- A braced expression, a word of characters that `stop` does not end, or, where `quotes` allows
it, a quoted string. Returns the piece and the rest of the line. -/
def scanValue (stop : Char → Bool) (quotes : Bool) : Text → Option (Piece × Text)
  | [] => none
  | '{' :: t =>
    (braceEnd 1 t).map fun n => (token .braced ('{' :: t.take n), t.drop n)
  | '"' :: t =>
    if quotes then
      match Text.splitWhile (· != '"') t with
      | (inner, '"' :: rest) => some (token .quoted ('"' :: inner ++ ['"']), rest)
      | _ => none
    else none
  | t =>
    match Text.splitWhile (!stop ·) t with
    | ([], _) => none
    | (w, rest) => some (token .word w, rest)

/-- A value that is found is not empty, and it and the rest make up the line. -/
theorem scanValue_eq_some {stop : Char → Bool} {quotes : Bool} {t rest : Text} {p : Piece}
    (h : scanValue stop quotes t = some (p, rest)) : p.raw ≠ [] ∧ p.raw ++ rest = t := by
  unfold scanValue at h
  split at h
  · simp at h
  · obtain ⟨n, -, hn⟩ := Option.map_eq_some_iff.1 h
    cases hn
    simp [Piece.raw]
  · split at h
    · split at h
      · rename_i hs
        cases h
        simp [Piece.raw, ← Text.splitWhile_append hs]
      · simp at h
    · simp at h
  · split at h
    · simp at h
    · rename_i w rest' hne hs
      cases h
      exact ⟨hne, Text.splitWhile_append hs⟩

/-- The rest after a value is shorter than the line. -/
theorem scanValue_length {stop : Char → Bool} {quotes : Bool} {t rest : Text} {p : Piece}
    (h : scanValue stop quotes t = some (p, rest)) : rest.length < t.length := by
  obtain ⟨hne, rfl⟩ := scanValue_eq_some h
  have := List.length_pos_iff.2 hne
  rw [List.length_append]
  omega

/-! ## Tag headers and attributes -/

/-- The kind of the mark that starts an id or a class. -/
def headerMark? (c : Char) : Option TokenKind :=
  if c = '#' then some .idMark else if c = '.' then some .classMark else none

/-- Ids and classes, as many as there are. A mark without a value spoils the whole header. -/
def scanMarks : Text → Option (List Piece × Text)
  | [] => some ([], [])
  | c :: t =>
    match headerMark? c with
    | none => some ([], c :: t)
    | some kind =>
      match _h : scanValue endsHeaderWord false t with
      | none => none
      | some (v, rest) =>
        (scanMarks rest).map fun (ps, rest) => (token kind [c] :: v :: ps, rest)
termination_by t => t.length
decreasing_by
  have := scanValue_length _h
  simp only [List.length_cons]
  omega

/-- A tag header: a name, ids and classes, at least one of them. -/
def scanHeader : Text → Option (List Piece × Text)
  | '%' :: t =>
    match scanValue endsHeaderWord false t with
    | none => none
    | some (v, rest) =>
      (scanMarks rest).map fun (ps, rest) => (token .tagMark ['%'] :: v :: ps, rest)
  | t =>
    match scanMarks t with
    | some ([], _) => none
    | r => r

/-- An attribute: a name, an equals sign and a value, after at least one blank. -/
def scanAttribute (t : Text) : Option (List Piece × Text) :=
  match Text.splitWhile isGap t with
  | ([], _) => none
  | (gap, t) =>
    match scanValue endsWord false t with
    | some (name, '=' :: t) =>
      (scanValue endsWord true t).map fun (value, rest) =>
        ([skip gap, name, token .equals ['='], value], rest)
    | _ => none

/-- The rest after an attribute is shorter than the line. -/
theorem scanAttribute_length {t rest : Text} {ps : List Piece}
    (h : scanAttribute t = some (ps, rest)) : rest.length < t.length := by
  unfold scanAttribute at h
  split at h
  · simp at h
  · rename_i gap t' hne hs
    split at h
    · rename_i name t'' hn
      obtain ⟨⟨value, r⟩, hv, he⟩ := Option.map_eq_some_iff.1 h
      cases he
      have h₁ := scanValue_length hv
      have h₂ := scanValue_length hn
      have h₃ := congrArg List.length (Text.splitWhile_append hs)
      rw [List.length_append] at h₃
      simp only [List.length_cons] at h₂
      omega
    · simp at h

/-- Attributes, as many as there are; what is not a complete attribute is left over. -/
def scanAttributes (t : Text) : List Piece × Text :=
  match _h : scanAttribute t with
  | none => ([], t)
  | some (ps, rest) =>
    let (qs, rest) := scanAttributes rest
    (ps ++ qs, rest)
termination_by t.length
decreasing_by exact scanAttribute_length _h

/-! ## Filters -/

/-- Characters of a filter name. -/
def isFilterNameChar (c : Char) : Bool :=
  isAsciiLetter c || isAsciiDigit c || c == '_' || c == '-'

/-- A filter mark with the text that follows it on the line, up to the end of the line. The flag
tells whether there is such text. -/
def scanFilter : Text → Option (List Piece × Bool)
  | ':' :: t =>
    match Text.splitWhile isFilterNameChar t with
    | ([], _) => none
    | (name, []) => some ([token .filterMark (':' :: name)], false)
    | (name, [' ']) => some ([token .filterMark (':' :: name), skip [' ']], false)
    | (name, ' ' :: rest) =>
      some ([token .filterMark (':' :: name), skip [' '], token .text rest], true)
    | _ => none
  | _ => none

/-- A filter at the end of a tag line, after at least one blank. -/
def scanTrailingFilter (t : Text) : Option (List Piece) :=
  match Text.splitWhile isGap t with
  | ([], _) => none
  | (gap, t) => (scanFilter t).map fun (ps, _) => skip gap :: ps

/-! ## Code, comments and text -/

/-- Blanks that may surround a lambda variable. -/
def isVariableGap (c : Char) : Bool :=
  c == ' ' || c == '\t' || c == '\n' || c == '\r' || c.toNat == 12

/-- An ASCII name. -/
def isName : Text → Bool
  | [] => false
  | c :: t => (isAsciiLetter c || c == '_')
    && t.all fun c => isAsciiLetter c || isAsciiDigit c || c == '_'

/-- A list of names with commas between them. -/
def isNameList (t : Text) : Bool :=
  (Text.splitAt ',' t).all fun w => isName (Text.trimBoth isVariableGap w)

/-- The text before and after the last `->`. -/
def splitLastArrow : Text → Option (Text × Text)
  | [] => none
  | c :: t =>
    match splitLastArrow t with
    | some (before, after) => some (c :: before, after)
    | none =>
      match c, t with
      | '-', '>' :: after => some ([], after)
      | _, _ => none

/-- An expression with its lambda clause, if the text after the last arrow is a list of names. -/
def scanCodeBody (t : Text) : List Piece :=
  match splitLastArrow t with
  | some (before, after) =>
    if isNameList after then
      let (gap, names) := Text.splitWhile (· == ' ') after
      [token .code before, token .arrow ['-', '>'], skip gap, token .vars names]
    else [token .code t]
  | none => [token .code t]

/-- A code line that starts with `mark`. Without an expression it is plain text. -/
def scanCode (kind : TokenKind) (mark t : Text) : List Piece :=
  if Text.isBlank t then [token .text (mark ++ t)]
  else
    let (gap, body) := Text.splitWhile isGap t
    token kind mark :: skip gap :: scanCodeBody body

/-- What a line puts out: code, a comment or text. -/
def scanOutput : Text → List Piece
  | [] => []
  | '-' :: ' ' :: t => scanCode .silentMark ['-'] (' ' :: t)
  | '=' :: ' ' :: t => scanCode .outputMark ['='] (' ' :: t)
  | '!' :: '=' :: ' ' :: t => scanCode .outputMark ['!', '='] (' ' :: t)
  | '/' :: ' ' :: t => [token .commentMark ['/'], skip [' '], token .comment t]
  | '/' :: t => [token .commentMark ['/'], token .comment t]
  | t => [token .text t]

/-! ## Whole lines -/

/-- A doctype line: the mark and the words after it. -/
def scanDoctype (t : Text) : List Piece :=
  token .doctypeMark ['!', '!', '!'] ::
    (Text.runs isGap t).map fun (blank, run) =>
      if blank then skip run else token .doctypeWord run

/-- The number of spaces that a line starts with. -/
def indentation (t : Text) : Nat := (t.takeWhile (· == ' ')).length

/-- What follows the indentation of a line, and whether it opens a raw block: a filter mark that
stands alone on its line does. -/
def scanBody (t : Text) : List Piece × Bool :=
  match scanFilter t with
  | some (ps, content) => (ps, !content)
  | none =>
    match scanHeader t with
    | none => (scanOutput t, false)
    | some (header, rest) =>
      let (attributes, rest) := scanAttributes rest
      match scanTrailingFilter rest with
      | some ps => (header ++ attributes ++ ps, false)
      | none =>
        let (gap, rest) := Text.splitWhile isGap rest
        (header ++ attributes ++ skip gap :: scanOutput rest, false)

/-- A line of markup: its indentation and its body. -/
def scanMarkup (t : Text) : List Piece × Option Nat :=
  let (spaces, rest) := Text.splitWhile (· == ' ') t
  let (ps, opens) := scanBody rest
  (token .indent spaces :: ps, if opens then some spaces.length else none)

/-- The pieces of a line. `block` is the indentation of the filter line whose raw block the line
may belong to; the answer's second part is its value for the next line. Only the first line of a
file can be a doctype line, and a blank line has no tokens. -/
def scanLine (first : Bool) (block : Option Nat) (t : Text) : List Piece × Option Nat :=
  if Text.isBlank t then ([skip t], block)
  else if block.any (· < indentation t) then
    let (spaces, rest) := Text.splitWhile (· == ' ') t
    ([token .indent spaces, token .text rest], block)
  else if first then
    match Text.cut? ['!', '!', '!'] t with
    | some rest => (scanDoctype rest, none)
    | none => scanMarkup t
  else scanMarkup t

end Offside
