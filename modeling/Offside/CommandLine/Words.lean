import Offside.Text.Utf8

/-!
# The words of a command line

A word that starts with two dashes is a long switch, perhaps with a value behind an equals sign. A
word that starts with one dash is a row of short switches; the first of them that takes a value
takes the rest of the word. A word that starts with an at sign names a list, a file whose lines are
further words. All other words are values. How a row of short switches is cut depends on the
switches that are known when it is reached.

A lone `--` is left out, and behind it all words are values. Whether the word before was a `--` is
looked up in the line as it was given, by the number of words taken so far. Words that came out of
a list and the rest of a row of short switches are counted as well, so that behind them the look-up
is off by their number.
-/

namespace Offside.CommandLine

/-- A part of a command line. -/
inductive Item where
  | long (name : Text)
  | short (letter : Char)
  | value (text : Text)
  /-- The path of a list of further words. -/
  | list (path : Text)
  /-- The end. -/
  | stop
deriving DecidableEq, Repr

namespace Item

/-- A part as messages show it. -/
def shown : Item → Text
  | long name => '-' :: '-' :: name
  | short letter => ['-', letter]
  | value text => text
  | list path => '@' :: path
  | stop => "<EOL>".toList

end Item

/-- What is left of a command line: parts that are already cut, and words. -/
structure Words where
  /-- The line as it was given. -/
  line : List Text
  queue : List Item := []
  rest : List Text
  /-- How many words were taken. -/
  taken : Nat := 0
  /-- All further words are values. -/
  literal : Bool := false
deriving DecidableEq, Repr

namespace Words

/-- The words of a line of which nothing was taken yet. -/
def ofLine (line : List Text) : Words := { line, rest := line }

/-- Whether the word before the next one, in the line as it was given, is a `--`. -/
def isBehindDashes (line : List Text) (taken : Nat) : Bool :=
  0 < taken && (line.drop (taken - 1)).head? == some ['-', '-']

/-- Cuts the next part off the words. Here `takesValue` tells of the known short switches whether
they take a value. -/
def cut (takesValue : Char → Option Bool) (line : List Text) :
    (taken : Nat) → (literal : Bool) → List Text → Item × Words
  | taken, literal, [] => (.stop, { line, rest := [], taken, literal })
  | taken, literal, word :: rest =>
    let literal := literal || isBehindDashes line taken
    let taken := taken + 1
    let after (queue : List Item) (rest : List Text) : Words :=
      { line, queue, rest, taken, literal }
    if literal then (.value word, after [] rest)
    else match word with
      | ['-', '-'] => cut takesValue line taken literal rest
      | '-' :: '-' :: body =>
        let (name, value) := Text.splitWhile (· ≠ '=') body
        (.long name, after (if value = [] then [] else [.value (value.drop 1)]) rest)
      | ['-'] => (.value [], after [] rest)
      | '-' :: letter :: more =>
        if more = [] then (.short letter, after [] rest)
        else if takesValue letter = some true then (.short letter, after [.value more] rest)
        else (.short letter, after [] (('-' :: more) :: rest))
      | '@' :: path => (.list path, after [] rest)
      | word => (.value word, after [] rest)

/-- The next part and what is left. -/
def next (takesValue : Char → Option Bool) (w : Words) : Item × Words :=
  match w.queue with
  | item :: queue => (item, { w with queue })
  | [] => cut takesValue w.line w.taken w.literal w.rest

/-- Puts a part back. -/
def push (w : Words) (item : Item) : Words := { w with queue := item :: w.queue }

/-- Puts words in front of the others. -/
def insert (w : Words) (words : List Text) : Words := { w with rest := words ++ w.rest }

/-- A number of steps in which everything is taken, whatever is put back in between. -/
def size (w : Words) : Nat :=
  2 * (w.queue.length + w.rest.foldl (fun n word => n + word.length + 2) 0) + 6

end Words

/-! ## Lists of words -/

/-- A line of a list must have fewer bytes than this. -/
def lineLimit : Nat := 65536

/-- A line without a carriage return at its end. -/
def withoutReturn (line : Text) : Text :=
  if line.getLast? = some '\r' then line.dropLast else line

/-- The lines of a list. Nothing follows a line break at the very end. -/
def linesOf (contents : Text) : List Text :=
  let lines := Text.splitAt '\n' contents
  if lines.getLast? = some [] then lines.dropLast else lines

/-- The words of a list: its lines, apart from blank ones and those that start with a number sign.
There are none if a line is too long. -/
def wordsOf? (contents : Text) : Option (List Text) :=
  let lines := linesOf contents
  if lines.any fun line => lineLimit ≤ Text.byteLength line then none
  else some ((lines.map withoutReturn).filter fun line =>
    line.head? ≠ some '#' && !(Text.trim line).isEmpty)

end Offside.CommandLine
