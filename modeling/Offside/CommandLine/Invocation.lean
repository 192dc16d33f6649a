import Offside.CommandLine.Switch
import Offside.Job

/-!
# Invocations

A command line is understood in two steps. First it is cut into a command, switches and files, where
lists of words are read as they are come across; faults of its form come first. Then the values are
taken over in the order in which they are given: files have to be there, and a switch may be given
once only. At last it is checked that nothing is missing.
-/

namespace Offside.CommandLine

/-- What is wrong with a command line. -/
inductive UsageError where
  | unknownSwitch (item : Item)
  | expectedValue (item : Item)
  | unexpected (item : Item)
  | repeated (switch : Switch)
  | pathMissing (path : Text)
  | pathIsFolder (name : Text)
  | pathUnusable (path reason : Text)
  | required (argument : Text)
  | listUnnamed
  | listUnreadable (path : Text) (cause : ReadError)
  | listTooLong (path : Text)
deriving DecidableEq, Repr

namespace UsageError

/-- A text in single quotes. -/
def inQuotes (t : Text) : Text := '\'' :: t ++ ['\'']

/-- The text that tells what is wrong. -/
def message : UsageError → Text
  | unknownSwitch item =>
    let length := match item with
      | .short _ => "short".toList
      | _ => "long".toList
    "unknown ".toList ++ length ++ " flag ".toList ++ inQuotes item.shown
  | expectedValue item => "expected argument for flag ".toList ++ inQuotes item.shown
  | unexpected item => "unexpected argument ".toList ++ inQuotes item.shown
  | repeated switch => "flag ".toList ++ inQuotes switch.name ++ " cannot be repeated".toList
  | pathMissing path => "path ".toList ++ inQuotes path ++ " does not exist".toList
  | pathIsFolder name => inQuotes name ++ " is a directory".toList
  | pathUnusable path reason => "stat ".toList ++ path ++ ": ".toList ++ reason
  | required argument => "required argument ".toList ++ inQuotes argument ++ " not provided".toList
  | listUnnamed => "expected @ file to expand arguments from".toList
  | listUnreadable path cause =>
    let step := match cause with
      | .isFolder => "failed to read arguments from ".toList
      | _ => "failed to open arguments file ".toList
    step ++ Text.quote path ++ ": ".toList ++ cause.message path
  | listTooLong path =>
    "failed to read arguments from ".toList ++ Text.quote path
      ++ ": bufio.Scanner: token too long".toList

end UsageError

/-! ## The form -/

/-- A switch or a file, in the order of the command line. -/
inductive Entry where
  /-- A switch that is turned on or off. -/
  | flag (switch : Switch) (on : Bool)
  /-- A switch with a value. -/
  | setting (switch : Switch) (value : Text)
  | argument (text : Text)
deriving DecidableEq, Repr

/-- Whether there is an argument among the entries. -/
def hasArgument (entries : List Entry) : Bool :=
  entries.any fun
    | .argument _ => true
    | _ => false

/-- Which of the known short switches take a value. -/
def shortForms (verb : Option Verb) (letter : Char) : Option Bool :=
  (Switch.ofLetter? verb letter).map Switch.takesValue

/-- The words of the list at a path. -/
def readList (path : Text) : Job (Except UsageError (List Text)) :=
  if path = [] then pure (.error .listUnnamed)
  else do
    match ← Job.readFile path with
    | .error e => pure (.error (.listUnreadable path e))
    | .ok contents =>
      match wordsOf? contents with
      | none => pure (.error (.listTooLong path))
      | some words => pure (.ok words)

/-- How many lists are read at most. A list may name itself, and then there is no end to them. -/
def listLimit : Nat := 1000

/-- Reads the words of a command line, at most `lists` lists and then `budget` parts. The entries
that were read come last first; `waiting` is the switch that the next part is the value of. As long
as no command is chosen, any part that does not fit chooses the rendering command, and is then read
again; a part in place of a value is then even read twice. -/
def readWords (lists budget : Nat) (verb : Option Verb) (waiting : Option (Item × Switch))
    (entries : List Entry) (words : Words) : Job (Except UsageError (Verb × List Entry)) :=
  match budget with
  | 0 => pure (.ok (verb.getD .render, entries.reverse))
  | budget + 1 =>
    let (item, rest) := words.next (shortForms verb)
    match item, waiting with
    | .list path, waiting => do
      match lists, ← readList path with
      | _, .error e =>
        match verb, waiting with
        | some _, some (switch, _) => pure (.error (.expectedValue switch))
        | _, _ => pure (.error e)
      | 0, .ok _ => pure (.ok (verb.getD .render, entries.reverse))
      | lists + 1, .ok listed =>
        let words := rest.insert listed
        readWords lists words.size verb waiting entries words
    | .value text, some (_, switch) =>
      readWords lists budget verb none (.setting switch text :: entries) rest
    | _, some (switch, _) =>
      match verb with
      | none => readWords lists budget (some .render) none entries ((rest.push item).push item)
      | some _ => pure (.error (.expectedValue switch))
    | .stop, none => pure (.ok (verb.getD .render, entries.reverse))
    | .value text, none =>
      match verb with
      | none =>
        match Verb.ofName? text with
        | some verb => readWords lists budget (some verb) none entries rest
        | none => readWords lists budget (some .render) none entries (rest.push item)
      | some .tokens =>
        if hasArgument entries then pure (.error (.unexpected item))
        else readWords lists budget verb none (.argument text :: entries) rest
      | some _ => readWords lists budget verb none (.argument text :: entries) rest
    | _, none =>
      match Switch.ofItem? verb item with
      | none =>
        match verb with
        | none => readWords lists budget (some .render) none entries (rest.push item)
        | some _ => pure (.error (.unknownSwitch item))
      | some (switch, on) =>
        if switch.takesValue then
          readWords lists budget verb (some (item, switch)) entries rest
        else readWords lists budget verb none (.flag switch on :: entries) rest
termination_by (lists, budget)

/-- The command and the entries of a command line. -/
def readLine (line : List Text) : Job (Except UsageError (Verb × List Entry)) :=
  let words := Words.ofLine line
  readWords listLimit words.size none none [] words

/-! ## The values -/

/-- What a command line asks for. -/
structure Invocation where
  verb : Verb
  context? : Option Text := none
  outDir : Text := ['.']
  ext : Text := ".html".toList
  pretty : Bool := false
  watch : Bool := false
  /-- The files, last first. -/
  files : List Text := []
deriving DecidableEq, Repr

/-- Checks that there is a file at a path. -/
def checkFile (path : Text) : Job (Except UsageError Unit) := do
  match ← Job.readFile path with
  | .ok _ => pure (.ok ())
  | .error .missing => pure (.error (.pathMissing path))
  | .error .isFolder => pure (.error (.pathIsFolder (Path.base path)))
  | .error e => pure (.error (.pathUnusable path e.reason))

namespace Invocation

/-- Takes a switch over that is turned on or off. -/
def setFlag (i : Invocation) (on : Bool) : Switch → Invocation
  | .pretty => { i with pretty := on }
  | .watch => { i with watch := on }
  | .help => { i with verb := .help }
  | _ => i

/-- Takes a switch over that has a value. -/
def setValue (i : Invocation) (value : Text) : Switch → Invocation
  | .context => { i with context? := some value }
  | .outDir => { i with outDir := value }
  | .ext => { i with ext := value }
  | _ => i

/-- Takes the entries over, one after the other; `seen` holds the switches before them. -/
def fill (i : Invocation) (seen : List Switch) : List Entry → Job (Except UsageError Invocation)
  | [] => pure (.ok i)
  | entry :: entries => do
    match entry with
    | .flag switch on =>
      if switch ∈ seen ∧ !switch.repeats then pure (.error (.repeated switch))
      else (i.setFlag on switch).fill (switch :: seen) entries
    | .setting switch value =>
      if switch ∈ seen ∧ !switch.repeats then pure (.error (.repeated switch))
      else
        let checked ← if switch = .context then checkFile value else pure (.ok ())
        match checked with
        | .error e => pure (.error e)
        | .ok _ => (i.setValue value switch).fill (switch :: seen) entries
    | .argument text =>
      match ← checkFile text with
      | .error e => pure (.error e)
      | .ok _ => fill { i with files := text :: i.files } seen entries

/-- Checks that no argument is missing. -/
def complete (i : Invocation) : Except UsageError Invocation :=
  match i.verb, i.files with
  | .render, [] => .error (.required "files".toList)
  | .tokens, [] => .error (.required "file".toList)
  | _, _ => .ok i

/-- Understands a command line. -/
def ofLine (line : List Text) : Job (Except UsageError Invocation) := do
  match ← readLine line with
  | .error e => pure (.error e)
  | .ok (verb, entries) =>
    match ← fill { verb } [] entries with
    | .error e => pure (.error e)
    | .ok i => pure i.complete

end Invocation
end Offside.CommandLine
