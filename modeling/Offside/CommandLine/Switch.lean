import Offside.CommandLine.Words

/-!
# Commands and switches

The program renders files or lists the tokens of one. Some switches can be given with any command,
before or after its name; the others only with the rendering command. A command line that does not
name a command is for rendering.
-/

namespace Offside.CommandLine

/-- What the program can do. -/
inductive Verb where
  | render
  | tokens
  | help
deriving DecidableEq, Repr

/-- A verb by its name. -/
def Verb.ofName? (name : Text) : Option Verb :=
  if name = "render".toList then some .render
  else if name = "tokens".toList then some .tokens
  else if name = "help".toList then some .help
  else none

/-- A switch of the command line. -/
inductive Switch where
  | verbose
  | profile
  | help
  | context
  | outDir
  | ext
  | pretty
  | watch
deriving DecidableEq, Repr

namespace Switch

/-- The long name of a switch. -/
def name : Switch → Text
  | verbose => "verbose".toList
  | profile => "profile".toList
  | help => "help".toList
  | context => "context".toList
  | outDir => "out-dir".toList
  | ext => "ext".toList
  | pretty => "pretty".toList
  | watch => "watch".toList

/-- The letter of a switch. -/
def letter? : Switch → Option Char
  | verbose => some 'v'
  | context => some 'c'
  | outDir => some 'o'
  | watch => some 'w'
  | _ => none

/-- Whether a switch takes a value. The others are turned on, or off by `--no-` before the name. -/
def takesValue : Switch → Bool
  | profile | context | outDir | ext => true
  | _ => false

/-- Whether a switch may be given more than once. -/
def repeats : Switch → Bool
  | verbose => true
  | _ => false

/-- The switches that go with every command. -/
def general : List Switch := [verbose, profile, help]

/-- The switches that are known once a command is chosen, or before that. -/
def known : Option Verb → List Switch
  | some .render => general ++ [context, outDir, ext, pretty, watch]
  | _ => general

/-- The switch with a letter. -/
def ofLetter? (verb : Option Verb) (letter : Char) : Option Switch :=
  (known verb).find? (·.letter? = some letter)

/-- The switch with a name, and whether the name turns it on. A switch that takes a value cannot be
turned off. -/
def ofName? (verb : Option Verb) (name : Text) : Option (Switch × Bool) :=
  match (known verb).find? (·.name = name) with
  | some s => some (s, true)
  | none =>
    match Text.cut? "no-".toList name with
    | none => none
    | some name =>
      match (known verb).find? (·.name = name) with
      | some s => if s.takesValue then none else some (s, false)
      | none => none

/-- The switch of a part of the command line, and whether it is turned on. -/
def ofItem? (verb : Option Verb) : Item → Option (Switch × Bool)
  | .long name => ofName? verb name
  | .short letter => (ofLetter? verb letter).map (·, true)
  | _ => none

end Switch
end Offside.CommandLine
