import Offside.Fragment
import Offside.Location

/-!
# Programs

A compiled template is a flat list of instructions. An instruction that opens a scope knows the
index of the instruction that closes it; the instructions between the two are its body. The depth
of an instruction is the indentation of the line that it comes from.
-/

namespace Offside

/-- The head of a control block: its source, the variables that its arrow names, and whether what
its body puts out is collected into one entry. -/
structure Control where
  source : Text
  vars : List Text
  capture : Bool
deriving DecidableEq, Repr

/-- An instruction of a program. -/
inductive Instruction where
  /-- Puts out a text as one entry. -/
  | literal (pos : Location) (text : Text) (depth : Nat)
  /-- Puts out a line of fragments as one entry. -/
  | output (pos : Location) (value : Fragments) (depth : Nat)
  /-- Evaluates an expression and forgets the value. -/
  | exec (pos : Location) (source : Text)
  /-- Puts out a text after passing it through a filter. -/
  | filtered (pos : Location) (filter text : Text) (depth : Nat)
  /-- Opens the scope of a tag, which `stop` closes. -/
  | openTag (pos : Location) (opening closing : Fragments) (depth stop : Nat)
  /-- Opens a control block, which `stop` closes. -/
  | openControl (pos : Location) (control : Control) (depth stop : Nat)
  /-- Closes the scope that was opened last. -/
  | close
deriving DecidableEq, Repr

namespace Instruction

/-- Where the instruction comes from. -/
def pos : Instruction → Location
  | literal pos .. => pos
  | output pos .. => pos
  | exec pos .. => pos
  | filtered pos .. => pos
  | openTag pos .. => pos
  | openControl pos .. => pos
  | close => {}

/-- Whether the instruction opens a scope. -/
def opens : Instruction → Bool
  | openTag .. | openControl .. => true
  | _ => false

/-- Whether the instruction closes a scope. -/
def closes : Instruction → Bool
  | close => true
  | _ => false

/-- The same instruction with its scope closed at `stop`. -/
def withStop (stop : Nat) : Instruction → Instruction
  | openTag pos opening closing depth _ => openTag pos opening closing depth stop
  | openControl pos control depth _ => openControl pos control depth stop
  | i => i

/-- A line of output, as plain text when nothing in it has to be evaluated. -/
def ofFragments (pos : Location) (v : Fragments) (depth : Nat) : Instruction :=
  if v.isLiteral then literal pos v.describe depth else output pos v depth

end Instruction

/-- Gives every opening instruction of a list that starts at index `i` the index of the
instruction that closes it. The second part of the answer lists the indices of the closing
instructions that close nothing in the list, innermost first. -/
def matchScopes : (i : Nat) → List Instruction → List Instruction × List Nat
  | _, [] => ([], [])
  | i, instr :: rest =>
    let (rest, closers) := matchScopes (i + 1) rest
    if instr.closes then (instr :: rest, i :: closers)
    else if instr.opens then
      match closers with
      | [] => (instr :: rest, [])
      | stop :: closers => (instr.withStop stop :: rest, closers)
    else (instr :: rest, closers)

/-- A compiled template: the type of the contexts that it is rendered against and its
instructions. -/
structure Program where
  contextType : Text
  code : Array Instruction
deriving DecidableEq, Repr

end Offside
