import Offside.Data.Shown
import Offside.Data.TypeTag
import Offside.Filter
import Offside.Program
import Offside.Render.Evaluator
import Offside.Text.Escape

/-!
# Rendering

A program is run over its flat list of instructions; a scope is run as a whole and then passed
over. The output is a list of entries, joined by line breaks. Control blocks are left to the
evaluator, which learns what the block directly before it did: anything else in between makes it
forget.
-/

namespace Offside

/-- The entries put out so far, the newest first, and whether entries are indented. -/
structure Output where
  indent : Bool
  entries : List Text := []
deriving DecidableEq, Repr

namespace Output

/-- The indentation of an entry. -/
def margin (w : Output) (depth : Nat) : Text :=
  if w.indent then List.replicate depth ' ' else []

/-- Adds an entry. -/
def line (w : Output) (depth : Nat) (t : Text) : Output :=
  { w with entries := (w.margin depth ++ t) :: w.entries }

/-- Adds what a filter put out; every line of it is indented. -/
def block (w : Output) (depth : Nat) (t : Text) : Output :=
  { w with entries := (w.margin depth ++ Text.replace ['\n'] ('\n' :: w.margin depth) t)
      :: w.entries }

/-- The whole output. -/
def text (w : Output) : Text := Text.join ['\n'] w.entries.reverse

end Output

/-- What a program is rendered with. -/
structure Renderer where
  filters : FilterRegistry
  evaluator : Option Evaluator

namespace Renderer

/-- The value of an expression. -/
def evaluate (r : Renderer) : Evaluation := Evaluator.evaluation r.evaluator

/-- The text of a fragment. -/
def fragment (r : Renderer) (env : Env) : Fragment → Except Failure Text
  | .literal text => .ok text
  | .expression source escape =>
    (r.evaluate source env).map fun v => if escape then Text.escape v.shown else v.shown
  | .filter name text => .ok (r.filters.apply name text)

/-- The text of a line of fragments. The first fragment that fails is the one that counts. -/
def line (r : Renderer) (env : Env) : Fragments → Except Failure Text
  | [] => .ok []
  | f :: fs => do
    let t ← r.fragment env f
    let ts ← r.line env fs
    .ok (t ++ ts)

/-- Runs the instructions of `code` from index `i` up to, but not including, index `stop`. `prior`
is the outcome of the control block directly before. -/
def run (r : Renderer) (code : Array Instruction) (i stop : Nat) (env : Env) (prior : Outcome)
    (w : Output) : Output × Option Failure :=
  if _h : i < stop ∧ i < code.size then
    match code[i]? with
    | none => (w, none)
    | some (.literal _ text depth) => r.run code (i + 1) stop env .none (w.line depth text)
    | some (.output _ value depth) =>
      match r.line env value with
      | .error e => (w, some e)
      | .ok t => r.run code (i + 1) stop env .none (w.line depth t)
    | some (.exec _ source) =>
      match r.evaluate source env with
      | .error e => (w, some e)
      | .ok _ => r.run code (i + 1) stop env .none w
    | some (.filtered _ filter text depth) =>
      r.run code (i + 1) stop env .none (w.block depth (r.filters.apply filter text))
    | some (.openTag _ opening closing depth last) =>
      match r.line env opening with
      | .error e => (w, some e)
      | .ok t =>
        match r.run code (i + 1) last env .none (w.line depth t) with
        | (w, some e) => (w, some e)
        | (w, none) =>
          match r.line env closing with
          | .error e => (w, some e)
          | .ok t => r.run code (max i last + 1) stop env .none (w.line depth t)
    | some (.openControl _ control _ last) =>
      match r.evaluator with
      | none => (w, some .noEvaluator)
      | some evaluator =>
        let target := if control.capture then { indent := w.indent } else w
        let schedule := evaluator.scope control.source control.vars env prior
        match schedule.exec (fun env w => r.run code (i + 1) last env .none w) target with
        | (out, _, some e) => (if control.capture then w else out, some e)
        | (out, outcome, none) =>
          let w := if !control.capture then out
            else if out.entries.isEmpty then w
            else w.line 0 out.text
          r.run code (max i last + 1) stop env outcome w
    | some .close => r.run code (i + 1) stop env .none w
  else (w, none)
termination_by code.size - i

end Renderer

namespace Program

/-- Renders a program against a context, which must be of the type that it was compiled for. -/
def render (types : TypeRegistry) (r : Renderer) (indent : Bool) (p : Program) (context : Data) :
    Except Failure Text :=
  let type := (types.typeOf context).1
  if type ≠ p.contextType then .error (.invalidType p.contextType type)
  else
    let env := match r.evaluator with
      | some e => e.bind context
      | none => []
    match r.run p.code 0 p.code.size env .none { indent } with
    | (_, some e) => .error e
    | (w, none) => .ok w.text

end Program
end Offside
