import Offside.ControlBlock
import Offside.Error
import Offside.Expr.Eval
import Offside.Filter.Suggest
import Offside.Program.Layout
import Offside.Render
import Offside.Token.Lex

/-!
# The engine

An engine compiles templates and renders them. Its evaluator may be able to compile expressions in
advance; then a template with a bad expression is refused as soon as it is compiled, at the place
of the line that holds the expression. The heads of control blocks are not compiled in advance,
since they may start with a keyword.
-/

namespace Offside

/-- A filter that a template uses. -/
structure FilterUse where
  name : Text
  pos : Location
deriving DecidableEq, Repr

/-- A compiled template: its name, its program and the filters that it uses, in source order. -/
structure Template where
  name : Text
  program : Program
  filters : List FilterUse
deriving DecidableEq, Repr

/-- The evaluator of a language. -/
def Language.evaluator (l : Language) : Evaluator := .ofEvaluation l.evaluate

/-- The evaluator of the expression language. -/
def Evaluator.standard : Evaluator := Expr.language.evaluator

/-- What templates are compiled and rendered with. -/
structure Engine where
  filters : FilterRegistry := .defaults
  evaluator : Evaluator := .standard
  /-- Compiles an expression in advance. -/
  prepare : Option (Text → Except ExprProblem Unit) := some Expr.language.check
  indent : Bool := false
  maxDepth : Int := 0
  types : TypeRegistry := {}
  /-- Says which of the registered names could be meant by a name that is not registered. -/
  ranking : Ranking := Suggest.rank

namespace Fragments

/-- The expressions of a line. -/
def sources (v : Fragments) : List Text :=
  v.filterMap fun
    | .expression source _ => some source
    | _ => none

/-- The filters of a line. -/
def filterNames (v : Fragments) : List Text :=
  v.filterMap fun
    | .filter name _ => some name
    | _ => none

end Fragments

namespace Instruction

/-- The expressions that an instruction evaluates itself, in the order in which they are compiled.
The source of a control block is not one of them. -/
def sources : Instruction → List Text
  | output _ value _ => value.sources
  | exec _ source => [source]
  | openTag _ opening closing _ _ => opening.sources ++ closing.sources
  | _ => []

/-- The filters that an instruction applies. -/
def filterNames : Instruction → List Text
  | output _ value _ => value.filterNames
  | filtered _ filter _ _ => [filter]
  | openTag _ opening closing _ _ => opening.filterNames ++ closing.filterNames
  | _ => []

end Instruction

namespace Engine

/-- Compiles the expressions of an instruction in advance. -/
def prepareAll (prepare : Text → Except ExprProblem Unit) (pos : Location) :
    List Text → Except (Located TemplateProblem) Unit
  | [] => .ok ()
  | source :: sources =>
    match prepare source with
    | .error p => .error ⟨.expression p, pos⟩
    | .ok _ => prepareAll prepare pos sources

/-- Compiles the expressions of all instructions in advance. -/
def prepareCode (prepare : Text → Except ExprProblem Unit) :
    List Instruction → Except (Located TemplateProblem) Unit
  | [] => .ok ()
  | i :: is => do
    prepareAll prepare i.pos i.sources
    prepareCode prepare is

/-- The filters that a list of instructions uses. -/
def filterUses (code : List Instruction) : List FilterUse :=
  code.flatMap fun i => i.filterNames.map fun name => { name, pos := i.pos }

/-- Compiles a template for contexts of a type. -/
def compile (e : Engine) (name source contextType : Text) :
    Except (Located TemplateProblem) Template :=
  match Program.ofTokens contextType e.maxDepth (lex name source) with
  | .error p => .error ⟨.layout p.cause, p.pos⟩
  | .ok program => do
    match e.prepare with
    | some prepare => prepareCode prepare program.code.toList
    | none => .ok ()
    .ok { name, program, filters := filterUses program.code.toList }

/-- The registered filters that could be meant by a name, best first. -/
def suggest (e : Engine) (name : Text) : List Text := e.filters.suggest name e.ranking

/-- Renders a template against a context. -/
def render (e : Engine) (t : Template) (context : Data) : Except Failure Text :=
  t.program.render e.types { filters := e.filters, evaluator := some e.evaluator } e.indent context

/-- Compiles a template for the type of a context and renders it. -/
def renderSource (e : Engine) (source : Text) (context : Data) : Except Error Text :=
  match e.compile [] source (e.types.typeOf context).1 with
  | .error p => .error (.during "compile template".toList (.template p))
  | .ok t =>
    match e.render t context with
    | .error f => .error (.failure f)
    | .ok out => .ok out

end Engine
end Offside
