import Offside.Editor.Position
import Offside.Workspace

/-!
# Diagnostics

What an editor is told about a document: the error that keeps it from being compiled, or else a
warning for every use of a filter that is not registered, with the registered names that look like
it. An error marks one place; a warning marks the filter's name with its colon.
-/

namespace Offside.Editor

/-- How bad it is. -/
inductive Severity where
  | error
  | warning
deriving DecidableEq, Repr

/-- A remark on a stretch of a document. -/
structure Diagnostic where
  start : Position := {}
  stop : Position := {}
  severity : Severity
  message : Text
deriving DecidableEq, Repr

/-- A location in the eyes of an editor. -/
def Position.ofLocation (l : Location) : Position := { line := l.line, character := l.column }

namespace Diagnostic

/-- The diagnostic of an error. -/
def ofError (e : Error) : Diagnostic :=
  match e.located? with
  | some problem =>
    { start := .ofLocation problem.pos
      stop := .ofLocation problem.pos
      severity := .error
      message := problem.cause.message }
  | none => { severity := .error, message := e.message }

/-- The text of the warning about a filter that is not registered. -/
def unknownFilter (engine : Engine) (name : Text) : Text :=
  let known := "unknown filter ".toList ++ Text.quote name
  match engine.suggest name with
  | [] => known
  | names => known ++ ", did you mean ".toList ++ Text.join " or ".toList names ++ ['?']

/-- The warning about a use of a filter, unless the filter is registered. -/
def ofFilterUse? (engine : Engine) (use : FilterUse) : Option Diagnostic :=
  if (engine.filters.lookup? use.name).isSome then none
  else
    let start := Position.ofLocation use.pos
    some
      { start
        stop := { start with character := start.character + use.name.length + 1 }
        severity := .warning
        message := unknownFilter engine use.name }

/-- The warnings about the filters of a template. -/
def ofTemplate (engine : Engine) (t : Template) : List Diagnostic :=
  t.filters.filterMap (ofFilterUse? engine)

/-- All that there is to say about the document at a path. It is compiled for contexts of no
particular type, and alone. -/
def ofDocument (engine : Engine) (path content : Text) : List Diagnostic :=
  let w : Workspace := { root := Path.folder path, engine, contextType := [] }
  match (w.loadContents (Path.base path) content).1 with
  | .error e => [ofError e]
  | .ok c => ofTemplate engine c.template

end Diagnostic
end Offside.Editor
