import Offside.CommandLine.Invocation
import Offside.ContextFile
import Offside.Watcher

/-!
# The command

What the program does when it is called: it renders files, once or whenever they change, or lists
the tokens of a file. The user is told about errors, and the exit code tells that there was one.
-/

namespace Offside.Command

open CommandLine

/-- How a call ends. -/
structure Outcome where
  exit : Nat
  /-- The files that are watched from now on, and how they are rendered. -/
  watching : Option (Watcher × Rendering) := none

/-- What the command is put together from. -/
structure Parts where
  /-- Understands a command line. -/
  understand : List Text → Job (Except UsageError Invocation) := Invocation.ofLine
  /-- The context that the contents of a context file hold. -/
  decode : Text → Except ContextError Data := ContextFile.decode
  /-- What templates are compiled and rendered with, but for the indentation of the output. -/
  engine : Engine := {}

/-- The text that tells how the program is called. -/
def usage : Text :=
  ("usage: koreander [<flags>] <command> [<args> ...]\n\n" ++
    "Commands:\n" ++
    "  render [<flags>] <files>...   Render templates to files (default)\n" ++
    "    -c, --context=FILE          YAML or JSON file with the render context\n" ++
    "    -o, --out-dir=.             Folder to put rendered files on\n" ++
    "        --ext=.html             Extension of rendered files\n" ++
    "        --[no-]pretty           Indent rendered output like the source\n" ++
    "    -w, --[no-]watch            Watch files for changes and render again\n" ++
    "  tokens <file>                 Print the tokens of a template\n").toList

/-- Tells the user about an error. -/
def fail (message : Text) : Job Outcome := do
  Job.logLine ("koreander: error: ".toList ++ message)
  pure { exit := 1 }

/-- A token as the listing shows it. -/
def tokenLine (t : Token) : Text :=
  t.start.describe ++ '\t' :: t.kind.label.toList ++ '\t' :: Text.quote t.contents ++ ['\n']

/-- Lists the tokens of a file. -/
def printTokens (file : Text) : Job Outcome := do
  match ← Job.readFile file with
  | .error e => fail ("read file: ".toList ++ e.message file)
  | .ok contents =>
    Job.printText ((lex file contents).flatMap tokenLine)
    pure { exit := 0 }

/-- Starts to watch files, after rendering each for the first time. -/
def watchFiles (r : Rendering) : Watcher → List Text → Job (Except Text Watcher)
  | w, [] => pure (.ok w)
  | w, file :: files => do
    match ← w.watch (Path.resolve r.here file) with
    | (.error e, _) =>
      pure (.error ("watch file ".toList ++ Text.quote file ++ ": ".toList ++ e))
    | (.ok _, w) => watchFiles r (← w.modified r file) files

/-- Renders files. -/
def renderFiles (here : Text) (i : Invocation) (parts : Parts := {}) : Job Outcome := do
  let context ← match i.context? with
    | none => pure (.ok ContextFile.empty)
    | some path => do pure (ContextFile.load path (← Job.readFile path) parts.decode)
  match context with
  | .error e => fail e.message
  | .ok context =>
    let r : Rendering := { context, here, outDir := Path.resolve here i.outDir, ext := i.ext }
    let engine := { parts.engine with indent := i.pretty }
    let w : Workspace := { root := here, engine, contextType := (engine.types.typeOf context).1 }
    if i.watch then
      match ← watchFiles r { workspace := w } i.files.reverse with
      | .error e => fail ("failed to watch files: ".toList ++ e)
      | .ok watcher =>
        Job.logLine "watching files for changes...".toList
        pure { exit := 0, watching := some (watcher, r) }
    else
      match ← r.renderAll w i.files.reverse with
      | .error e => fail ("failed to render files: ".toList ++ e)
      | .ok _ => pure { exit := 0 }

/-- Carries out a command line in a folder. -/
def run (here : Text) (line : List Text) (parts : Parts := {}) : Job Outcome := do
  match ← parts.understand line with
  | .error e => fail (e.message ++ ", try --help".toList)
  | .ok i =>
    match i.verb, i.files with
    | .help, _ =>
      Job.printText usage
      pure { exit := 0 }
    | .tokens, file :: _ => printTokens file
    | _, _ => renderFiles here i parts

end Offside.Command
