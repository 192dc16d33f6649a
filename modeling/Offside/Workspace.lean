import Offside.Disk
import Offside.Engine

/-!
# Workspaces

A workspace keeps the templates of a folder compiled. A template is looked up by its cleaned path,
so all spellings of a path share one compiled template; its name is the spelling under which it was
compiled. What was compiled stays until it is dropped or replaced, whatever happens to the file.
Every compiled template has a serial number of its own, by which one can tell a template that was
kept from one that was compiled again.
-/

namespace Offside

/-- A template as a workspace keeps it. -/
structure Compiled where
  /-- Counts the templates that the workspace has compiled. -/
  serial : Nat
  template : Template
deriving DecidableEq, Repr

/-- The compiled templates of a folder. -/
structure Workspace where
  root : Text
  engine : Engine
  /-- The type of the contexts that templates are compiled for. -/
  contextType : Text
  /-- The compiled templates by their full paths. -/
  compiled : Table Compiled := []
  /-- The full paths of all templates that were asked for. -/
  requested : List Text := []
  /-- The serial number of the next template. -/
  next : Nat := 0

namespace Workspace

/-- The one path under which all spellings of a path are kept. -/
def fullPath (w : Workspace) (path : Text) : Text := Path.resolve w.root path

/-- The compiled template of a full path. -/
def get? (w : Workspace) (full : Text) : Option Compiled := w.compiled.get? full

/-- Drops the compiled template of a full path. -/
def erase (w : Workspace) (full : Text) : Workspace :=
  { w with compiled := w.compiled.erase full }

/-- Drops the compiled template of a path. -/
def invalidate (w : Workspace) (path : Text) : Workspace := w.erase (w.fullPath path)

/-- Compiles the contents of a path and keeps the template. If they do not compile, what was kept
is left as it is. -/
def compile (w : Workspace) (path contents : Text) : Except Error Compiled × Workspace :=
  match w.engine.compile path contents w.contextType with
  | .error p => (.error (.during "compile file".toList (.template p)), w)
  | .ok template =>
    let c : Compiled := { serial := w.next, template }
    (.ok c, { w with compiled := w.compiled.set (w.fullPath path) c, next := w.next + 1 })

/-- Compiles contents that need not be those of the file. What was kept for the path is dropped
first, so it is gone even if the contents do not compile. -/
def loadContents (w : Workspace) (path contents : Text) : Except Error Compiled × Workspace :=
  (w.invalidate path).compile path contents

/-- The template of a path: the one that is kept, or else the file compiled. Here `read` says what
reading a full path gives at the moment. -/
def load (w : Workspace) (read : Text → Except ReadError Text) (path : Text) :
    Except Error Compiled × Workspace :=
  let full := w.fullPath path
  let w := { w with requested := w.requested.insert full }
  match w.get? full with
  | some c => (.ok c, w)
  | none =>
    match read full with
    | .ok contents => w.compile path contents
    | .error .missing => (.error (.templateNotFound path), w)
    | .error e => (.error (.during "read file".toList (.outside (e.message full))), w)

/-- Loads a template and renders it. -/
def render (w : Workspace) (read : Text → Except ReadError Text) (path : Text) (context : Data) :
    Except Error Text × Workspace :=
  match w.load read path with
  | (.error e, w) => (.error e, w)
  | (.ok c, w) => ((w.engine.render c.template context).mapError .failure, w)

/-- The full paths of all templates that were asked for, in order. -/
def requestedFiles (w : Workspace) : List Text := w.requested.mergeSort Text.le

end Workspace
end Offside
