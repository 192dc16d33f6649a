import Offside.Job
import Offside.Workspace

/-!
# Rendering files

Templates are rendered to files of their own: the output of a template goes to the output folder,
under the name of the template with another extension.
-/

namespace Offside

/-- How files are rendered. -/
structure Rendering where
  context : Data
  /-- The folder that relative paths start from. -/
  here : Text
  outDir : Text
  ext : Text

namespace Rendering

/-- Where the output of a template goes. -/
def outputPath (r : Rendering) (file : Text) : Text :=
  Path.join [r.outDir, Path.stem (Path.base file) ++ r.ext]

/-- Renders a template of a workspace to its file, and gives the path of that file. -/
def renderFile (r : Rendering) (w : Workspace) (file : Text) :
    Job (Except Error Text × Workspace) := do
  let found ← Job.readFile (w.fullPath file)
  match w.render (fun _ => found) file r.context with
  | (.error e, w) => pure (.error e, w)
  | (.ok out, w) =>
    let path := r.outputPath file
    match ← Job.writeFile path out with
    | .error e => pure (.error (.during "write output file".toList (.outside e.message)), w)
    | .ok _ => pure (.ok path, w)

/-- Renders files one after the other, up to the first that fails. The error then tells which. -/
def renderAll (r : Rendering) : Workspace → List Text → Job (Except Text Unit)
  | _, [] => pure (.ok ())
  | w, file :: files => do
    match ← r.renderFile w file with
    | (.error e, _) =>
      pure (.error ("render file ".toList ++ Text.quote file ++ ": ".toList ++ e.describe))
    | (.ok _, w) => r.renderAll w files

end Rendering
end Offside
