import Offside.Command

/-!
# The program

Carries the command out with the files of the operating system. Files that are watched are read
again every so often, and a file whose contents have changed counts as modified.
-/

namespace Offside

/-- What reading a file gives. -/
def readPath (path : Text) : IO (Except ReadError Text) := do
  try
    let bytes ← IO.FS.readBinFile (String.ofList path)
    return .ok (Text.ofBytes bytes.toList)
  catch
    | .noFileOrDirectory .. => return .error .missing
    | .inappropriateType .. => return .error .isFolder
    | .noSuchThing .. => return .error .missing
    | e => return .error (.other (toString e).toList)

/-- Writes a file through a temporary one beside it. -/
def writePath (path contents : Text) : IO (Except WriteError Unit) := do
  let temporary := path ++ "~".toList
  try
    IO.FS.writeFile (String.ofList temporary) (String.ofList contents)
    IO.FS.rename (String.ofList temporary) (String.ofList path)
    return .ok ()
  catch
    | .noFileOrDirectory .. => return .error (.create temporary .missing)
    | e => return .error (.create temporary (.other (toString e).toList))

/-- Carries a job out. -/
def Job.perform {α : Type} : Job α → IO α
  | done result => return result
  | read path next => do (next (← readPath path)).perform
  | write path contents next => do (next (← writePath path contents)).perform
  | watch _ next => (next (.ok ())).perform
  | print text next => do
    IO.print (String.ofList text)
    next.perform
  | log line next => do
    IO.eprintln (String.ofList line)
    next.perform

/-- The contents of the watched files. -/
def contentsOf (w : Watcher) : IO (List (Text × Option Text)) :=
  w.files.mapM fun file => do return (file, (← readPath file).toOption)

/-- Looks at the watched files again and again. -/
partial def watchLoop (w : Watcher) (r : Rendering) (before : List (Text × Option Text)) :
    IO Unit := do
  IO.sleep 500
  let now ← contentsOf w
  let mut w := w
  for (file, contents) in now do
    if contents.isSome && before.lookup file ≠ some contents then
      w ← (w.changed r file).perform
  watchLoop w r (← contentsOf w)

end Offside

/-- The program. -/
def main (args : List String) : IO UInt32 := do
  let here := (← IO.FS.realPath ".").toString.toList
  let outcome ← (Offside.Command.run here (args.map String.toList)).perform
  match outcome.watching with
  | some (w, r) => Offside.watchLoop w r (← Offside.contentsOf w)
  | none => pure ()
  return outcome.exit.toUInt32
