import Offside.Rendering

/-!
# Watching files

A watcher renders files again when they change. Changes are reported for whole folders, so the
watcher keeps both the files that it watches and the folders that it has reported. After a template
was rendered, all templates that were ever asked for are watched.
-/

namespace Offside

/-- The files that are watched, and the folders whose changes are reported. -/
structure Watcher where
  workspace : Workspace
  folders : List Text := []
  files : List Text := []

namespace Watcher

/-- Watches the file at a full path. Its folder is reported unless it is already; `report` says
what comes of that. The file counts as watched even if its folder cannot be reported. -/
def watchFile (w : Watcher) (report : Text → Except Text Unit) (full : Text) :
    Except Text Unit × Watcher :=
  let w := { w with files := w.files.insert full }
  let folder := Path.folder full
  if folder ∈ w.folders then (.ok (), w)
  else
    match report folder with
    | .error e => (.error e, w)
    | .ok _ => (.ok (), { w with folders := folder :: w.folders })

/-- Whether the file at a full path is watched. -/
def isWatched (w : Watcher) (full : Text) : Bool := w.files.contains full

/-- Watches the file at a full path. -/
def watch (w : Watcher) (full : Text) : Job (Except Text Unit × Watcher) :=
  let folder := Path.folder full
  if folder ∈ w.folders then pure (w.watchFile (fun _ => .ok ()) full)
  else do
    let reported ← Job.watchFolder folder
    pure (w.watchFile (fun _ => reported) full)

/-- Watches several files. The user is told about those that cannot be watched. -/
def watchAll : Watcher → List Text → Job Watcher
  | w, [] => pure w
  | w, full :: rest => do
    match ← w.watch full with
    | (.error e, w) =>
      Job.logLine ("failed to watch ".toList ++ Text.quote full ++ ": ".toList ++ e)
      w.watchAll rest
    | (.ok _, w) => w.watchAll rest

/-- Renders a file that has changed. -/
def modified (w : Watcher) (r : Rendering) (path : Text) : Job Watcher := do
  let full := Path.resolve r.here path
  Job.logLine ("file ".toList ++ Text.quote (Path.base full) ++ " modified, rendering...".toList)
  match ← r.renderFile (w.workspace.invalidate full) full with
  | (.error e, workspace) =>
    Job.logLine ("failed to render file ".toList ++ Text.quote full ++ ": ".toList ++ e.describe)
    pure { w with workspace }
  | (.ok out, workspace) =>
    Job.logLine ("wrote ".toList ++ Text.quote out)
    watchAll { w with workspace } workspace.requestedFiles

/-- What happens when a change is reported: nothing, unless the file is watched. -/
def changed (w : Watcher) (r : Rendering) (full : Text) : Job Watcher :=
  if w.isWatched full then w.modified r full else pure w

end Watcher
end Offside
