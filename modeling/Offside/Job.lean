import Offside.Disk

/-!
# Jobs

A job is work that reads and writes files and tells the user about it, step by step; how it goes on
after a step may depend on what the step gave. Jobs are data: the same job can be carried out by the
operating system, or on a disk that is a value, as `Job.runOn` does.
-/

namespace Offside

/-- Work that ends with a result. -/
inductive Job (α : Type) where
  | done (result : α)
  /-- Reads a file. -/
  | read (path : Text) (next : Except ReadError Text → Job α)
  /-- Writes a file. -/
  | write (path contents : Text) (next : Except WriteError Unit → Job α)
  /-- Has the changes in a folder reported from now on. -/
  | watch (folder : Text) (next : Except Text Unit → Job α)
  /-- Writes to the standard output. -/
  | print (text : Text) (next : Job α)
  /-- Writes a line for the user. -/
  | log (line : Text) (next : Job α)

namespace Job

variable {α β : Type}

/-- One job after the other. -/
def bind : Job α → (α → Job β) → Job β
  | done a, f => f a
  | read path next, f => read path fun r => (next r).bind f
  | write path contents next, f => write path contents fun r => (next r).bind f
  | watch folder next, f => watch folder fun r => (next r).bind f
  | print text next, f => print text (next.bind f)
  | log line next, f => log line (next.bind f)

instance : Monad Job where
  pure := done
  bind := bind

/-- Reads a file. -/
def readFile (path : Text) : Job (Except ReadError Text) := read path done

/-- Writes a file. -/
def writeFile (path contents : Text) : Job (Except WriteError Unit) := write path contents done

/-- Has the changes in a folder reported. -/
def watchFolder (folder : Text) : Job (Except Text Unit) := watch folder done

/-- Writes to the standard output. -/
def printText (text : Text) : Job Unit := print text (done ())

/-- Writes a line for the user. -/
def logLine (line : Text) : Job Unit := log line (done ())

/-- A disk, and all that was told so far. -/
structure World where
  disk : Disk
  printed : Text := []
  logged : List Text := []
deriving DecidableEq, Repr

/-- Carries a job out on a disk, with a way to write files. Changes can be reported in whatever is
there. -/
def runOn (w : World) (j : Job α) (writing : Disk.Writing := Disk.write) : α × World :=
  match j with
  | done a => (a, w)
  | read path next => (next (w.disk.read path)).runOn w writing
  | write path contents next =>
    match writing w.disk path contents with
    | .ok disk => (next (.ok ())).runOn { w with disk } writing
    | .error e => (next (.error e)).runOn w writing
  | watch folder next =>
    match w.disk.locate folder with
    | .ok _ => (next (.ok ())).runOn w writing
    | .error e => (next (.error e.reason)).runOn w writing
  | print text next => next.runOn { w with printed := w.printed ++ text } writing
  | log line next => next.runOn { w with logged := w.logged ++ [line] } writing

/-- The second of two jobs starts from where the first one ended. -/
theorem runOn_bind (w : World) (j : Job α) (f : α → Job β) (writing : Disk.Writing) :
    (j >>= f).runOn w writing =
      (f (j.runOn w writing).1).runOn (j.runOn w writing).2 writing := by
  change (j.bind f).runOn w writing = _
  induction j generalizing w with
  | done a => rfl
  | read path next ih => exact ih _ w
  | write path contents next ih =>
    simp only [Job.bind, runOn]
    split
    · exact ih _ _
    · exact ih _ w
  | watch folder next ih =>
    simp only [Job.bind, runOn]
    split
    · exact ih _ w
    · exact ih _ w
  | print text next ih => exact ih _
  | log line next ih => exact ih _

end Job
end Offside
