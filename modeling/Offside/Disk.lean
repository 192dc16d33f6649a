import Offside.Path
import Offside.Table
import Offside.Text.Quoted
import Offside.Text.Utf8

/-!
# Disks

A disk holds files in folders. Reading follows a path part by part, so that a missing folder is
noticed even where a later `..` would leave it again; that is the difference from the lexical
operations on paths. A file is written by making a temporary file beside it, which then takes its
place; the two steps can fail for different reasons.
-/

namespace Offside

/-- Why a path cannot be read. -/
inductive ReadError where
  /-- There is nothing at the path. -/
  | missing
  /-- The path is a folder. -/
  | isFolder
  /-- A part of the path that should be a folder is a file. -/
  | notFolder
  /-- The path or one of its parts has too many bytes. -/
  | tooLong
  /-- The path holds a character that no path can hold. -/
  | invalid
  /-- Another reason. -/
  | other (reason : Text)
deriving DecidableEq, Repr

namespace ReadError

/-- The reason alone. -/
def reason : ReadError → Text
  | missing => "no such file or directory".toList
  | isFolder => "is a directory".toList
  | notFolder => "not a directory".toList
  | tooLong => "file name too long".toList
  | invalid => "invalid argument".toList
  | other reason => reason

/-- The text that tells why the path `p` cannot be read. A folder can be opened, but not read. -/
def message (p : Text) (e : ReadError) : Text :=
  let step := match e with
    | isFolder => "read ".toList
    | _ => "open ".toList
  step ++ p ++ ": ".toList ++ e.reason

end ReadError

/-- Files by their paths, and folders. All paths are rooted and cleaned. -/
structure Disk where
  files : Table Text := []
  folders : List Text := [['/']]
  /-- The folder that relative paths start from. -/
  here : Text := ['/']
  /-- What marks the name of a temporary version of a file. -/
  temporary : Text := "~".toList
deriving DecidableEq, Repr

namespace Disk

/-- The contents of the file at a cleaned path. -/
def file? (d : Disk) (p : Text) : Option Text := d.files.get? p

/-- Whether there is a folder at a cleaned path. -/
def isFolder (d : Disk) (p : Text) : Bool := d.folders.contains p

/-- A part of a path may have this many bytes. -/
def partLimit : Nat := 255

/-- A path must have fewer bytes than this. -/
def pathLimit : Nat := 4096

/-- Follows the parts of a path from a cleaned path on. Every part but a last name has to lead from
a folder. -/
def walk (d : Disk) (place : Text) : List Text → Except ReadError Text
  | [] => .ok place
  | part :: parts =>
    if !d.isFolder place then .error .notFolder
    else if part = [] ∨ part = ['.'] then walk d place parts
    else if part = ['.', '.'] then walk d (Path.folder place) parts
    else if partLimit < Text.byteLength part then .error .tooLong
    else
      let next := Path.join [place, part]
      if d.isFolder next || (d.file? next).isSome then walk d next parts
      else .error .missing

/-- The cleaned path that a path leads to. -/
def locate (d : Disk) (p : Text) : Except ReadError Text :=
  if p = [] then .error .missing
  else if Char.ofNat 0 ∈ p then .error .invalid
  else if pathLimit ≤ Text.byteLength p then .error .tooLong
  else if Path.isRooted p then walk d ['/'] (Text.splitAt '/' p)
  else walk d d.here (Text.splitAt '/' p)

/-- The contents of a file. -/
def read (d : Disk) (p : Text) : Except ReadError Text :=
  match d.locate p with
  | .error e => .error e
  | .ok full =>
    match d.file? full with
    | some contents => .ok contents
    | none => .error .isFolder

/-- A folder, and the folders that it is in. -/
def addFolder (d : Disk) (p : Text) : Disk :=
  let chain := (Text.splitAt '/' p).foldl (fun done part => Path.join [done.headD [], part] :: done)
    [['/']]
  { d with folders := (chain.filter fun f => !d.isFolder f).eraseDups ++ d.folders }

/-- A file with the given contents, in place of one that is there; its folders come with it. -/
def put (d : Disk) (p contents : Text) : Disk :=
  let d := d.addFolder (Path.folder p)
  { d with files := d.files.set p contents }

/-- The disk without the file at a cleaned path. -/
def remove (d : Disk) (p : Text) : Disk := { d with files := d.files.erase p }

end Disk

/-- Why a file cannot be written. -/
inductive WriteError where
  /-- The temporary file cannot be made. -/
  | create (temporary : Text) (cause : ReadError)
  /-- The temporary file cannot take the place of what is at the path. -/
  | replace (path temporary : Text)
deriving DecidableEq, Repr

/-- The text that tells why a file cannot be written. -/
def WriteError.message : WriteError → Text
  | create temporary cause =>
    "cannot create temp file: open ".toList ++ temporary ++ ": ".toList ++ cause.reason
  | replace path temporary =>
    "cannot replace ".toList ++ Text.quote path ++ " with tempfile ".toList
      ++ Text.quote temporary ++ ": rename ".toList ++ temporary ++ [' '] ++ path
      ++ ": file exists".toList

namespace Disk

/-- How many bytes the mark of a temporary name is counted as. -/
def markLength : Nat := 10

/-- The name of the temporary version of a file. The mark takes the place of the last star in the
name, or else stands at its end. -/
def temporaryName (mark name : Text) : Text :=
  if '*' ∈ name then
    let (tail, head) := Text.splitWhile (· ≠ '*') name.reverse
    (head.drop 1).reverse ++ mark ++ tail.reverse
  else name ++ mark

/-- The cleaned path of the folder in which a file of the given path can be made. -/
def folderFor (d : Disk) (p : Text) : Except ReadError Text := do
  if Char.ofNat 0 ∈ p then throw .invalid
  if pathLimit ≤ Text.byteLength p then throw .tooLong
  let (folder, name) := Path.split p
  let place ← d.locate folder
  if !d.isFolder place then throw .notFolder
  if partLimit < Text.byteLength name then throw .tooLong
  return place

/-- Writes a file through a temporary one beside it. -/
def write (d : Disk) (p contents : Text) : Except WriteError Disk :=
  let (folder, name) := Path.split p
  let temporary := folder ++ temporaryName d.temporary name
  match d.folderFor (folder ++ temporaryName (List.replicate markLength '0') name) with
  | .error e => .error (.create temporary e)
  | .ok place =>
    let full := Path.join [place, name]
    if d.isFolder full then .error (.replace p temporary)
    else .ok { d with files := d.files.set full contents }

/-- A way to write a file: the disk afterwards, or why the file cannot be written. -/
abbrev Writing := Disk → (path contents : Text) → Except WriteError Disk

end Disk
end Offside
