import Offside.Text.Basic

/-!
# Paths

Paths are texts whose parts stand between slashes. Everything here is lexical: no file is looked
at. `clean` gives the one shortest spelling of a path: no empty part, no part `.`, and no `..`
that could be taken back; two spellings that clean to the same path name the same file, as long as
there are no links. A rooted path starts with a slash.
-/

namespace Offside
namespace Path

/-- Whether a path starts at the root. -/
def isRooted (p : Text) : Bool :=
  match p with
  | '/' :: _ => true
  | _ => false

/-- The parts of a cleaned path, innermost first: each part is added to those before it. In a
rooted path there is nothing above the root. -/
def reduceParts (rooted : Bool) : (done : List Text) → List Text → List Text
  | done, [] => done
  | done, part :: parts =>
    if part = [] ∨ part = ['.'] then reduceParts rooted done parts
    else if part = ['.', '.'] then
      match done with
      | [] => reduceParts rooted (if rooted then [] else [part]) parts
      | top :: below =>
        if top = ['.', '.'] then reduceParts rooted (part :: top :: below) parts
        else reduceParts rooted below parts
    else reduceParts rooted (part :: done) parts

/-- The shortest spelling of a path. -/
def clean (p : Text) : Text :=
  let body := Text.join ['/'] (reduceParts (isRooted p) [] (Text.splitAt '/' p)).reverse
  if isRooted p then '/' :: body
  else if body = [] then ['.'] else body

/-- The parts one below the other, cleaned; empty ones do not count. -/
def join (parts : List Text) : Text :=
  match parts.filter (· ≠ []) with
  | [] => []
  | parts => clean (Text.join ['/'] parts)

/-- A path as seen from a folder. -/
def resolve (folder p : Text) : Text := if isRooted p then clean p else join [folder, p]

/-- All up to and including the last slash, and the part after it. -/
def split (p : Text) : Text × Text :=
  ((p.reverse.dropWhile (· ≠ '/')).reverse, (p.reverse.takeWhile (· ≠ '/')).reverse)

/-- The last part of a path, without the slashes behind it. -/
def base (p : Text) : Text :=
  if p = [] then ['.']
  else
    match (p.reverse.dropWhile (· = '/')).reverse with
    | [] => ['/']
    | p => (split p).2

/-- The folder of a path, cleaned. -/
def folder (p : Text) : Text := clean (split p).1

/-- The extension of a path: its last part from the last dot on, or nothing. -/
def extension (p : Text) : Text :=
  let name := (split p).2
  if '.' ∈ name then '.' :: (name.reverse.takeWhile (· ≠ '.')).reverse else []

/-- A name without its extension. -/
def stem (name : Text) : Text := name.take (name.length - (extension name).length)

end Path
end Offside
