import Offside.Disk
import Offside.Yaml.Document

/-!
# Context files

A context file holds the values that templates are rendered against, as a YAML map; a JSON object is
one too. An empty file is an empty context.
-/

namespace Offside

/-- Why there is no context. -/
inductive ContextError where
  /-- The file cannot be read. -/
  | read (path : Text) (cause : ReadError)
  /-- The file does not hold a map. -/
  | decode
deriving DecidableEq, Repr

/-- The text that tells why there is no context. -/
def ContextError.message : ContextError → Text
  | read path cause => "read context file: ".toList ++ cause.message path
  | decode => "decode context file".toList

namespace ContextFile

/-- The context without a file. -/
def empty : Data := .ofFields []

/-- The context that a file holds. -/
def decode (contents : Text) : Except ContextError Data :=
  match Yaml.fieldsOf? contents with
  | some fields => .ok (.ofFields fields)
  | none => .error .decode

/-- The context of a file, given what reading it gives and how its contents are decoded. -/
def load (path : Text) (found : Except ReadError Text)
    (decode : Text → Except ContextError Data := ContextFile.decode) : Except ContextError Data :=
  match found with
  | .error e => .error (.read path e)
  | .ok contents => decode contents

end ContextFile
end Offside
