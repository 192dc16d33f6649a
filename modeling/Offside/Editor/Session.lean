import Offside.Editor.Diagnostic
import Offside.Editor.SemanticToken
import Offside.Uri

/-!
# Editor sessions

A session keeps the documents that an editor has open. Opening or changing a document is answered
with its diagnostics, which depend on nothing but its address and its text. The text is kept even
if the address is refused. A change of a document that is not open is ignored.
-/

namespace Offside.Editor

/-- What goes wrong when an editor asks. -/
inductive SessionError where
  /-- The address of a document cannot be read. -/
  | address (error : UriError)
  /-- A document is not a file. -/
  | scheme (name : Text)
  /-- A document is not open. -/
  | notOpen (uri : Text)
deriving DecidableEq, Repr

namespace SessionError

/-- The text that tells what goes wrong. -/
def message : SessionError → Text
  | address error => "parse document uri: ".toList ++ error.message
  | scheme name => "invalid document uri scheme ".toList ++ Text.quote name
  | notOpen uri => "document ".toList ++ Text.quote uri ++ " not found".toList

end SessionError

/-- The diagnostics of a document, which take the place of all that were sent for it before. -/
structure Report where
  uri : Text
  diagnostics : List Diagnostic
deriving DecidableEq, Repr

/-- The state of a session. -/
structure Session where
  engine : Engine := {}
  /-- How the places that an editor names are found in a document. -/
  indexing : Indexing := Position.indexes
  /-- How the URI of a document is read. -/
  readUri : Text → Except UriError Uri := Uri.read
  /-- The texts of the open documents by their URIs. -/
  documents : Table Text := []
  /-- How much the editor wants to be told about the work. -/
  trace : Text := "message".toList

namespace Session

/-- The name under which the session presents itself. -/
def name : Text := "koreander".toList

/-- The version of the program. -/
def version : Text := "0.1.0".toList

/-- The text of a document. -/
def document? (s : Session) (uri : Text) : Option Text := s.documents.get? uri

/-- The session with a new text for a document. -/
def setDocument (s : Session) (uri text : Text) : Session :=
  { s with documents := s.documents.set uri text }

/-- The report on a document with a given text. Only files are reported on. -/
def report (s : Session) (uri text : Text) : Except SessionError Report :=
  match s.readUri uri with
  | .error e => .error (.address e)
  | .ok address =>
    if address.scheme ≠ "file".toList then .error (.scheme address.scheme)
    else .ok { uri, diagnostics := Diagnostic.ofDocument s.engine address.path text }

/-- A document is opened. -/
def openDocument (s : Session) (uri text : Text) :
    Except SessionError (List Report) × Session :=
  ((s.report uri text).map fun r => [r], s.setDocument uri text)

/-- A document is changed, by one change after the other. -/
def changeDocument (s : Session) (uri : Text) (changes : List Change) :
    Except SessionError (List Report) × Session :=
  match s.document? uri with
  | none => (.ok [], s)
  | some text => s.openDocument uri (changes.foldl (Change.apply s.indexing) text)

/-- A document is closed. -/
def closeDocument (s : Session) (uri : Text) : Session :=
  { s with documents := s.documents.erase uri }

/-- The semantic tokens of an open document, as they are sent. -/
def semanticTokens (s : Session) (uri : Text) : Except SessionError (List UInt32) :=
  match s.document? uri with
  | none => .error (.notOpen uri)
  | some text =>
    .ok (SemanticToken.encode ((lex (Path.base uri) text).filterMap SemanticToken.ofToken?))

/-- The editor sets how much it wants to be told. The value has two spellings in use. -/
def setTrace (s : Session) (value : Text) : Session :=
  { s with trace := if value = "messages".toList then "message".toList else value }

/-- The editor ends the session. -/
def shutdown (s : Session) : Session := s.setTrace "off".toList

end Session
end Offside.Editor
