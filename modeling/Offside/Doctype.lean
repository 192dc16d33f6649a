import Offside.Text.CaseFold
import Offside.Text.Basic

/-!
# Document types

A doctype line names a document type by a keyword. The keyword `xml`, in any case, stands for an
XML prolog instead; a second word names an encoding.
-/

namespace Offside.Doctype

/-- The declarations of XHTML 1.0 differ in one word, once in the public identifier and once, in
lower case, in the address. -/
def xhtml1 (title address : String) : String :=
  "<!DOCTYPE html PUBLIC \"-//W3C//DTD XHTML 1.0 " ++ title
    ++ "//EN\" \"http://www.w3.org/TR/xhtml1/DTD/xhtml1-" ++ address ++ ".dtd\">"

/-- The declaration that a keyword stands for. -/
def table : List (String × String) := [
  ("", xhtml1 "Transitional" "transitional"),
  ("Transitional", xhtml1 "Transitional" "transitional"),
  ("Strict", xhtml1 "Strict" "strict"),
  ("Frameset", xhtml1 "Frameset" "frameset"),
  ("5", "<!DOCTYPE html>"),
  ("1.1", "<!DOCTYPE html PUBLIC \"-//W3C//DTD XHTML 1.1//EN\" "
    ++ "\"http://www.w3.org/TR/xhtml11/DTD/xhtml11.dtd\">"),
  ("Basic", "<!DOCTYPE html PUBLIC \"-//W3C//DTD XHTML Basic 1.1//EN\" "
    ++ "\"http://www.w3.org/TR/xhtml-basic/xhtml-basic11.dtd\">"),
  ("Mobile", "<!DOCTYPE html PUBLIC \"-//WAPFORUM//DTD XHTML Mobile 1.2//EN\" "
    ++ "\"http://www.openmobilealliance.org/tech/DTD/xhtml-mobile12.dtd\">"),
  ("RDFa", "<!DOCTYPE html PUBLIC \"-//W3C//DTD XHTML+RDFa 1.0//EN\" "
    ++ "\"http://www.w3.org/MarkUp/DTD/xhtml-rdfa-1.dtd\">")]

/-- The declaration for a keyword; no keyword means Transitional. Keywords are case sensitive. -/
def declaration? (keyword : Text) : Option Text :=
  (table.find? (·.1.toList == keyword)).map (·.2.toList)

/-- The XML prolog for an encoding. -/
def prolog (encoding : Text) : Text :=
  "<?xml version='1.0' encoding='".toList ++ encoding ++ "' ?>".toList

/-- Equality of texts up to case. -/
def sameFoldText (s t : Text) : Bool := s.map foldCase == t.map foldCase

/-- The lines that a doctype line puts out, or `none` if its keyword is unknown. An empty encoding
is none. -/
def lines? (keyword encoding : Text) : Option (List Text) :=
  if sameFoldText keyword "xml".toList then
    some [prolog (if encoding.isEmpty then "utf-8".toList else encoding)]
  else (declaration? keyword).map fun d =>
    if encoding.isEmpty then [d] else [prolog encoding, d]

end Offside.Doctype
