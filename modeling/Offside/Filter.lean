import Offside.Table
import Offside.Text.Escape

/-!
# Filters

A filter turns the text of a block into output; the result is not escaped. Filters are known by
name. A block whose filter is unknown puts out a remark instead.
-/

namespace Offside

/-- A filter. -/
abbrev Filter := Text → Text

namespace Filter

/-- A style sheet. -/
def css : Filter := fun t => "<style>\n".toList ++ t ++ "\n</style>".toList

/-- A script. -/
def javascript : Filter := fun t =>
  "<script type=\"text/javascript\">\n".toList ++ t ++ "\n</script>".toList

/-- The text as it is. -/
def plain : Filter := fun t => t

/-- The text with its markup escaped. -/
def escaped : Filter := Text.escape

/-- A character data section. The text cannot end it: where it would, the section is closed and
another one opened. -/
def cdata : Filter := fun t =>
  "<![CDATA[\n".toList ++ Text.replace "]]>".toList "]]]]><![CDATA[>".toList t ++ "\n]]>".toList

/-- What stands in for a block whose filter is unknown. -/
def notFound (name : Text) : Text := "Filter '".toList ++ name ++ "' not found.".toList

end Filter

/-- Filters by name. -/
structure FilterRegistry where
  filters : Table Filter := []

namespace FilterRegistry

/-- The filters that are always there unless others are given. -/
def defaults : FilterRegistry where
  filters := [
    ("cdata".toList, Filter.cdata),
    ("css".toList, Filter.css),
    ("escaped".toList, Filter.escaped),
    ("javascript".toList, Filter.javascript),
    ("js".toList, Filter.javascript),
    ("plain".toList, Filter.plain)]

/-- The filter of a name. -/
def lookup? (r : FilterRegistry) (name : Text) : Option Filter := r.filters.get? name

/-- Registers a filter, in place of one of the same name. -/
def insert (r : FilterRegistry) (name : Text) (f : Filter) : FilterRegistry where
  filters := r.filters.set name f

/-- Puts a name in its place among sorted names. -/
def insertName (n : Text) : List Text → List Text
  | [] => [n]
  | m :: ms => if Text.le n m then n :: m :: ms else m :: insertName n ms

/-- The registered names in order. -/
def names (r : FilterRegistry) : List Text := (r.filters.map (·.1)).foldr insertName []

/-- The output of the named filter for a text. -/
def apply (r : FilterRegistry) (name text : Text) : Text :=
  match r.lookup? name with
  | some f => f text
  | none => Filter.notFound name

end FilterRegistry
end Offside
