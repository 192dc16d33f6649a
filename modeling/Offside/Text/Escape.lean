import Offside.Text.Basic

/-!
# Markup escaping

The five characters that have a meaning in markup are written as character references. Escaped
text holds none of `<`, `>`, `"` and `'`, so it can neither open a tag nor end an attribute value.
-/

namespace Offside

/-- A character as it is written in markup. -/
def escapeChar (c : Char) : Text :=
  if c = '&' then "&amp;".toList
  else if c = '\'' then "&#39;".toList
  else if c = '<' then "&lt;".toList
  else if c = '>' then "&gt;".toList
  else if c = '"' then "&#34;".toList
  else [c]

/-- A text as it is written in markup. -/
def Text.escape (t : Text) : Text := t.flatMap escapeChar

/-- The characters that delimit tags and attribute values. -/
def isMarkupDelimiter (c : Char) : Bool := c == '<' || c == '>' || c == '"' || c == '\''

end Offside
