import TemplateJsx.Text.Hex
import TemplateJsx.Text.Printable

/-!
# Literals in messages

Messages show names as literals: between quotes, with every character that cannot be printed written
as an escape. Apostrophes are the usual quotes; double quotes are used for a text that holds an
apostrophe and no double quote.
-/

set_option autoImplicit false

namespace TemplateJsx.Text

def literalQuote (cs : List CodePoint) : CodePoint :=
  if cs.contains '\x27' && !cs.contains '\x22' then '\x22' else '\x27'

/-- One code point inside a literal that `quote` surrounds. -/
def literalChar (quote c : CodePoint) : List CodePoint :=
  if c = quote ∨ c = '\\' then ['\\', c]
  else if c = '\n' then ['\\', 'n']
  else if c = '\r' then ['\\', 'r']
  else if c = '\t' then ['\\', 't']
  else if isPrintable c then [c]
  else if c.toNat ≤ 0xFF then (numericEscape 'x' 2 c.toNat).map .char
  else if c.toNat ≤ 0xFFFF then (numericEscape 'u' 4 c.toNat).map .char
  else (numericEscape 'U' 8 c.toNat).map .char

def literal (s : Text) : Text :=
  let quote := literalQuote s.toList
  ofList (quote :: s.toList.flatMap (literalChar quote) ++ [quote])

end TemplateJsx.Text
