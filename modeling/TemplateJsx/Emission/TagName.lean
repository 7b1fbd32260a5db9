import TemplateJsx.Diagnostic.Fault
import TemplateJsx.Text.Search
import TemplateJsx.Text.Uppercase

/-!
# Names of emitted elements

A tag name with hyphens becomes one word in which every part begins with an upper-case letter. A name
without hyphens stays as it is.
-/

set_option autoImplicit false

namespace TemplateJsx

open Text

def capitalize : List CodePoint → List CodePoint
  | [] => []
  | c :: cs => upper c ++ cs

def joinHyphenated (cs : List CodePoint) : List CodePoint := (pieces (.char '-') cs).flatMap capitalize

def elementName (name : Text) : Text :=
  if name.toList.contains '-' then Text.ofList (joinHyphenated name.toList) else name

/-- The name of the element for any tag name. A collection is taken as it is, unless a hyphen is one
of its items, and nothing else can be a name. -/
def elementNameOf : Json → Except Fault Json
  | .str name => .ok (.str (elementName name))
  | .arr items =>
      if .str "-" ∈ items then .error (.mismatch .hyphenatedNameWanted) else .ok (.arr items)
  | .obj members =>
      if Text.ofString "-" ∈ members.map (·.1) then .error (.mismatch .hyphenatedNameWanted)
      else .ok (.obj members)
  | _ => .error (.mismatch .tagNameWanted)

end TemplateJsx
