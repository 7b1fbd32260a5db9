import TemplateJsx.Diagnostic.Fault
import TemplateJsx.Source.Path

/-!
# Limits of paths

No path is looked up that holds a null character or whose spelling is too long. A part that is too
long for a name is refused where it would be looked up, in a directory. Lengths count the bytes of
UTF-8.
-/

set_option autoImplicit false

namespace TemplateJsx.Source

def nameLimit : Nat := 255

def spellingLimit : Nat := 4095

def isLongName (part : String) : Bool := nameLimit < part.utf8ByteSize

def Path.refusal? (path : Path) : Option FileFault :=
  if path.text.toList.contains '\x00' then some .nullInPath
  else if spellingLimit < path.text.utf8ByteSize then some .nameTooLong
  else none

end TemplateJsx.Source
