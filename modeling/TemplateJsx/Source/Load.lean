import TemplateJsx.Source.Encoding
import TemplateJsx.Source.FileTree
import TemplateJsx.Text.Newline
import TemplateJsx.Trace
import TemplateJsx.Tree.Load

/-!
# Trees from files

Text from outside has its line ends unified before it is read as JSON.
-/

set_option autoImplicit false

namespace TemplateJsx.Source

def loadText (text : String) : Except Fault Node := Node.ofText (Text.withNewlines text)

def loadBytes (encoding : Encoding) (content : Except FileFault ByteArray) : Except Fault Node :=
  match content with
  | .error cause => .error (.file cause)
  | .ok bytes =>
      match encoding.decode bytes with
      | .error cause => .error (.file cause)
      | .ok text => loadText text

def loadFile (encoding : Encoding) (path : Path) (content : Except FileFault ByteArray) :
    Traced Node := do
  Traced.tell (.loading path.text)
  Traced.lift (loadBytes encoding content)

end TemplateJsx.Source
