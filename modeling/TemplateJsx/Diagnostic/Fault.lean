import TemplateJsx.Diagnostic.Basic
import TemplateJsx.Json.Reader

/-!
# Faults

What can stop the work on a template. A diagnostic is the orderly way. A mismatch is a value of the
wrong kind where the tree gives no other way to go on; a text may fail to be JSON; a file may fail to
be read; and a result may hold a surrogate, which cannot be printed.
-/

set_option autoImplicit false

namespace TemplateJsx

/-- A value of a kind that its use does not allow. -/
inductive Mismatch where
  /-- A value that is to be matched as text is none. -/
  | textWanted
  /-- Something that is to be gone through item by item has no items. -/
  | itemsWanted
  /-- A tag name is neither text nor a collection. -/
  | tagNameWanted
  /-- A bare attribute name that is to be joined to others is no text. -/
  | bareNameWanted
  /-- The type of a node is an array or an object. -/
  | typeNameWanted
  /-- The start of an attribute name is asked for, and the name is no text. -/
  | attrNameWanted
  /-- The block of a tag is no object. -/
  | blockWanted
  /-- A tag name that holds a hyphen as an item is to be cut at hyphens. -/
  | hyphenatedNameWanted
  /-- A node has no child of this number. -/
  | childWanted
  /-- A child is asked of a node that can have none. -/
  | parentWanted
  /-- Attributes are to be taken from a node that is no tag. -/
  | tagWanted
  /-- The place of a mere value is asked for. -/
  | nodeWanted
deriving DecidableEq, Repr

inductive FileFault where
  | missing
  | isDirectory
  | notDirectory
  /-- A name, or the whole path, has too many bytes. -/
  | nameTooLong
  | nullInPath
  | undecodable
  /-- The text lacks the mark that tells the order of its bytes. -/
  | unmarked
deriving DecidableEq, Repr

inductive Fault where
  | diagnosed (diagnostic : Diagnostic)
  | mismatch (cause : Mismatch)
  | notJson (cause : Json.ReadError)
  | file (cause : FileFault)
  | unprintable
deriving DecidableEq, Repr

def Fault.complain (complaint : Complaint) (place : Json) : Fault :=
  .diagnosed { complaint, place }

end TemplateJsx
