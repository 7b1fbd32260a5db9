import TemplateJsx.Tree.Basic

/-!
# Agreement of trees

Two trees agree when they are built alike and their names, values and origins mean the same.
-/

set_option autoImplicit false

namespace TemplateJsx

def Origin.agrees (a b : Origin) : Bool :=
  a.line.agrees b.line && a.column.agrees b.column && a.filename.agrees b.filename

def Attr.agrees (a b : Attr) : Bool :=
  a.name.agrees b.name && a.value.agrees b.value && a.origin.agrees b.origin

def Opening.agrees (a b : Opening) : Bool :=
  a.name.agrees b.name && a.attrs.isEqv b.attrs Attr.agrees && a.origin.agrees b.origin &&
    a.blockOrigin.agrees b.blockOrigin

/-- Objects are compared by all that is known of them. -/
def Foreign.agrees : Foreign → Foreign → Bool
  | .value a, .value b => Json.agrees a b
  | .object kind place present, .object kind' place' present' =>
      kind == kind' && place.toList.isEqv place'.toList Json.agrees && present == present'
  | _, _ => false

namespace Node

mutual

def agrees : Node → Node → Bool
  | .block children origin, .block children' origin' =>
      agreeList children children' && origin.agrees origin'
  | .tag opening children, .tag opening' children' =>
      opening.agrees opening' && agreeList children children'
  | .text value origin, .text value' origin' => value.agrees value' && origin.agrees origin'
  | .foreign content, .foreign content' => content.agrees content'
  | _, _ => false

def agreeList : List Node → List Node → Bool
  | [], [] => true
  | node :: nodes, node' :: nodes' => agrees node node' && agreeList nodes nodes'
  | _, _ => false

end

end Node

end TemplateJsx
