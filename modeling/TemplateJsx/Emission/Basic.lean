import TemplateJsx.Emission.Attribute
import TemplateJsx.Emission.Expansion
import TemplateJsx.Emission.TagName
import TemplateJsx.Emission.Text

/-!
# Emission

The JSX-like text of a template tree. Blocks and texts are emitted in order. A tag becomes an element
inside the wrappers of its directives: its attributes, then the entries of those children that hold
the content of slots, then the other children. The first fault ends the work.
-/

set_option autoImplicit false

namespace TemplateJsx

structure Family where
  /-- Children that hold the content of slots. -/
  slots : Bool := false
  /-- Children that are emitted where they stand. -/
  others : Bool := false
deriving DecidableEq, Repr

def Family.ofChildren (spelling : Spelling) : List Node → Except Fault Family
  | [] => .ok {}
  | node :: nodes =>
      match node.holdsSlot spelling with
      | .error fault => .error fault
      | .ok holds =>
          match Family.ofChildren spelling nodes with
          | .error fault => .error fault
          | .ok family =>
              if holds then .ok { family with slots := true }
              else .ok { family with others := true }

def slotsText (spelling : Spelling) (entries : Text) : Text :=
  " " ++ spelling.slotsProperty ++ "=\x7b\x7b" ++ entries ++ "\x7d\x7d"

/-- Emits the element of a tag whose directives are expanded, given what to do for the children that
hold slots and for the others. -/
def emitElement (spelling : Spelling) (opening : Opening) (children : List Node)
    (slots others : Traced Text) : Traced Text := do
  let name ← Traced.lift (elementNameOf opening.name)
  let attrs ← emitAttrs spelling opening.attrs (some opening.origin.place)
  let family ← Traced.lift (Family.ofChildren spelling children)
  let entries ← if family.slots then slots else pure ""
  let start := "<" ++ name.display ++ (if attrs = "" then ("" : Text) else " " ++ attrs) ++
    (if family.slots then slotsText spelling entries else "")
  if family.others then
    let body ← others
    return start ++ ">" ++ body ++ "</" ++ name.display ++ ">"
  else return start ++ " />"

def emitTag (spelling : Spelling) (expansion : Traced (List Wrapper × Opening))
    (children : List Node) (slots others : Traced Text) : Traced Text := do
  let (wrappers, opening) ← expansion
  let body ← emitElement spelling opening children slots others
  return wrapAll wrappers body

namespace Node

mutual

def emit (spelling : Spelling) : Node → Traced Text
  | .block children _ => emitAll spelling children
  | .tag opening children =>
      emitTag spelling (expand spelling opening) children (emitSlots spelling children)
        (emitOthers spelling children)
  | .text value _ => Traced.lift (emitText value)
  | .foreign content =>
      Traced.fail (.complain (.malformedTree content.kind none) content.place)

def emitAll (spelling : Spelling) : List Node → Traced Text
  | [] => pure ""
  | node :: nodes => do
      let text ← emit spelling node
      let rest ← emitAll spelling nodes
      return text ++ rest

def emitSlots (spelling : Spelling) : List Node → Traced Text
  | [] => pure ""
  | .tag opening children :: nodes =>
      match opening.slotAttr? spelling with
      | .ok (some attr) => do
          let text ← emitTag spelling (expandSlot spelling opening attr) children
            (emitSlots spelling children) (emitOthers spelling children)
          let rest ← emitSlots spelling nodes
          return text ++ rest
      | _ => emitSlots spelling nodes
  | _ :: nodes => emitSlots spelling nodes

def emitOthers (spelling : Spelling) : List Node → Traced Text
  | [] => pure ""
  | node :: nodes =>
      match node.holdsSlot spelling with
      | .ok true => emitOthers spelling nodes
      | _ => do
          let text ← emit spelling node
          let rest ← emitOthers spelling nodes
          return text ++ rest

end

end Node

end TemplateJsx
