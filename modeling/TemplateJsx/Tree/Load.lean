import TemplateJsx.Diagnostic.Fault
import TemplateJsx.Tree.Basic

/-!
# Trees from JSON

A block is an object of type `Block` with `nodes`, a tag one of type `Tag` with a `name`, `attrs` and
a `block`, and a text one of type `Text` with a `val`. The origin of each is read from `line`,
`column` and `filename`, and every other member is ignored. The root of a tree is a block.

What is missing is filled in: no nodes, no attributes, an attribute that is set, an empty text. A
`block` that does not count as present is an empty block, and the `type` of one that does is not
looked at.
-/

set_option autoImplicit false

namespace TemplateJsx

open Json (lookup?)

def Origin.ofMembers (members : List (Text × Json)) : Origin :=
  { line := (lookup? "line" members).getD .null
    column := (lookup? "column" members).getD .null
    filename := (lookup? "filename" members).getD .null }

/-- The items of a value that is gone through one by one: those of an array, the characters of a
string, the keys of an object. -/
def Json.items? : Json → Option (List Json)
  | .arr items => some items
  | .str value => some (value.toList.map fun c => .str (Text.ofList [c]))
  | .obj members => some (members.map fun member => .str member.1)
  | _ => none

def Fault.nameless (kind : Text) (members : List (Text × Json)) : Fault :=
  .complain (.malformedTree kind (some "missing 'name'")) (Origin.ofMembers members).place

def Attr.load : Json → Except Fault Attr
  | .obj members =>
      match lookup? "name" members with
      | some name =>
          .ok { name
                value := (lookup? "val" members).getD (.bool true)
                origin := Origin.ofMembers members }
      | none => .error (.nameless "Attr" members)
  | other =>
      .error (.complain (.malformedTree other.kind (some "attribute must be an object")) .null)

def Attr.loadAll : Option Json → Except Fault (List Attr)
  | none => .ok []
  | some value =>
      match value.items? with
      | some items => items.mapM Attr.load
      | none => .error (.mismatch .itemsWanted)

namespace Node

inductive Variety where
  | block
  | tag
  | text
deriving DecidableEq, Repr

def Variety.ofName? (name : Text) : Option Variety :=
  if name = "Block" then some .block
  else if name = "Tag" then some .tag
  else if name = "Text" then some .text
  else none

def unknownType (value : Json) (members : List (Text × Json)) : Fault :=
  .complain (.malformedTree value.display none) (Origin.ofMembers members).place

def Variety.ofMembers (members : List (Text × Json)) : Except Fault Variety :=
  match (lookup? "type" members).getD .null with
  | .str name =>
      match Variety.ofName? name with
      | some variety => .ok variety
      | none => .error (unknownType (.str name) members)
  | .arr _ => .error (.mismatch .typeNameWanted)
  | .obj _ => .error (.mismatch .typeNameWanted)
  | other => .error (unknownType other members)

def notObject (value : Json) : Fault := .complain (.malformedTree value.kind none) .null

/-- Goes through a value other than an array for nodes. It can hold none, so it must be empty. -/
def loadNone (value : Json) : Except Fault (List Node) :=
  match value.items? with
  | none => .error (.mismatch .itemsWanted)
  | some [] => .ok []
  | some (item :: _) => .error (notObject item)

mutual

def load : Json → Except Fault Node
  | .obj members =>
      match Variety.ofMembers members with
      | .error fault => .error fault
      | .ok .block =>
          match loadNodesOf members with
          | .error fault => .error fault
          | .ok children => .ok (.block children (Origin.ofMembers members))
      | .ok .tag =>
          match lookup? "name" members with
          | none => .error (.nameless "Tag" members)
          | some name =>
              match Attr.loadAll (lookup? "attrs" members) with
              | .error fault => .error fault
              | .ok attrs =>
                  match loadBlockOf members with
                  | .error fault => .error fault
                  | .ok (children, blockOrigin) =>
                      let origin := Origin.ofMembers members
                      .ok (.tag { name, attrs, origin, blockOrigin } children)
      | .ok .text =>
          .ok (.text ((lookup? "val" members).getD (.str "")) (Origin.ofMembers members))
  | other => .error (notObject other)

def loadItems : List Json → Except Fault (List Node)
  | [] => .ok []
  | item :: items =>
      match load item with
      | .error fault => .error fault
      | .ok node =>
          match loadItems items with
          | .error fault => .error fault
          | .ok nodes => .ok (node :: nodes)

def loadNodes : Json → Except Fault (List Node)
  | .arr items => loadItems items
  | other => loadNone other

def loadNodesOf : List (Text × Json) → Except Fault (List Node)
  | [] => .ok []
  | (key, value) :: members => if key = "nodes" then loadNodes value else loadNodesOf members

def loadBlock : Json → Except Fault (List Node × Origin)
  | .obj members =>
      match loadNodesOf members with
      | .error fault => .error fault
      | .ok children => .ok (children, Origin.ofMembers members)
  | other => if other.isPresent then .error (.mismatch .blockWanted) else .ok ([], {})

def loadBlockOf : List (Text × Json) → Except Fault (List Node × Origin)
  | [] => .ok ([], {})
  | (key, value) :: members => if key = "block" then loadBlock value else loadBlockOf members

end

def ofJson (value : Json) : Except Fault Node :=
  match load value with
  | .error fault => .error fault
  | .ok (.block children origin) => .ok (.block children origin)
  | .ok root => .error (.complain (.malformedTree root.kind none) root.place)

def ofText (text : Text) : Except Fault Node :=
  match Json.read text with
  | .error cause => .error (.notJson cause)
  | .ok value => ofJson value

/-- Loads a tree from a value, in which a string is JSON text. -/
def ofSource : Json → Except Fault Node
  | .str written => ofText written
  | value => ofJson value

end Node

end TemplateJsx
