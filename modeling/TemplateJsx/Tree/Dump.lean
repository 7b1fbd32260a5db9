import TemplateJsx.Diagnostic.Fault
import TemplateJsx.Json.Printer
import TemplateJsx.Tree.Basic

/-!
# Trees as JSON

The JSON of a tree has the members that loading reads, except the origins.
-/

set_option autoImplicit false

namespace TemplateJsx

def Attr.toJson (attr : Attr) : Json := .obj [("name", attr.name), ("val", attr.value)]

namespace Node

def blockJson (nodes : List Json) : Json := .obj [("type", .str "Block"), ("nodes", .arr nodes)]

def tagJson (opening : Opening) (nodes : List Json) : Json :=
  .obj [("type", .str "Tag"), ("name", opening.name),
    ("attrs", .arr (opening.attrs.map Attr.toJson)), ("block", blockJson nodes)]

def textJson (value : Json) : Json := .obj [("type", .str "Text"), ("val", value)]

mutual

def toJson : Node → Except Fault Json
  | .block children _ =>
      match toJsonList children with
      | .error fault => .error fault
      | .ok nodes => .ok (blockJson nodes)
  | .tag opening children =>
      match toJsonList children with
      | .error fault => .error fault
      | .ok nodes => .ok (tagJson opening nodes)
  | .text value _ => .ok (textJson value)
  | .foreign content =>
      .error (.complain (.malformedTree content.kind none) content.place)

def toJsonList : List Node → Except Fault (List Json)
  | [] => .ok []
  | node :: nodes =>
      match toJson node with
      | .error fault => .error fault
      | .ok value =>
          match toJsonList nodes with
          | .error fault => .error fault
          | .ok values => .ok (value :: values)

end

def dump (layout : Json.Layout) (node : Node) : Except Fault Text :=
  match node.toJson with
  | .error fault => .error fault
  | .ok value => .ok (value.print layout)

end Node

end TemplateJsx
