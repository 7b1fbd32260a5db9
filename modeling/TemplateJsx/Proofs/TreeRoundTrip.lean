import TemplateJsx.Proofs.JsonRoundTrip
import TemplateJsx.Proofs.WrittenTree
import TemplateJsx.Tree.Dump
import TemplateJsx.Tree.Load

/-!
# Dumped trees load again

The JSON of a tree loads as the tree itself, except that nothing in it remembers where it was written.
Together with the reading of printed values this gives the way from a tree to its text and back.
-/

set_option autoImplicit false

namespace TemplateJsx

open Json (lookup? Exact)

/-! ## Trees without origins -/

def Attr.unplaced (attr : Attr) : Attr := { attr with origin := {} }

def Opening.unplaced (opening : Opening) : Opening :=
  { name := opening.name, attrs := opening.attrs.map Attr.unplaced }

namespace Node

mutual

/-- The tree without the origins in it. Foreign content is left alone. -/
def unplaced : Node → Node
  | .block children _ => .block (unplacedList children) {}
  | .tag opening children => .tag opening.unplaced (unplacedList children)
  | .text value _ => .text value {}
  | .foreign content => .foreign content

def unplacedList : List Node → List Node
  | [] => []
  | node :: nodes => node.unplaced :: unplacedList nodes

end

end Node

structure Opening.Exact (opening : Opening) : Prop where
  name : opening.name.Exact
  attrs : ∀ attr ∈ opening.attrs, attr.name.Exact ∧ attr.value.Exact

abbrev Node.Exact : Node → Prop := Node.BuiltFrom Opening.Exact Json.Exact fun _ => False

/-! ## Attributes -/

private theorem Attr.exact_toJson {attr : Attr} (exact : attr.name.Exact ∧ attr.value.Exact) :
    attr.toJson.Exact := by
  refine .obj (show (["name", "val"] : List Text).Nodup by decide) ?_ ?_
  all_goals simp only [List.forall_mem_cons]
  · exact ⟨rfl, rfl, nofun⟩
  · exact ⟨exact.1, exact.2, nofun⟩

private theorem Attr.load_toJson (attr : Attr) : Attr.load attr.toJson = .ok attr.unplaced := rfl

private theorem Attr.loadAll_toJson (attrs : List Attr) :
    Attr.loadAll (some (.arr (attrs.map Attr.toJson))) = .ok (attrs.map Attr.unplaced) := by
  change (attrs.map Attr.toJson).mapM Attr.load = _
  induction attrs with
  | nil => rfl
  | cons attr attrs ih =>
      simp only [List.map_cons, List.mapM_cons, load_toJson, ih, bind, Except.bind, pure,
        Except.pure]

/-! ## Nodes -/

namespace Node

/-- A node whose JSON is exact and loads as the node without its origins. -/
def Reloads (node : Node) : Prop :=
  ∃ value, node.toJson = .ok value ∧ value.Exact ∧ load value = .ok node.unplaced

private theorem reloads_list {nodes : List Node} (each : ∀ node ∈ nodes, node.Reloads) :
    ∃ values, toJsonList nodes = .ok values ∧ (∀ value ∈ values, value.Exact) ∧
      loadItems values = .ok (unplacedList nodes) := by
  induction nodes with
  | nil => exact ⟨[], rfl, nofun, rfl⟩
  | cons node nodes ih =>
      obtain ⟨value, written, exact, loaded⟩ := each node (List.mem_cons_self ..)
      obtain ⟨values, allWritten, allExact, allLoaded⟩ :=
        ih fun node member => each node (List.mem_cons_of_mem _ member)
      refine ⟨value :: values, ?_, List.forall_mem_cons.mpr ⟨exact, allExact⟩, ?_⟩
      · rw [toJsonList, written, allWritten]
      · rw [loadItems, loaded, allLoaded, unplacedList]

private theorem exact_blockJson {nodes : List Json} (exact : ∀ node ∈ nodes, node.Exact) :
    (blockJson nodes).Exact := by
  refine .obj (show (["type", "nodes"] : List Text).Nodup by decide) ?_ ?_
  all_goals simp only [List.forall_mem_cons]
  · exact ⟨rfl, rfl, nofun⟩
  · exact ⟨.str rfl, .arr exact, nofun⟩

private theorem exact_tagJson {opening : Opening} (exact : opening.Exact) {nodes : List Json}
    (exactNodes : ∀ node ∈ nodes, node.Exact) : (tagJson opening nodes).Exact := by
  have exactAttrs : ∀ value ∈ opening.attrs.map Attr.toJson, value.Exact := by
    intro value member
    obtain ⟨attr, within, rfl⟩ := List.mem_map.mp member
    exact Attr.exact_toJson (exact.attrs attr within)
  refine .obj (show (["type", "name", "attrs", "block"] : List Text).Nodup by decide) ?_ ?_
  all_goals simp only [List.forall_mem_cons]
  · exact ⟨rfl, rfl, rfl, rfl, nofun⟩
  · exact ⟨.str rfl, exact.name, .arr exactAttrs, exact_blockJson exactNodes, nofun⟩

private theorem exact_textJson {value : Json} (exact : value.Exact) : (textJson value).Exact := by
  refine .obj (show (["type", "val"] : List Text).Nodup by decide) ?_ ?_
  all_goals simp only [List.forall_mem_cons]
  · exact ⟨rfl, rfl, nofun⟩
  · exact ⟨.str rfl, exact, nofun⟩

private theorem loadNodesOf_blockJson (nodes : List Json) :
    loadNodesOf [("type", .str "Block"), ("nodes", .arr nodes)] = loadItems nodes := by
  rw [loadNodesOf, if_neg (by decide), loadNodesOf, if_pos rfl, loadNodes]

private theorem load_blockJson {nodes : List Json} {children : List Node}
    (loaded : loadItems nodes = .ok children) :
    load (blockJson nodes) = .ok (.block children {}) := by
  have variety : Variety.ofMembers [("type", .str "Block"), ("nodes", .arr nodes)] = .ok .block :=
    rfl
  rw [blockJson, load, variety]
  simp only [loadNodesOf_blockJson, loaded]
  rfl

private theorem loadBlock_blockJson {nodes : List Json} {children : List Node}
    (loaded : loadItems nodes = .ok children) :
    loadBlock (blockJson nodes) = .ok (children, {}) := by
  rw [blockJson, loadBlock]
  simp only [loadNodesOf_blockJson, loaded]
  rfl

private theorem load_tagJson (opening : Opening) {nodes : List Json} {children : List Node}
    (loaded : loadItems nodes = .ok children) :
    load (tagJson opening nodes) = .ok (.tag opening.unplaced children) := by
  let members : List (Text × Json) :=
    [("type", .str "Tag"), ("name", opening.name),
      ("attrs", .arr (opening.attrs.map Attr.toJson)), ("block", blockJson nodes)]
  have variety : Variety.ofMembers members = .ok .tag := rfl
  have name : lookup? "name" members = some opening.name := rfl
  have attrs : Attr.loadAll (lookup? "attrs" members) = .ok (opening.attrs.map Attr.unplaced) :=
    Attr.loadAll_toJson opening.attrs
  have block : loadBlockOf members = .ok (children, {}) := by
    rw [loadBlockOf, if_neg (by decide), loadBlockOf, if_neg (by decide), loadBlockOf,
      if_neg (by decide), loadBlockOf, if_pos rfl, loadBlock_blockJson loaded]
  change load (.obj members) = _
  rw [load, variety]
  simp only [name, attrs, block]
  rfl

theorem reloads_of_exact {node : Node} (exact : node.Exact) : node.Reloads := by
  induction exact with
  | block _ ih =>
      obtain ⟨values, written, exact, loaded⟩ := reloads_list ih
      refine ⟨blockJson values, ?_, exact_blockJson exact, ?_⟩
      · rw [toJson, written]
      · rw [load_blockJson loaded, unplaced]
  | tag exactOpening _ ih =>
      obtain ⟨values, written, exact, loaded⟩ := reloads_list ih
      refine ⟨tagJson _ values, ?_, exact_tagJson exactOpening exact, ?_⟩
      · rw [toJson, written]
      · rw [load_tagJson _ loaded, unplaced]
  | text exactValue =>
      refine ⟨textJson _, by rw [toJson], exact_textJson exactValue, ?_⟩
      rw [unplaced]
      rfl
  | foreign impossible => exact impossible.elim

theorem ofJson_toJson {children : List Node} {origin : Origin}
    (exact : (Node.block children origin).Exact) :
    ∃ value, (Node.block children origin).toJson = .ok value ∧ value.Exact ∧
      ofJson value = .ok (Node.block children origin).unplaced := by
  obtain ⟨value, written, exactValue, loaded⟩ := reloads_of_exact exact
  refine ⟨value, written, exactValue, ?_⟩
  rw [ofJson, loaded, unplaced]

end Node

/-! ## Text -/

inductive Json.Layout.Indented : Json.Layout → Prop where
  | unbroken : Indented .oneLine
  | width (width : Int) : Indented (.blanks width)
  | text {indent : Text} : (∀ c ∈ indent.toList, Json.isBlank c = true) → Indented (.lines indent)

private theorem Json.Layout.Indented.blank {layout : Json.Layout} (indented : layout.Indented) :
    layout.Blank := by
  cases indented with
  | unbroken => trivial
  | width width =>
      intro c member
      rw [Text.toList_ofList] at member
      obtain ⟨_, rfl⟩ := List.mem_replicate.mp member
      rfl
  | text blanks => exact blanks

/-- A tree of exact values comes back from its own text, whatever the layout, with every origin
forgotten and nothing else changed. -/
theorem Node.ofSource_dump {layout : Json.Layout} (indented : layout.Indented)
    {children : List Node} {origin : Origin} (exact : (Node.block children origin).Exact) :
    ∃ text, (Node.block children origin).dump layout = .ok text ∧
      Node.ofSource (.str text) = .ok (Node.block children origin).unplaced := by
  obtain ⟨value, written, exactValue, loaded⟩ := ofJson_toJson exact
  refine ⟨value.print layout, by rw [dump, written], ?_⟩
  rw [ofSource, ofText, Json.read_print indented.blank exactValue]
  exact loaded

theorem Node.ofSource_dump_keyed_attribute :
    ∃ text,
      (Node.block [.tag
          { name := .str "p"
            attrs := [{ name := .str "data"
                        value := .obj [("\x22\\", .arr [.int (-7), .null]), ("", .obj [])]
                        origin := { line := .int 2 } }]
            origin := { line := .int 2, column := .int 4 } }
          [.text (.str "\n\x7f😀") { filename := .str "page" }, .block [] {}]]
        { line := .int 1 }).dump (.blanks (-3)) = .ok text ∧
      Node.ofSource (.str text) = .ok (.block [.tag
          { name := .str "p"
            attrs := [{ name := .str "data"
                        value := .obj [("\x22\\", .arr [.int (-7), .null]), ("", .obj [])] }] }
          [.text (.str "\n\x7f😀") {}, .block [] {}]] {}) := by
  refine Node.ofSource_dump (.width (-3)) (.block ?_)
  simp only [List.forall_mem_singleton]
  refine .tag ⟨.ofString "p", ?_⟩ ?_
  · simp only [List.forall_mem_singleton]
    refine ⟨.ofString "data", .obj (by decide) (by decide) ?_⟩
    simp only [List.forall_mem_cons]
    refine ⟨.arr ?_, .obj .nil nofun nofun, nofun⟩
    simp only [List.forall_mem_cons]
    exact ⟨.int, .null, nofun⟩
  · simp only [List.forall_mem_cons]
    exact ⟨.text (.ofString _), .block nofun, nofun⟩

end TemplateJsx
