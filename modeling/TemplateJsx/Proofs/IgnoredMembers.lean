import Mathlib.Data.List.Forall2
import TemplateJsx.Proofs.NodeTypes

/-!
# Members that are ignored

Two sources that differ only in members that loading does not read come to the same: the same tree with
the same origins, or the same fault with the same wording and place. Which members are read depends on
what an object is taken for: a node of one of the three types, a node of a foreign type, an attribute
or the block of a tag.
-/

set_option autoImplicit false

namespace TemplateJsx

open Json (lookup?)

namespace Json

/-! ## Sources that differ in nothing that is read -/

/-- The members of two objects say the same under these keys. Under any other key they are free, and
so is their order. -/
def AgreeOn (keys : List Text) (members members' : List (Text × Json)) : Prop :=
  ∀ key ∈ keys, lookup? key members = lookup? key members'

instance (keys : List Text) (members members' : List (Text × Json)) :
    Decidable (AgreeOn keys members members') :=
  inferInstanceAs (Decidable (∀ key ∈ keys, lookup? key members = lookup? key members'))

def originKeys : List Text := ["line", "column", "filename"]

inductive AttrAlike : Json → Json → Prop where
  | same {value : Json} : AttrAlike value value
  | object {members members' : List (Text × Json)} :
      AgreeOn ("name" :: "val" :: originKeys) members members' →
      AttrAlike (.obj members) (.obj members')

inductive ItemsAlike (alike : Json → Json → Prop) : Option Json → Option Json → Prop where
  | same {held : Option Json} : ItemsAlike alike held held
  | items {items items' : List Json} :
      List.Forall₂ alike items items' → ItemsAlike alike (some (.arr items)) (some (.arr items'))

/-- What two members hold where the block of a tag is wanted. The type of a block is not read there. -/
inductive BlockAlike (alike : Json → Json → Prop) : Option Json → Option Json → Prop where
  | same {held : Option Json} : BlockAlike alike held held
  | object {members members' : List (Text × Json)} :
      AgreeOn originKeys members members' →
      ItemsAlike alike (lookup? "nodes" members) (lookup? "nodes" members') →
      BlockAlike alike (some (.obj members)) (some (.obj members'))

/-- Two values where a node is wanted. Of a foreign node only its type and its origin are read. -/
inductive NodeAlike : Json → Json → Prop where
  | same {value : Json} : NodeAlike value value
  | block {members members' : List (Text × Json)} :
      lookup? "type" members = some (.str "Block") →
      AgreeOn ("type" :: originKeys) members members' →
      ItemsAlike NodeAlike (lookup? "nodes" members) (lookup? "nodes" members') →
      NodeAlike (.obj members) (.obj members')
  | tag {members members' : List (Text × Json)} :
      lookup? "type" members = some (.str "Tag") →
      AgreeOn ("type" :: "name" :: originKeys) members members' →
      ItemsAlike AttrAlike (lookup? "attrs" members) (lookup? "attrs" members') →
      BlockAlike NodeAlike (lookup? "block" members) (lookup? "block" members') →
      NodeAlike (.obj members) (.obj members')
  | text {members members' : List (Text × Json)} :
      lookup? "type" members = some (.str "Text") →
      AgreeOn ("type" :: "val" :: originKeys) members members' →
      NodeAlike (.obj members) (.obj members')
  | foreign {members members' : List (Text × Json)} :
      TellsNoType members → AgreeOn ("type" :: originKeys) members members' →
      NodeAlike (.obj members) (.obj members')

section Agreement

variable {members members' : List (Text × Json)}

private theorem AgreeOn.mono {keys fewer : List Text} (agree : AgreeOn keys members members')
    (among : fewer ⊆ keys) : AgreeOn fewer members members' :=
  fun key member => agree key (among member)

private theorem AgreeOn.origin (agree : AgreeOn originKeys members members') :
    Origin.ofMembers members = Origin.ofMembers members' := by
  have line := agree "line" (by decide)
  have column := agree "column" (by decide)
  have filename := agree "filename" (by decide)
  simp only [Origin.ofMembers, line, column, filename]

/-- The type of a node is read with its origin, which a complaint about the type names. -/
private theorem AgreeOn.variety (agree : AgreeOn ("type" :: originKeys) members members') :
    Node.Variety.ofMembers members = Node.Variety.ofMembers members' := by
  have type := agree "type" List.mem_cons_self
  have origin := (agree.mono (List.subset_cons_self (Text.ofString "type") originKeys)).origin
  simp only [Node.Variety.ofMembers, Node.unknownType, type, origin]

end Agreement

end Json

/-! ## Items and attributes -/

private theorem loadEach_eq_of_alike {α : Type} {step : Json → Except Fault α}
    {alike : Json → Json → Prop} {held held' : Option Json}
    (each : ∀ items, held = some (.arr items) →
      ∀ item ∈ items, ∀ item', alike item item' → step item = step item')
    (itemsAlike : Json.ItemsAlike alike held held') : loadEach step held = loadEach step held' := by
  cases itemsAlike with
  | same => rfl
  | @items items items' paired =>
      have known := each items rfl
      change items.mapM step = items'.mapM step
      clear each
      induction paired with
      | nil => rfl
      | @cons item item' items items' here _ ih =>
          have later := ih fun item member => known item (List.mem_cons_of_mem _ member)
          rw [List.mapM_cons, List.mapM_cons, known item List.mem_cons_self item' here, later]

private theorem Attr.load_eq_of_alike {value value' : Json} (alike : value.AttrAlike value') :
    Attr.load value = Attr.load value' := by
  cases alike with
  | same => rfl
  | object agree =>
      have name := agree "name" (by decide)
      have content := agree "val" (by decide)
      have origin := (agree.mono (by decide : Json.originKeys ⊆ _)).origin
      simp only [Attr.load, Fault.nameless, name, content, origin]

/-! ## Nodes -/

namespace Node

section Inside

variable {members members' : List (Text × Json)}
  (inside : ∀ item, sizeOf item < sizeOf (Json.obj members) →
    ∀ item', item.NodeAlike item' → load item = load item')
include inside

private theorem loadEach_nodes_eq_of_alike
    (nodes : Json.ItemsAlike Json.NodeAlike (lookup? "nodes" members) (lookup? "nodes" members')) :
    loadEach load (lookup? "nodes" members) = loadEach load (lookup? "nodes" members') := by
  refine loadEach_eq_of_alike ?_ nodes
  intro items held item member
  exact inside item (Nat.lt_trans (Json.sizeOf_lt_of_mem member) (Json.sizeOf_lt_of_lookup? held))

private theorem loadBlockOf_eq_of_alike
    (block : Json.BlockAlike Json.NodeAlike (lookup? "block" members) (lookup? "block" members')) :
    loadBlockOf members = loadBlockOf members' := by
  generalize held : lookup? "block" members = content at block
  generalize held' : lookup? "block" members' = content' at block
  cases block with
  | same =>
      cases content with
      | none => rw [loadBlockOf_of_absent held, loadBlockOf_of_absent held']
      | some value => rw [loadBlockOf_of_held held, loadBlockOf_of_held held']
  | @object inner inner' origin nodes =>
      have within := Json.sizeOf_lt_of_lookup? held
      have listed := loadEach_nodes_eq_of_alike
        (fun item smaller => inside item (Nat.lt_trans smaller within)) nodes
      rw [loadBlockOf_of_held held, loadBlockOf_of_held held', loadBlock_obj, loadBlock_obj, listed,
        origin.origin]

end Inside

/-- One step of the induction: nodes are loaded alike when the nodes in them are. -/
private theorem load_eq_of_alike_inside {value value' : Json}
    (inside : ∀ item, sizeOf item < sizeOf value →
      ∀ item', item.NodeAlike item' → load item = load item')
    (alike : value.NodeAlike value') : load value = load value' := by
  cases alike with
  | same => rfl
  | @block members members' type agree nodes =>
      have told : Variety.ofMembers members = .ok .block := Variety.ofMembers_eq_ok_iff.mpr type
      have told' := agree.variety.symm.trans told
      have origin := (agree.mono (List.subset_cons_self (Text.ofString "type") Json.originKeys)).origin
      rw [load_of_block told, load_of_block told', loadEach_nodes_eq_of_alike inside nodes, origin]
  | @tag members members' type agree attrs block =>
      have told : Variety.ofMembers members = .ok .tag := Variety.ofMembers_eq_ok_iff.mpr type
      have typed := agree.mono (by decide : Text.ofString "type" :: Json.originKeys ⊆ _)
      have told' := typed.variety.symm.trans told
      have origin := (agree.mono (by decide : Json.originKeys ⊆ _)).origin
      have name := agree "name" (by decide)
      cases named : lookup? "name" members with
      | none =>
          rw [load_of_nameless told named, load_of_nameless told' (name.symm.trans named),
            Fault.nameless, Fault.nameless, origin]
      | some content =>
          have listed := loadEach_eq_of_alike
            (fun _ _ item _ item' here => Attr.load_eq_of_alike here) attrs
          rw [load_of_tag told named, load_of_tag told' (name.symm.trans named), listed,
            loadBlockOf_eq_of_alike inside block, origin]
  | @text members members' type agree =>
      have told : Variety.ofMembers members = .ok .text := Variety.ofMembers_eq_ok_iff.mpr type
      have typed := agree.mono (by decide : Text.ofString "type" :: Json.originKeys ⊆ _)
      have told' := typed.variety.symm.trans told
      have origin := (agree.mono (by decide : Json.originKeys ⊆ _)).origin
      have content := agree "val" (by decide)
      rw [load_of_text told, load_of_text told', content, origin]
  | @foreign members members' untold agree =>
      cases told : Variety.ofMembers members with
      | ok variety => exact absurd (Variety.ofMembers_eq_ok_iff.mp told) (untold variety)
      | error fault => rw [load_of_untold told, load_of_untold (agree.variety.symm.trans told)]

theorem load_eq_of_alike {value value' : Json} (alike : value.NodeAlike value') :
    load value = load value' := by
  -- The nodes of a tag stand two objects deep in it, so the induction is on the size of the value.
  induction size : sizeOf value using Nat.strongRecOn generalizing value value' with
  | ind _ ih =>
      refine load_eq_of_alike_inside ?_ alike
      intro item smaller item' here
      exact ih _ (size ▸ smaller) here rfl

private theorem ofSource_eq_of_alike {value value' : Json} (alike : value.NodeAlike value') :
    ofSource value = ofSource value' := by
  have loaded := load_eq_of_alike alike
  cases alike with
  | same => rfl
  | _ => simp only [ofSource, ofJson, loaded]

private theorem loadBlock_eq_of_agreeOn_nil {inner : List (Text × Json)}
    (silent : Json.AgreeOn ("nodes" :: Json.originKeys) inner []) :
    loadBlock (.obj inner) = .ok ([], {}) := by
  have nodes := silent "nodes" List.mem_cons_self
  have origin := (silent.mono (List.subset_cons_self (Text.ofString "nodes") Json.originKeys)).origin
  rw [loadBlock_obj, nodes, origin]
  rfl

/-- Sources that differ only in members that are not read load alike, with the same tree or the same
fault. A block of a tag that loses all its members that way stays the same empty block. -/
theorem ofSource_ignores_other_members :
    (∀ value value' : Json, value.NodeAlike value' → ofSource value = ofSource value') ∧
      ∀ inner, Json.AgreeOn ("nodes" :: Json.originKeys) inner [] →
        loadBlock (.obj inner) = .ok ([], {}) ∧ loadBlock (.obj []) = .ok ([], {}) := by
  refine ⟨fun _ _ => ofSource_eq_of_alike, ?_⟩
  intro inner silent
  exact ⟨loadBlock_eq_of_agreeOn_nil silent, loadBlock_eq_of_agreeOn_nil fun _ _ => rfl⟩

theorem ofSource_ignores_members_of_emptied_block :
    let tag : Json := .obj [("type", .str "Tag"), ("selfClosing", .bool true), ("name", .str "a"),
      ("attrs", .arr [.obj [("name", .str "b"), ("mustEscape", .bool false)]]), ("line", .int 3),
      ("block", .obj [("type", .str "Code"), ("val", .int 1)])]
    let tag' : Json := .obj [("line", .int 3), ("type", .str "Tag"), ("name", .str "a"),
      ("attrs", .arr [.obj [("mustEscape", .bool true), ("name", .str "b")]]), ("block", .obj [])]
    let document (node : Json) : Json := .obj [("type", .str "Block"), ("nodes", .arr [node])]
    let tree : Node := .block
      [.tag { name := .str "a", attrs := [{ name := .str "b" }], origin := { line := .int 3 } } []] {}
    (document tag).NodeAlike (document tag') ∧ ofSource (document tag) = .ok tree ∧
      ofSource (document tag') = .ok tree := by
  intro tag tag' document tree
  have attr : Json.AttrAlike (.obj [("name", .str "b"), ("mustEscape", .bool false)])
      (.obj [("mustEscape", .bool true), ("name", .str "b")]) := .object (by decide)
  have tags : tag.NodeAlike tag' :=
    .tag rfl (by decide) (.items (.cons attr .nil)) (.object (by decide) .same)
  have documents : (document tag).NodeAlike (document tag') :=
    .block rfl (by decide) (.items (.cons tags .nil))
  have loaded : ofSource (document tag) = .ok tree := rfl
  have same := ofSource_ignores_other_members.1 _ _ documents
  exact ⟨documents, loaded, same.symm.trans loaded⟩

end Node

end TemplateJsx
