import Mathlib.Data.List.Basic
import TemplateJsx.Proofs.FirstFault
import TemplateJsx.Proofs.LoadProperties

/-!
# Faults of a source

Everything that is wrong with a value as the source of a tree, in the order in which loading comes to
it. Each fault is either a complaint that the tree is malformed or a mismatch.
-/

set_option autoImplicit false

namespace TemplateJsx

open Json (lookup?)

def itemFaults (faults : Json → List Fault) : Option Json → List Fault
  | none => []
  | some value =>
      match value.items? with
      | none => [.mismatch .itemsWanted]
      | some items => items.flatMap faults

namespace Json

def attrFaults : Json → List Fault
  | .obj members => if (lookup? "name" members).isSome then [] else [.nameless "Attr" members]
  | other => [.complain (.malformedTree other.kind (some "attribute must be an object")) .null]

mutual

/-- The faults of a value where a node is wanted. -/
def nodeFaults : Json → List Fault
  | .obj members =>
      match Node.Variety.ofMembers members with
      | .error fault => [fault]
      | .ok .block => nodesFaults members
      | .ok .tag =>
          (if (lookup? "name" members).isSome then [] else [.nameless "Tag" members]) ++
            (itemFaults attrFaults (lookup? "attrs" members) ++
              match _held : lookup? "block" members with
              | none => []
              | some (.obj inner) => nodesFaults inner
              | some other => if other.isPresent then [.mismatch .blockWanted] else [])
      | .ok .text => []
  | other => [Node.notObject other]
termination_by value => (sizeOf value, 1)
decreasing_by
  · exact .right _ (by decide)
  · exact .left _ _ (sizeOf_lt_of_lookup? ‹_›)

def nodesFaults (members : List (Text × Json)) : List Fault :=
  match _held : lookup? "nodes" members with
  | some (.arr items) => items.attach.flatMap fun item => item.1.nodeFaults
  | other => itemFaults (fun item => [Node.notObject item]) other
termination_by (sizeOf (Json.obj members), 0)
decreasing_by
  exact .left _ _ (Nat.lt_trans (sizeOf_lt_of_mem item.2) (sizeOf_lt_of_lookup? ‹_›))

end

def blockFaults : Option Json → List Fault
  | none => []
  | some (.obj members) => itemFaults nodeFaults (lookup? "nodes" members)
  | some other => if other.isPresent then [.mismatch .blockWanted] else []

private theorem nodeFaults_other {value : Json} (other : ∀ members, value ≠ .obj members) :
    value.nodeFaults = [Node.notObject value] := by
  rw [nodeFaults]
  exact other

/-- Items are parts of the value that they are taken from, or texts. -/
private theorem smaller_or_text_of_items? {value item : Json} {items : List Json}
    (held : value.items? = some items) (member : item ∈ items) :
    (∃ items, value = .arr items ∧ sizeOf item < sizeOf value) ∨ item.IsText := by
  cases value with
  | arr items =>
      cases held
      exact .inl ⟨items, rfl, sizeOf_lt_of_mem member⟩
  | str text =>
      cases held
      obtain ⟨c, _, rfl⟩ := List.mem_map.mp member
      exact .inr ⟨_, rfl⟩
  | obj members =>
      cases held
      obtain ⟨other, _, rfl⟩ := List.mem_map.mp member
      exact .inr ⟨_, rfl⟩
  | _ => cases held

/-- What holds of texts and of all that is smaller than an object holds of the items of its nodes. -/
private theorem forall_items_of_nodes {holds : Json → Prop} (texts : ∀ text, holds (.str text))
    {members : List (Text × Json)}
    (inside : ∀ item, sizeOf item < sizeOf (Json.obj members) → holds item) :
    ∀ value items, lookup? "nodes" members = some value → value.items? = some items →
      ∀ item ∈ items, holds item := by
  intro value items held listed item member
  rcases smaller_or_text_of_items? listed member with ⟨_, _, smaller⟩ | ⟨text, rfl⟩
  · exact inside item (Nat.lt_trans smaller (sizeOf_lt_of_lookup? held))
  · exact texts text

private theorem nodesFaults_eq (members : List (Text × Json)) :
    nodesFaults members = itemFaults nodeFaults (lookup? "nodes" members) := by
  rw [nodesFaults]
  split
  · next items held =>
      rw [held]
      simp [itemFaults, items?, List.flatMap_subtype]
  · next notArray =>
      cases held : lookup? "nodes" members with
      | none => rfl
      | some value =>
          simp only [itemFaults]
          cases listed : value.items? with
          | none => rfl
          | some items =>
              refine List.flatMap_congr fun item member => ?_
              rcases smaller_or_text_of_items? listed member with ⟨inside, rfl, _⟩ | ⟨text, rfl⟩
              · exact absurd held (notArray inside)
              · have other : ∀ members, Json.str text ≠ .obj members := nofun
                rw [nodeFaults_other other]

section Objects

variable {members : List (Text × Json)}

private theorem nodeFaults_of_untold {fault : Fault}
    (untold : Node.Variety.ofMembers members = .error fault) :
    (Json.obj members).nodeFaults = [fault] := by
  rw [nodeFaults, untold]

private theorem nodeFaults_of_block (told : Node.Variety.ofMembers members = .ok .block) :
    (Json.obj members).nodeFaults = itemFaults nodeFaults (lookup? "nodes" members) := by
  rw [nodeFaults, told, nodesFaults_eq]

private theorem nodeFaults_of_tag (told : Node.Variety.ofMembers members = .ok .tag) :
    (Json.obj members).nodeFaults =
      (if (lookup? "name" members).isSome then [] else [.nameless "Tag" members]) ++
        (itemFaults attrFaults (lookup? "attrs" members) ++
          blockFaults (lookup? "block" members)) := by
  rw [nodeFaults, told]
  dsimp only
  congr 2
  split
  · next held => rw [held]; rfl
  · next inner held => rw [held, nodesFaults_eq]; rfl
  · next other notObject held =>
      rw [held]
      cases other with
      | obj inner => exact absurd rfl (notObject inner)
      | _ => rfl

private theorem nodeFaults_of_text (told : Node.Variety.ofMembers members = .ok .text) :
    (Json.obj members).nodeFaults = [] := by
  rw [nodeFaults, told]

end Objects

end Json

/-! ## Loading -/

private theorem loadEach_stops {α : Type} {step : Json → Except Fault α}
    {faults : Json → List Fault} {held : Option Json}
    (stops : ∀ value items, held = some value → value.items? = some items →
      ∀ item ∈ items, StopsAt (step item) (faults item)) :
    StopsAt (loadEach step held) (itemFaults faults held) := by
  cases held with
  | none => exact .ok []
  | some value =>
      simp only [loadEach, itemFaults]
      cases listed : value.items? with
      | none => rfl
      | some items => exact .mapM (stops value items rfl listed)

private theorem Attr.load_stops (value : Json) : StopsAt (Attr.load value) value.attrFaults := by
  cases value with
  | obj members =>
      rw [Attr.load, Json.attrFaults]
      cases lookup? "name" members with
      | none => rfl
      | some name => exact ⟨_, rfl⟩
  | _ => rfl

namespace Node

section Inside

variable {members : List (Text × Json)}
    (inside : ∀ item, sizeOf item < sizeOf (Json.obj members) → StopsAt (load item) item.nodeFaults)
include inside

private theorem loadEach_nodes_stops :
    StopsAt (loadEach load (lookup? "nodes" members))
      (itemFaults Json.nodeFaults (lookup? "nodes" members)) := by
  apply loadEach_stops
  refine Json.forall_items_of_nodes (fun text => ?_) inside
  have other : ∀ members, Json.str text ≠ .obj members := nofun
  rw [load_other other, Json.nodeFaults_other other]
  rfl

private theorem loadBlockOf_stops :
    StopsAt (loadBlockOf members) (Json.blockFaults (lookup? "block" members)) := by
  cases held : lookup? "block" members with
  | none =>
      rw [loadBlockOf_of_absent held]
      exact .ok _
  | some value =>
      rw [loadBlockOf_of_held held]
      by_cases object : ∃ inner, value = .obj inner
      · obtain ⟨inner, rfl⟩ := object
        rw [loadBlock_obj]
        apply StopsAt.map
        · exact loadEach_nodes_stops fun item smaller =>
            inside item (Nat.lt_trans smaller (Json.sizeOf_lt_of_lookup? held))
        · exact fun children => ⟨_, rfl⟩
      · have other : ∀ inner, value ≠ .obj inner := fun inner same => object ⟨inner, same⟩
        have faults : Json.blockFaults (some value) =
            if value.isPresent then [.mismatch .blockWanted] else [] := by
          rw [Json.blockFaults]
          exact other
        rw [loadBlock_other other, faults]
        split
        · rfl
        · exact .ok _

private theorem load_obj_stops :
    StopsAt (load (.obj members)) (Json.obj members).nodeFaults := by
  cases told : Variety.ofMembers members with
  | error fault =>
      rw [load_of_untold told, Json.nodeFaults_of_untold told]
      rfl
  | ok variety =>
      cases variety with
      | block =>
          rw [load_of_block told, Json.nodeFaults_of_block told]
          exact (loadEach_nodes_stops inside).map fun children => ⟨_, rfl⟩
      | tag =>
          rw [Json.nodeFaults_of_tag told]
          cases named : lookup? "name" members with
          | none =>
              rw [load_of_nameless told named]
              rfl
          | some name =>
              rw [load_of_tag told named, Option.isSome_some, if_pos rfl, List.nil_append]
              apply (loadEach_stops fun _ _ _ _ item _ => Attr.load_stops item).bind
              intro attrs _
              exact (loadBlockOf_stops inside).map fun block => ⟨_, rfl⟩
      | text =>
          rw [load_of_text told, Json.nodeFaults_of_text told]
          exact .ok _

end Inside

private theorem load_stops (value : Json) : StopsAt (load value) value.nodeFaults := by
  -- As the nodes of a tag stand in its block, only the size of the value gets smaller at each step.
  induction size : sizeOf value using Nat.strongRecOn generalizing value with
  | ind _ ih =>
      by_cases object : ∃ members, value = .obj members
      · obtain ⟨members, rfl⟩ := object
        refine load_obj_stops fun item smaller => ?_
        exact ih _ (by rwa [← size]) item rfl
      · have other : ∀ members, value ≠ .obj members := fun members same => object ⟨members, same⟩
        rw [load_other other, Json.nodeFaults_other other]
        rfl

end Node

/-! ## Roots -/

def Json.rootFaults : Json → List Fault
  | .obj members =>
      let type := (lookup? "type" members).getD .null
      if type = .str "Block" then []
      else [.complain (.malformedTree type.display none) (Origin.ofMembers members).place]
  | _ => []

def Json.treeFaults (value : Json) : List Fault := value.nodeFaults ++ value.rootFaults

namespace Node

private theorem place_of_load {members : List (Text × Json)} {node : Node}
    (loaded : load (.obj members) = .ok node) : node.place = (Origin.ofMembers members).place := by
  cases told : Variety.ofMembers members with
  | error fault =>
      rw [load_of_untold told] at loaded
      cases loaded
  | ok variety =>
      cases variety with
      | block =>
          rw [load_of_block told] at loaded
          obtain ⟨children, _, made⟩ := bind_eq_ok loaded
          cases made
          rfl
      | tag =>
          cases named : lookup? "name" members with
          | none =>
              rw [load_of_nameless told named] at loaded
              cases loaded
          | some name =>
              rw [load_of_tag told named] at loaded
              obtain ⟨attrs, _, loaded⟩ := bind_eq_ok loaded
              obtain ⟨block, _, made⟩ := bind_eq_ok loaded
              cases made
              rfl
      | text =>
          rw [load_of_text told] at loaded
          cases loaded
          rfl

def asRoot (node : Node) : Except Fault Node :=
  if node.kind = "Block" then .ok node
  else .error (.complain (.malformedTree node.kind none) node.place)

private theorem ofJson_eq_bind (value : Json) : ofJson value = load value >>= asRoot := by
  unfold ofJson
  cases loaded : load value with
  | error fault => rfl
  | ok node =>
      cases node with
      | foreign content => nomatch native_of_load loaded
      | _ => rfl

theorem ofJson_stops (value : Json) : StopsAt (ofJson value) value.treeFaults := by
  rw [ofJson_eq_bind]
  apply (load_stops value).bind
  intro node loaded
  obtain ⟨members, rfl, type, _⟩ := load_eq_ok loaded
  rw [asRoot, Json.rootFaults, type, place_of_load loaded]
  by_cases block : node.kind = "Block"
  · simp only [block, Option.getD_some, if_true]
    exact .ok node
  · simp only [block, Option.getD_some, Json.str.injEq, if_false, Json.display_str]
    rfl

end Node

/-! ## Kinds of faults -/

inductive Fault.OfLoading : Fault → Prop where
  | malformed {kind : Text} {reason : Option Text} {place : Json} :
      OfLoading (.complain (.malformedTree kind reason) place)
  | mismatch {cause : Mismatch} : OfLoading (.mismatch cause)

section Kinds

private theorem ofLoading_of_itemFaults {faults : Json → List Fault} {held : Option Json}
    (each : ∀ value items, held = some value → value.items? = some items →
      ∀ item ∈ items, ∀ fault ∈ faults item, fault.OfLoading) :
    ∀ fault ∈ itemFaults faults held, fault.OfLoading := by
  cases held with
  | none => nofun
  | some value =>
      simp only [itemFaults]
      cases listed : value.items? with
      | none => exact List.forall_mem_singleton.mpr .mismatch
      | some items =>
          intro fault among
          obtain ⟨item, member, here⟩ := List.mem_flatMap.mp among
          exact each value items rfl listed item member fault here

private theorem ofLoading_of_attrFaults (value : Json) :
    ∀ fault ∈ value.attrFaults, fault.OfLoading := by
  cases value with
  | obj members =>
      rw [Json.attrFaults]
      split
      · nofun
      · exact List.forall_mem_singleton.mpr .malformed
  | _ => exact List.forall_mem_singleton.mpr .malformed

private theorem ofLoading_of_variety {members : List (Text × Json)} {fault : Fault}
    (untold : Node.Variety.ofMembers members = .error fault) : fault.OfLoading := by
  have unknown (value : Json) : (Node.unknownType value members).OfLoading := .malformed
  unfold Node.Variety.ofMembers at untold
  split at untold
  · split at untold <;> cases untold
    exact unknown _
  · cases untold
    exact .mismatch
  · cases untold
    exact .mismatch
  · cases untold
    exact unknown _

section Inside

variable {members : List (Text × Json)}
    (inside : ∀ item : Json, sizeOf item < sizeOf (Json.obj members) →
      ∀ fault ∈ item.nodeFaults, fault.OfLoading)
include inside

private theorem ofLoading_of_nodes :
    ∀ fault ∈ itemFaults Json.nodeFaults (lookup? "nodes" members), fault.OfLoading := by
  apply ofLoading_of_itemFaults
  refine Json.forall_items_of_nodes (fun text => ?_) inside
  have other : ∀ members, Json.str text ≠ .obj members := nofun
  rw [Json.nodeFaults_other other]
  exact List.forall_mem_singleton.mpr .malformed

private theorem ofLoading_of_blockFaults :
    ∀ fault ∈ Json.blockFaults (lookup? "block" members), fault.OfLoading := by
  cases held : lookup? "block" members with
  | none => nofun
  | some value =>
      unfold Json.blockFaults
      split
      · nofun
      · next inner same =>
          cases same
          exact ofLoading_of_nodes fun item smaller =>
            inside item (Nat.lt_trans smaller (Json.sizeOf_lt_of_lookup? held))
      · split
        · exact List.forall_mem_singleton.mpr .mismatch
        · nofun

private theorem ofLoading_of_object : ∀ fault ∈ (Json.obj members).nodeFaults, fault.OfLoading := by
  cases told : Node.Variety.ofMembers members with
  | error fault =>
      rw [Json.nodeFaults_of_untold told]
      exact List.forall_mem_singleton.mpr (ofLoading_of_variety told)
  | ok variety =>
      cases variety with
      | block =>
          rw [Json.nodeFaults_of_block told]
          exact ofLoading_of_nodes inside
      | tag =>
          rw [Json.nodeFaults_of_tag told]
          simp only [List.forall_mem_append]
          refine ⟨?_, ofLoading_of_itemFaults fun _ _ _ _ item _ => ofLoading_of_attrFaults item,
            ofLoading_of_blockFaults inside⟩
          split
          · nofun
          · exact List.forall_mem_singleton.mpr .malformed
      | text =>
          rw [Json.nodeFaults_of_text told]
          nofun

end Inside

private theorem ofLoading_of_nodeFaults (value : Json) :
    ∀ fault ∈ value.nodeFaults, fault.OfLoading := by
  induction size : sizeOf value using Nat.strongRecOn generalizing value with
  | ind _ ih =>
      by_cases object : ∃ members, value = .obj members
      · obtain ⟨members, rfl⟩ := object
        refine ofLoading_of_object fun item smaller => ?_
        exact ih _ (by rwa [← size]) item rfl
      · have other : ∀ members, value ≠ .obj members := fun members same => object ⟨members, same⟩
        rw [Json.nodeFaults_other other]
        exact List.forall_mem_singleton.mpr .malformed

/-- A tree that does not load is malformed, or it holds a value of a kind that loading cannot use. -/
theorem ofLoading_of_treeFaults (value : Json) : ∀ fault ∈ value.treeFaults, fault.OfLoading := by
  refine List.forall_mem_append.mpr ⟨ofLoading_of_nodeFaults value, ?_⟩
  cases value with
  | obj members =>
      simp only [Json.rootFaults]
      split
      · nofun
      · exact List.forall_mem_singleton.mpr .malformed
  | _ => nofun

theorem Node.ofLoading_of_ofJson {value : Json} {fault : Fault}
    (failed : Node.ofJson value = .error fault) : fault.OfLoading :=
  ofLoading_of_treeFaults value fault
    (List.mem_of_mem_head? ((Node.ofJson_stops value).error_iff.mp failed))

end Kinds

end TemplateJsx
