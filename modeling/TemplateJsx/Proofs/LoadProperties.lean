import TemplateJsx.Proofs.EmissionProperties
import TemplateJsx.Tree.Dump
import TemplateJsx.Tree.Load

/-!
# Properties of loading

Loading read off the members of an object: a member is looked up, what it holds is gone through item
by item, and each item is loaded by itself. A tree that has been loaded holds nothing foreign, so it
can be written as JSON again.
-/

set_option autoImplicit false

namespace TemplateJsx

open Json (lookup?)

/-! ## Values inside a value -/

theorem Json.sizeOf_lt_of_mem {items : List Json} {item : Json} (member : item ∈ items) :
    sizeOf item < sizeOf (Json.arr items) := by
  have smaller := List.sizeOf_lt_of_mem member
  rw [Json.arr.sizeOf_spec]
  omega

theorem Json.sizeOf_lt_of_lookup? {key : Text} {members : List (Text × Json)} {value : Json}
    (found : lookup? key members = some value) : sizeOf value < sizeOf (Json.obj members) := by
  induction members with
  | nil => cases found
  | cons member members ih =>
      obtain ⟨name, other⟩ := member
      rw [lookup?] at found
      simp only [Json.obj.sizeOf_spec, List.cons.sizeOf_spec, Prod.mk.sizeOf_spec] at ih ⊢
      split at found
      · cases found
        omega
      · have smaller := ih found
        omega

/-! ## Items of a member -/

section Items

variable {α β : Type}

/-- Loads what a member holds, item by item. A member that is not there holds nothing. -/
def loadEach (step : Json → Except Fault α) : Option Json → Except Fault (List α)
  | none => .ok []
  | some value =>
      match value.items? with
      | some items => items.mapM step
      | none => .error (.mismatch .itemsWanted)

theorem mapM_isOk_iff {items : List α} {step : α → Except Fault β} :
    (∃ results, items.mapM step = .ok results) ↔ ∀ item ∈ items, ∃ result, step item = .ok result := by
  induction items with
  | nil => exact ⟨fun _ => nofun, fun _ => ⟨[], rfl⟩⟩
  | cons item items ih =>
      rw [List.forall_mem_cons, ← ih]
      constructor
      · rintro ⟨results, succeeded⟩
        rw [List.mapM_cons] at succeeded
        obtain ⟨first, here, succeeded⟩ := bind_eq_ok succeeded
        obtain ⟨rest, later, _⟩ := bind_eq_ok succeeded
        exact ⟨⟨first, here⟩, ⟨rest, later⟩⟩
      · rintro ⟨⟨first, here⟩, ⟨rest, later⟩⟩
        refine ⟨first :: rest, ?_⟩
        rw [List.mapM_cons, here, ok_bind, later]
        rfl

private theorem mem_of_loadEach {step : Json → Except Fault α} {held : Option Json}
    {results : List α} (loaded : loadEach step held = .ok results) :
    ∀ result ∈ results, ∃ item, step item = .ok result := by
  cases held with
  | none =>
      cases loaded
      nofun
  | some value =>
      unfold loadEach at loaded
      cases listed : value.items? with
      | none =>
          simp only [listed] at loaded
          cases loaded
      | some items =>
          simp only [listed] at loaded
          intro result member
          obtain ⟨item, _, made⟩ := mapM_eq_ok loaded result member
          exact ⟨item, made⟩

end Items

private theorem Attr.loadAll_eq (held : Option Json) :
    Attr.loadAll held = loadEach Attr.load held := by
  cases held <;> rfl

namespace Node

theorem load_other {value : Json} (other : ∀ members, value ≠ .obj members) :
    load value = .error (notObject value) := by
  rw [load]
  exact other

private theorem loadItems_eq_mapM (items : List Json) : loadItems items = items.mapM load := by
  induction items with
  | nil => rfl
  | cons item items ih =>
      rw [loadItems, List.mapM_cons, ih]
      cases load item with
      | error fault => rfl
      | ok node => cases items.mapM load <;> rfl

/-- Strings are no nodes, so going through them stops at the first one. -/
private theorem loadNone_of_items {value : Json} {items : List Json}
    (held : value.items? = some items)
    (texts : ∀ item ∈ items, item.IsText) : loadNone value = items.mapM load := by
  unfold loadNone
  rw [held]
  cases items with
  | nil => rfl
  | cons item items =>
      obtain ⟨text, rfl⟩ := texts item List.mem_cons_self
      have refused : load (.str text) = .error (notObject (.str text)) := load_other nofun
      rw [List.mapM_cons, refused]
      rfl

private theorem loadNodes_eq (value : Json) : loadNodes value = loadEach load (some value) := by
  cases value with
  | arr items =>
      rw [loadNodes, loadItems_eq_mapM]
      rfl
  | str text =>
      rw [loadNodes]
      · refine loadNone_of_items rfl ?_
        intro item member
        obtain ⟨c, _, rfl⟩ := List.mem_map.mp member
        exact ⟨_, rfl⟩
      · nofun
  | obj members =>
      rw [loadNodes]
      · refine loadNone_of_items rfl ?_
        intro item member
        obtain ⟨other, _, rfl⟩ := List.mem_map.mp member
        exact ⟨_, rfl⟩
      · nofun
  | _ =>
      rw [loadNodes]
      · rfl
      · nofun

private theorem loadNodesOf_eq (members : List (Text × Json)) :
    loadNodesOf members = loadEach load (lookup? "nodes" members) := by
  induction members with
  | nil =>
      rw [loadNodesOf]
      rfl
  | cons member members ih =>
      obtain ⟨key, value⟩ := member
      rw [loadNodesOf, lookup?]
      split
      · exact loadNodes_eq value
      · exact ih

/-! ## Blocks of tags -/

theorem loadBlockOf_of_absent {members : List (Text × Json)}
    (absent : lookup? "block" members = none) : loadBlockOf members = .ok ([], {}) := by
  induction members with
  | nil => rw [loadBlockOf]
  | cons member members ih =>
      obtain ⟨key, value⟩ := member
      rw [lookup?] at absent
      split at absent
      · cases absent
      · next other => rw [loadBlockOf, if_neg other, ih absent]

theorem loadBlockOf_of_held {members : List (Text × Json)} {value : Json}
    (held : lookup? "block" members = some value) : loadBlockOf members = loadBlock value := by
  induction members with
  | nil => cases held
  | cons member members ih =>
      obtain ⟨key, other⟩ := member
      rw [lookup?] at held
      split at held
      · next same =>
          cases held
          rw [loadBlockOf, if_pos same]
      · next different => rw [loadBlockOf, if_neg different, ih held]

theorem loadBlock_obj (members : List (Text × Json)) :
    loadBlock (.obj members) = (do
      let children ← loadEach load (lookup? "nodes" members)
      return (children, Origin.ofMembers members)) := by
  rw [loadBlock, loadNodesOf_eq]
  cases loadEach load (lookup? "nodes" members) <;> rfl

theorem loadBlock_other {value : Json} (other : ∀ members, value ≠ .obj members) :
    loadBlock value = if value.isPresent then .error (.mismatch .blockWanted) else .ok ([], {}) := by
  rw [loadBlock]
  exact other

/-! ## Objects by their types -/

def Variety.word : Variety → Text
  | .block => "Block"
  | .tag => "Tag"
  | .text => "Text"

section Objects

variable {members : List (Text × Json)}

private theorem Variety.ofName?_eq_some_iff {name : Text} {variety : Variety} :
    ofName? name = some variety ↔ name = variety.word := by
  by_cases block : name = "Block"
  · subst block; cases variety <;> decide
  by_cases tag : name = "Tag"
  · subst tag; cases variety <;> decide
  by_cases text : name = "Text"
  · subst text; cases variety <;> decide
  rw [ofName?, if_neg block, if_neg tag, if_neg text]
  cases variety <;> simp [word, block, tag, text]

theorem Variety.ofMembers_eq_ok_iff {variety : Variety} :
    ofMembers members = .ok variety ↔ lookup? "type" members = some (.str variety.word) := by
  unfold ofMembers
  cases lookup? "type" members with
  | none => simp
  | some value =>
      rw [Option.getD_some, Option.some.injEq]
      cases value with
      | str name =>
          rw [Json.str.injEq, ← ofName?_eq_some_iff]
          cases told : ofName? name <;> simp [told]
      | _ => simp

theorem load_of_untold {fault : Fault} (untold : Variety.ofMembers members = .error fault) :
    load (.obj members) = .error fault := by
  rw [load, untold]

theorem load_of_block (told : Variety.ofMembers members = .ok .block) :
    load (.obj members) = (do
      let children ← loadEach load (lookup? "nodes" members)
      return .block children (Origin.ofMembers members)) := by
  rw [load, told]
  simp only [loadNodesOf_eq]
  cases loadEach load (lookup? "nodes" members) <;> rfl

theorem load_of_nameless (told : Variety.ofMembers members = .ok .tag)
    (nameless : lookup? "name" members = none) :
    load (.obj members) = .error (.nameless "Tag" members) := by
  rw [load, told]
  simp only [nameless]

theorem load_of_tag (told : Variety.ofMembers members = .ok .tag) {name : Json}
    (named : lookup? "name" members = some name) :
    load (.obj members) = (do
      let attrs ← loadEach Attr.load (lookup? "attrs" members)
      let (children, blockOrigin) ← loadBlockOf members
      let origin := Origin.ofMembers members
      return .tag { name, attrs, origin, blockOrigin } children) := by
  rw [load, told]
  simp only [named, Attr.loadAll_eq]
  cases loadEach Attr.load (lookup? "attrs" members) with
  | error fault => rfl
  | ok attrs => cases loadBlockOf members <;> rfl

theorem load_of_text (told : Variety.ofMembers members = .ok .text) :
    load (.obj members) =
      .ok (.text ((lookup? "val" members).getD (.str "")) (Origin.ofMembers members)) := by
  rw [load, told]

end Objects

/-! ## Loaded trees -/

private theorem loadBlockOf_eq_ok {members : List (Text × Json)} {children : List Node}
    {origin : Origin} (loaded : loadBlockOf members = .ok (children, origin)) :
    ∀ child ∈ children, ∃ item, load item = .ok child := by
  cases held : lookup? "block" members with
  | none =>
      rw [loadBlockOf_of_absent held] at loaded
      cases loaded
      nofun
  | some value =>
      rw [loadBlockOf_of_held held] at loaded
      by_cases object : ∃ inner, value = .obj inner
      · obtain ⟨inner, rfl⟩ := object
        rw [loadBlock_obj] at loaded
        obtain ⟨nodes, listed, loaded⟩ := bind_eq_ok loaded
        cases loaded
        exact mem_of_loadEach listed
      · rw [loadBlock_other fun inner same => object ⟨inner, same⟩] at loaded
        split at loaded
        · cases loaded
        · cases loaded
          nofun

/-- Loading makes blocks, tags and texts, each of the type that its object tells, and each child of
what it makes has been loaded by itself. -/
theorem load_eq_ok {value : Json} {node : Node} (loaded : load value = .ok node) :
    ∃ members, value = .obj members ∧ lookup? "type" members = some (.str node.kind) ∧
      ((∃ children origin, node = .block children origin ∧
          ∀ child ∈ children, ∃ item, load item = .ok child) ∨
        (∃ opening children, node = .tag opening children ∧
          ∀ child ∈ children, ∃ item, load item = .ok child) ∨
        ∃ content origin, node = .text content origin) := by
  by_cases object : ∃ members, value = .obj members
  · obtain ⟨members, rfl⟩ := object
    refine ⟨members, rfl, ?_⟩
    cases told : Variety.ofMembers members with
    | error fault =>
        rw [load_of_untold told] at loaded
        cases loaded
    | ok variety =>
        have type := Variety.ofMembers_eq_ok_iff.mp told
        cases variety with
        | block =>
            rw [load_of_block told] at loaded
            obtain ⟨children, listed, loaded⟩ := bind_eq_ok loaded
            cases loaded
            exact ⟨type, .inl ⟨_, _, rfl, mem_of_loadEach listed⟩⟩
        | tag =>
            cases named : lookup? "name" members with
            | none =>
                rw [load_of_nameless told named] at loaded
                cases loaded
            | some name =>
                rw [load_of_tag told named] at loaded
                obtain ⟨attrs, _, loaded⟩ := bind_eq_ok loaded
                obtain ⟨⟨children, blockOrigin⟩, filled, loaded⟩ := bind_eq_ok loaded
                cases loaded
                exact ⟨type, .inr (.inl ⟨_, _, rfl, loadBlockOf_eq_ok filled⟩)⟩
        | text =>
            rw [load_of_text told] at loaded
            cases loaded
            exact ⟨type, .inr (.inr ⟨_, _, rfl⟩)⟩
  · rw [load_other fun members same => object ⟨members, same⟩] at loaded
    cases loaded

theorem native_of_load {node : Node} {value : Json} (loaded : load value = .ok node) :
    node.Native := by
  induction node.arbitrary generalizing value with
  | block _ ih =>
      obtain ⟨_, _, _, ⟨_, _, same, each⟩ | ⟨_, _, same, _⟩ | ⟨_, _, same⟩⟩ := load_eq_ok loaded <;>
        cases same
      refine .block fun child member => ?_
      obtain ⟨item, made⟩ := each child member
      exact ih child member made
  | tag _ _ ih =>
      obtain ⟨_, _, _, ⟨_, _, same, _⟩ | ⟨_, _, same, each⟩ | ⟨_, _, same⟩⟩ := load_eq_ok loaded <;>
        cases same
      refine .tag trivial fun child member => ?_
      obtain ⟨item, made⟩ := each child member
      exact ih child member made
  | text _ => exact .text trivial
  | foreign _ =>
      obtain ⟨_, _, _, ⟨_, _, same, _⟩ | ⟨_, _, same, _⟩ | ⟨_, _, same⟩⟩ := load_eq_ok loaded <;>
        cases same

theorem ofJson_eq_ok_iff {value : Json} {tree : Node} :
    ofJson value = .ok tree ↔
      ∃ children origin, tree = .block children origin ∧ load value = .ok tree := by
  unfold ofJson
  cases loaded : load value with
  | error fault => simp
  | ok node =>
      cases node with
      | block children origin =>
          constructor
          · intro same
            cases same
            exact ⟨children, origin, rfl, rfl⟩
          · rintro ⟨_, _, rfl, same⟩
            exact same
      | _ =>
          constructor
          · nofun
          · rintro ⟨_, _, rfl, same⟩
            cases same

theorem native_of_ofJson {value : Json} {tree : Node} (loaded : ofJson value = .ok tree) :
    tree.Native := by
  obtain ⟨_, _, _, made⟩ := ofJson_eq_ok_iff.mp loaded
  exact native_of_load made

private theorem toJsonList_isOk {nodes : List Node}
    (each : ∀ node ∈ nodes, ∃ value, node.toJson = .ok value) :
    ∃ values, toJsonList nodes = .ok values := by
  induction nodes with
  | nil => exact ⟨[], rfl⟩
  | cons node nodes ih =>
      obtain ⟨value, here⟩ := each node List.mem_cons_self
      obtain ⟨values, later⟩ := ih fun node member => each node (List.mem_cons_of_mem _ member)
      exact ⟨value :: values, by rw [toJsonList, here, later]⟩

private theorem Native.toJson_isOk {node : Node} (native : node.Native) :
    ∃ value, node.toJson = .ok value := by
  induction native with
  | block _ ih =>
      obtain ⟨values, written⟩ := toJsonList_isOk ih
      exact ⟨blockJson values, by rw [toJson, written]⟩
  | tag _ _ ih =>
      obtain ⟨values, written⟩ := toJsonList_isOk ih
      exact ⟨tagJson _ values, by rw [toJson, written]⟩
  | text _ => exact ⟨textJson _, by rw [toJson]⟩
  | foreign impossible => exact impossible.elim

theorem Native.dump_isOk {node : Node} (native : node.Native) (layout : Json.Layout) :
    ∃ text, node.dump layout = .ok text := by
  obtain ⟨value, written⟩ := native.toJson_isOk
  exact ⟨value.print layout, by rw [dump, written]⟩

end Node

end TemplateJsx
