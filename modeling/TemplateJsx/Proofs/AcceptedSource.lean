import TemplateJsx.Proofs.LoadProperties

/-!
# Accepted sources

The values that load as a tree, described by the members that count. Everything else about them is
free: other members, the kinds of names and values, and the type of the block of a tag.
-/

set_option autoImplicit false

namespace TemplateJsx

open Json (lookup?)

namespace Json

/-- What a member may hold where items of one sort are wanted. Texts and objects pass only for want of
items. -/
inductive ItemsFit (fits : Json → Prop) : Option Json → Prop where
  | absent : ItemsFit fits none
  | emptyText : ItemsFit fits (some (.str ""))
  | emptyObject : ItemsFit fits (some (.obj []))
  | items {items : List Json} : (∀ item ∈ items, fits item) → ItemsFit fits (some (.arr items))

inductive BlockFits (fits : Json → Prop) : Option Json → Prop where
  | absent : BlockFits fits none
  | unset {value : Json} : value.isPresent = false → BlockFits fits (some value)
  | object {members : List (Text × Json)} :
      ItemsFit fits (lookup? "nodes" members) → BlockFits fits (some (.obj members))

inductive IsAttr : Json → Prop where
  | named {members : List (Text × Json)} {name : Json} :
      lookup? "name" members = some name → IsAttr (.obj members)

inductive IsNode : Json → Prop where
  | block {members : List (Text × Json)} :
      lookup? "type" members = some (.str "Block") → ItemsFit IsNode (lookup? "nodes" members) →
      IsNode (.obj members)
  | tag {members : List (Text × Json)} {name : Json} :
      lookup? "type" members = some (.str "Tag") → lookup? "name" members = some name →
      ItemsFit IsAttr (lookup? "attrs" members) → BlockFits IsNode (lookup? "block" members) →
      IsNode (.obj members)
  | text {members : List (Text × Json)} :
      lookup? "type" members = some (.str "Text") → IsNode (.obj members)

def IsDocument (value : Json) : Prop :=
  ∃ members, value = .obj members ∧ lookup? "type" members = some (.str "Block") ∧ value.IsNode

end Json

/-! ## Items -/

/-- Going through texts succeeds only where there is none: no sort of items is a text. -/
private theorem mapM_texts_isOk_iff {α : Type} {step : Json → Except Fault α}
    (refuses : ∀ text, ∃ fault, step (.str text) = .error fault) {items : List Json}
    (texts : ∀ item ∈ items, item.IsText) :
    (∃ results, items.mapM step = .ok results) ↔ items = [] := by
  rw [mapM_isOk_iff]
  constructor
  · intro each
    cases items with
    | nil => rfl
    | cons item items =>
        obtain ⟨text, rfl⟩ := texts item List.mem_cons_self
        obtain ⟨result, made⟩ := each _ List.mem_cons_self
        obtain ⟨fault, refused⟩ := refuses text
        rw [refused] at made
        cases made
  · rintro rfl
    nofun

private theorem loadEach_isOk_iff {α : Type} {step : Json → Except Fault α} {fits : Json → Prop}
    (refuses : ∀ text, ∃ fault, step (.str text) = .error fault) {held : Option Json}
    (each : ∀ items, held = some (.arr items) →
      ∀ item ∈ items, (∃ result, step item = .ok result) ↔ fits item) :
    (∃ results, loadEach step held = .ok results) ↔ Json.ItemsFit fits held := by
  cases held with
  | none => exact ⟨fun _ => .absent, fun _ => ⟨[], rfl⟩⟩
  | some value =>
      cases value with
      | arr items =>
          change (∃ results, items.mapM step = .ok results) ↔ _
          rw [mapM_isOk_iff]
          constructor
          · intro succeeds
            exact .items fun item member => (each items rfl item member).mp (succeeds item member)
          · intro fitting
            cases fitting with
            | items allFit =>
                exact fun item member => (each items rfl item member).mpr (allFit item member)
      | str text =>
          change (∃ results, (text.toList.map _).mapM step = .ok results) ↔ _
          rw [mapM_texts_isOk_iff refuses, List.map_eq_nil_iff, Text.toList_eq_nil_iff]
          · constructor
            · rintro rfl
              exact .emptyText
            · intro fitting
              cases fitting
              rfl
          · intro item member
            obtain ⟨c, _, rfl⟩ := List.mem_map.mp member
            exact ⟨_, rfl⟩
      | obj members =>
          change (∃ results, (members.map _).mapM step = .ok results) ↔ _
          rw [mapM_texts_isOk_iff refuses, List.map_eq_nil_iff]
          · constructor
            · rintro rfl
              exact .emptyObject
            · intro fitting
              cases fitting
              rfl
          · intro item member
            obtain ⟨other, _, rfl⟩ := List.mem_map.mp member
            exact ⟨_, rfl⟩
      | _ =>
          constructor
          · rintro ⟨results, impossible⟩
            cases impossible
          · intro fitting
            cases fitting

/-! ## Attributes and nodes -/

private theorem Attr.load_isOk_iff (value : Json) :
    (∃ attr, Attr.load value = .ok attr) ↔ value.IsAttr := by
  cases value with
  | obj members =>
      cases named : lookup? "name" members with
      | none =>
          constructor
          · rintro ⟨attr, loaded⟩
            simp only [Attr.load, named] at loaded
            cases loaded
          · rintro ⟨found⟩
            rw [named] at found
            cases found
      | some name => exact ⟨fun _ => .named named, fun _ => ⟨_, by rw [Attr.load, named]⟩⟩
  | _ =>
      constructor
      · rintro ⟨attr, loaded⟩
        cases loaded
      · nofun

namespace Node

private theorem loadEach_nodes_isOk_iff {members : List (Text × Json)}
    (inside : ∀ item, sizeOf item < sizeOf (Json.obj members) →
      ((∃ node, load item = .ok node) ↔ item.IsNode)) :
    (∃ nodes, loadEach load (lookup? "nodes" members) = .ok nodes) ↔
      Json.ItemsFit Json.IsNode (lookup? "nodes" members) := by
  refine loadEach_isOk_iff (fun text => ⟨_, load_other nofun⟩) ?_
  intro items held item member
  exact inside item (Nat.lt_trans (Json.sizeOf_lt_of_mem member) (Json.sizeOf_lt_of_lookup? held))

private theorem loadBlockOf_isOk_iff {members : List (Text × Json)}
    (inside : ∀ item, sizeOf item < sizeOf (Json.obj members) →
      ((∃ node, load item = .ok node) ↔ item.IsNode)) :
    (∃ block, loadBlockOf members = .ok block) ↔
      Json.BlockFits Json.IsNode (lookup? "block" members) := by
  cases held : lookup? "block" members with
  | none => exact ⟨fun _ => .absent, fun _ => ⟨_, loadBlockOf_of_absent held⟩⟩
  | some value =>
      rw [loadBlockOf_of_held held]
      by_cases object : ∃ inner, value = .obj inner
      · obtain ⟨inner, rfl⟩ := object
        have nodes := @loadEach_nodes_isOk_iff inner fun item smaller =>
          inside item (Nat.lt_trans smaller (Json.sizeOf_lt_of_lookup? held))
        rw [loadBlock_obj]
        constructor
        · rintro ⟨block, loaded⟩
          obtain ⟨children, listed, _⟩ := bind_eq_ok loaded
          exact .object (nodes.mp ⟨children, listed⟩)
        · intro fitting
          cases fitting with
          | unset empty =>
              cases inner with
              | nil => exact ⟨_, rfl⟩
              | cons => cases empty
          | object fit =>
              obtain ⟨children, listed⟩ := nodes.mpr fit
              exact ⟨_, by rw [listed, ok_bind]; rfl⟩
      · have other : ∀ inner, value ≠ .obj inner := fun inner same => object ⟨inner, same⟩
        rw [loadBlock_other other]
        cases present : value.isPresent with
        | true =>
            constructor
            · rintro ⟨block, impossible⟩
              cases impossible
            · intro fitting
              cases fitting with
              | unset empty => rw [present] at empty; cases empty
              | object => exact absurd rfl (other _)
        | false => exact ⟨fun _ => .unset present, fun _ => ⟨_, rfl⟩⟩

private theorem load_obj_isOk_iff {members : List (Text × Json)}
    (inside : ∀ item, sizeOf item < sizeOf (Json.obj members) →
      ((∃ node, load item = .ok node) ↔ item.IsNode)) :
    (∃ node, load (.obj members) = .ok node) ↔ (Json.obj members).IsNode := by
  have nodes := loadEach_nodes_isOk_iff inside
  have block := loadBlockOf_isOk_iff inside
  have attrs : (∃ attrs, loadEach Attr.load (lookup? "attrs" members) = .ok attrs) ↔
      Json.ItemsFit Json.IsAttr (lookup? "attrs" members) :=
    loadEach_isOk_iff (fun text => ⟨_, rfl⟩) fun _ _ item _ => Attr.load_isOk_iff item
  constructor
  · rintro ⟨node, loaded⟩
    cases told : Variety.ofMembers members with
    | error fault =>
        rw [load_of_untold told] at loaded
        cases loaded
    | ok variety =>
        have type := Variety.ofMembers_eq_ok_iff.mp told
        cases variety with
        | block =>
            rw [load_of_block told] at loaded
            obtain ⟨children, listed, _⟩ := bind_eq_ok loaded
            exact .block type (nodes.mp ⟨children, listed⟩)
        | tag =>
            cases named : lookup? "name" members with
            | none =>
                rw [load_of_nameless told named] at loaded
                cases loaded
            | some name =>
                rw [load_of_tag told named] at loaded
                obtain ⟨loadedAttrs, listed, loaded⟩ := bind_eq_ok loaded
                obtain ⟨loadedBlock, filled, _⟩ := bind_eq_ok loaded
                exact .tag type named (attrs.mp ⟨loadedAttrs, listed⟩) (block.mp ⟨loadedBlock, filled⟩)
        | text => exact .text type
  · intro isNode
    cases isNode with
    | block type fitting =>
        have told : Variety.ofMembers members = .ok .block := Variety.ofMembers_eq_ok_iff.mpr type
        obtain ⟨children, listed⟩ := nodes.mpr fitting
        exact ⟨_, by rw [load_of_block told, listed, ok_bind]; rfl⟩
    | tag type named fittingAttrs fittingBlock =>
        have told : Variety.ofMembers members = .ok .tag := Variety.ofMembers_eq_ok_iff.mpr type
        obtain ⟨loadedAttrs, listed⟩ := attrs.mpr fittingAttrs
        obtain ⟨loadedBlock, filled⟩ := block.mpr fittingBlock
        exact ⟨_, by rw [load_of_tag told named, listed, ok_bind, filled, ok_bind]; rfl⟩
    | text type =>
        have told : Variety.ofMembers members = .ok .text := Variety.ofMembers_eq_ok_iff.mpr type
        exact ⟨_, load_of_text told⟩

theorem load_isOk_iff (value : Json) : (∃ node, load value = .ok node) ↔ value.IsNode := by
  -- The nodes of a tag stand two objects deep in it, so the induction is on the size of the value.
  induction size : sizeOf value using Nat.strongRecOn generalizing value with
  | ind _ ih =>
      by_cases object : ∃ members, value = .obj members
      · obtain ⟨members, rfl⟩ := object
        refine load_obj_isOk_iff fun item smaller => ?_
        exact ih _ (by rwa [← size]) item rfl
      · have other : ∀ members, value ≠ .obj members := fun members same => object ⟨members, same⟩
        rw [load_other other]
        constructor
        · rintro ⟨node, impossible⟩
          cases impossible
        · intro isNode
          cases isNode <;> exact absurd rfl (other _)

/-- A value other than JSON text loads as a tree exactly when it is a document, and any other fails to
load. -/
theorem ofSource_accepts_iff {value : Json} (notText : ∀ text, value ≠ .str text) :
    ((∃ tree, ofSource value = .ok tree) ↔ value.IsDocument) ∧
      ((∃ fault, ofSource value = .error fault) ↔ ¬ value.IsDocument) := by
  have decoded : ofSource value = ofJson value := by
    rw [ofSource]
    exact notText
  have accepted : (∃ tree, ofSource value = .ok tree) ↔ value.IsDocument := by
    simp only [decoded, ofJson_eq_ok_iff]
    constructor
    · rintro ⟨_, children, origin, rfl, loaded⟩
      obtain ⟨members, rfl, type, _⟩ := load_eq_ok loaded
      exact ⟨members, rfl, type, (load_isOk_iff _).mp ⟨_, loaded⟩⟩
    · rintro ⟨members, rfl, type, isNode⟩
      obtain ⟨node, loaded⟩ := (load_isOk_iff _).mpr isNode
      have told : Variety.ofMembers members = .ok .block := Variety.ofMembers_eq_ok_iff.mpr type
      rw [load_of_block told] at loaded ⊢
      obtain ⟨children, listed, _⟩ := bind_eq_ok loaded
      exact ⟨_, children, _, rfl, by rw [listed, ok_bind]; rfl⟩
  refine ⟨accepted, ?_⟩
  rw [← accepted]
  cases ofSource value with
  | ok tree => simp
  | error fault => simp

/-- The type of a block under a tag is not looked at, and members that hold no items at all pass; one
that holds null does not. -/
theorem ofSource_accepts_block_of_any_type :
    let tag : Json := .obj [("type", .str "Tag"), ("name", .null), ("attrs", .str ""),
      ("block", .obj [("type", .str "Code"), ("nodes", .obj [])])]
    let document (nodes : Json) : Json := .obj [("type", .str "Block"), ("nodes", nodes)]
    (∃ tree, ofSource (document (.arr [tag, .obj [("type", .str "Text")]])) = .ok tree) ∧
      ∃ fault, ofSource (document .null) = .error fault := by
  intro tag document
  have notText : ∀ nodes text, document nodes ≠ .str text := fun _ _ => nofun
  constructor
  · refine (ofSource_accepts_iff (notText _)).1.mpr ⟨_, rfl, rfl, .block rfl ?_⟩
    have block : Json.BlockFits Json.IsNode
        (some (.obj [("type", .str "Code"), ("nodes", .obj [])])) := .object .emptyObject
    have isTag : tag.IsNode := .tag rfl rfl .emptyText block
    exact .items (List.forall_mem_cons.mpr ⟨isTag, List.forall_mem_singleton.mpr (.text rfl)⟩)
  · refine (ofSource_accepts_iff (notText _)).2.mpr ?_
    rintro ⟨_, _, _, isNode⟩
    cases isNode with
    | block _ fitting => nomatch (fitting : Json.ItemsFit Json.IsNode (some .null))
    | tag type => exact absurd type (by decide)
    | text type => exact absurd type (by decide)

end Node

end TemplateJsx
