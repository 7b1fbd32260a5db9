import TemplateJsx.Proofs.AcceptedSource

/-!
# Types of nodes

An object among nodes is told by its type, and a type other than the three is refused at every depth.
The block of a tag is taken for a block without a look at its type. So a foreign type passes there and
nowhere else, and it passes whenever the rest of the source is in order.
-/

set_option autoImplicit false

namespace TemplateJsx

open Json (lookup?)

namespace Json

/-- The objects that loading takes for nodes by their types: the value itself, and the items among the
nodes of a block or of the block of a tag. -/
inductive Visits : Json → List (Text × Json) → Prop where
  | self {members : List (Text × Json)} : Visits (.obj members) members
  | inBlock {members visited : List (Text × Json)} {items : List Json} {item : Json} :
      lookup? "type" members = some (.str "Block") → lookup? "nodes" members = some (.arr items) →
      item ∈ items → Visits item visited → Visits (.obj members) visited
  | inTag {members inner visited : List (Text × Json)} {items : List Json} {item : Json} :
      lookup? "type" members = some (.str "Tag") → lookup? "block" members = some (.obj inner) →
      lookup? "nodes" inner = some (.arr items) → item ∈ items → Visits item visited →
      Visits (.obj members) visited

/-- The objects that loading takes for the blocks of tags. An empty one counts as no block. -/
inductive VisitsBlock (value : Json) (inner : List (Text × Json)) : Prop where
  | ofTag {members : List (Text × Json)} :
      Visits value members → lookup? "type" members = some (.str "Tag") →
      lookup? "block" members = some (.obj inner) → inner ≠ [] → VisitsBlock value inner

def TellsNoType (members : List (Text × Json)) : Prop :=
  ∀ variety : Node.Variety, lookup? "type" members ≠ some (.str variety.word)

def TellsOtherThanBlock (members : List (Text × Json)) : Prop :=
  ∃ type, lookup? "type" members = some type ∧ type ≠ .str "Block"

/-- Somewhere in a value an object that loading takes for a node has a foreign type, or the block of a
tag has one that is not the type of blocks. -/
inductive HasForeignType (value : Json) : Prop where
  | node {members : List (Text × Json)} :
      Visits value members → TellsNoType members → HasForeignType value
  | block {inner : List (Text × Json)} :
      VisitsBlock value inner → TellsOtherThanBlock inner → HasForeignType value

/-! ## Parts of an accepted value -/

private theorem IsNode.of_visits {value : Json} {members : List (Text × Json)}
    (visited : value.Visits members) (isNode : value.IsNode) : (Json.obj members).IsNode := by
  induction visited with
  | self => exact isNode
  | @inBlock members _ items item type held member _ ih =>
      cases isNode with
      | block _ fitting =>
          rw [held] at fitting
          cases fitting with
          | items allFit => exact ih (allFit item member)
      | tag other | text other =>
          simp [type] at other
  | @inTag members inner _ items item type block held member _ ih =>
      cases isNode with
      | tag _ _ _ fitting =>
          rw [block] at fitting
          cases fitting with
          | unset empty =>
              -- An object without members counts as no block, and it has no nodes either.
              cases inner with
              | nil => cases held
              | cons => cases empty
          | object nodesFit =>
              rw [held] at nodesFit
              cases nodesFit with
              | items allFit => exact ih (allFit item member)
      | block other | text other =>
          simp [type] at other

private theorem IsNode.tells_type {members : List (Text × Json)}
    (isNode : (Json.obj members).IsNode) : ¬ TellsNoType members := by
  intro untold
  cases isNode with
  | block type _ => exact untold .block type
  | tag type => exact untold .tag type
  | text type => exact untold .text type

end Json

namespace Node

theorem isDocument_of_ofJson {value : Json} {tree : Node} (loaded : ofJson value = .ok tree) :
    value.IsDocument := by
  obtain ⟨children, origin, same, made⟩ := ofJson_eq_ok_iff.mp loaded
  subst same
  obtain ⟨members, same, type, _⟩ := load_eq_ok made
  subst same
  exact ⟨members, rfl, type, (load_isOk_iff _).mp ⟨_, made⟩⟩

theorem ofJson_of_isDocument {value : Json} (document : value.IsDocument) :
    ∃ tree, ofJson value = .ok tree := by
  obtain ⟨members, same, type, isNode⟩ := document
  obtain ⟨node, made⟩ := (load_isOk_iff value).mpr isNode
  obtain ⟨_, same', told, shape⟩ := load_eq_ok made
  cases same.symm.trans same'
  -- The type that the object tells is the kind of what is made, so the root is a block.
  have kind : node.kind = "Block" := by
    rw [type] at told
    exact (Json.str.inj (Option.some.inj told)).symm
  cases node with
  | block children origin => exact ⟨_, ofJson_eq_ok_iff.mpr ⟨children, origin, rfl, made⟩⟩
  | tag opening children => simp [Node.kind] at kind
  | text content origin => simp [Node.kind] at kind
  | foreign content => nomatch native_of_load made

/-- A value with a type in it is an object, so it is not read as text. -/
theorem ofSource_of_hasForeignType {value : Json} (foreign : value.HasForeignType) :
    ofSource value = ofJson value := by
  cases foreign with
  | node visited => cases visited <;> rfl
  | block visited =>
      obtain ⟨within⟩ := visited
      cases within <;> rfl

/-- Loading refuses a foreign type wherever it looks at types, at every depth. The sources with a foreign
type that load all the same are exactly the documents in which the block of a tag tells a type other
than that of blocks. -/
theorem ofSource_refuses_foreign_types (value : Json) :
    (∀ members, value.Visits members → Json.TellsNoType members →
        ∃ fault, ofSource value = .error fault) ∧
      ((value.HasForeignType ∧ ∃ tree, ofSource value = .ok tree) ↔
        value.IsDocument ∧ ∃ inner, value.VisitsBlock inner ∧ Json.TellsOtherThanBlock inner) := by
  have refused : ∀ members, value.Visits members → Json.TellsNoType members →
      ∀ tree, ofSource value ≠ .ok tree := by
    intro members visited untold tree loaded
    rw [ofSource_of_hasForeignType (.node visited untold)] at loaded
    obtain ⟨_, _, _, isNode⟩ := isDocument_of_ofJson loaded
    exact (isNode.of_visits visited).tells_type untold
  constructor
  · intro members visited untold
    cases outcome : ofSource value with
    | error fault => exact ⟨fault, rfl⟩
    | ok tree => exact absurd outcome (refused members visited untold tree)
  · constructor
    · intro holds
      obtain ⟨foreign, tree, loaded⟩ := holds
      cases foreign with
      | node visited untold => exact absurd loaded (refused _ visited untold tree)
      | block visited other =>
          rw [ofSource_of_hasForeignType (.block visited other)] at loaded
          exact ⟨isDocument_of_ofJson loaded, _, visited, other⟩
    · intro holds
      obtain ⟨document, inner, visited, other⟩ := holds
      obtain ⟨tree, loaded⟩ := ofJson_of_isDocument document
      obtain ⟨members, same, _⟩ := document
      subst same
      exact ⟨.block visited other, tree, loaded⟩

/-- Code in place of the block of a tag is a foreign type, and yet the source loads, with the nodes of
the code as the children of the tag. -/
theorem ofSource_accepts_code_under_tag :
    let code : List (Text × Json) := [("type", .str "Code"),
      ("nodes", .arr [.obj [("type", .str "Text"), ("val", .str "x")]])]
    let tag : Json := .obj [("type", .str "Tag"), ("name", .str "a"), ("block", .obj code)]
    let source : Json := .obj [("type", .str "Block"), ("nodes", .arr [tag])]
    source.HasForeignType ∧
      ofSource source = .ok (.block [.tag { name := .str "a" } [.text (.str "x") {}]] {}) := by
  intro code tag source
  have visited : source.VisitsBlock code :=
    .ofTag (.inBlock rfl rfl List.mem_cons_self .self) rfl rfl (List.cons_ne_nil _ _)
  exact ⟨.block visited ⟨.str "Code", rfl, by decide⟩, rfl⟩

end Node

end TemplateJsx
