import TemplateJsx.Emission.Basic
import TemplateJsx.Proofs.TextProperties

/-!
# Written trees

Trees whose names are strings and whose attribute values are strings or flags. On them the tests that
emission makes on a tag cannot fail, and they read as plain searches through its attributes.
-/

set_option autoImplicit false

namespace TemplateJsx

/-- A tree whose openings, texts and foreign contents each meet a condition of their own. Origins are
free, and so is the nesting of blocks. -/
inductive Node.BuiltFrom (openings : Opening → Prop) (texts : Json → Prop)
    (foreigns : Foreign → Prop) : Node → Prop where
  | block {children : List Node} {origin : Origin} :
      (∀ child ∈ children, BuiltFrom openings texts foreigns child) →
      BuiltFrom openings texts foreigns (.block children origin)
  | tag {opening : Opening} {children : List Node} :
      openings opening → (∀ child ∈ children, BuiltFrom openings texts foreigns child) →
      BuiltFrom openings texts foreigns (.tag opening children)
  | text {value : Json} {origin : Origin} :
      texts value → BuiltFrom openings texts foreigns (.text value origin)
  | foreign {content : Foreign} :
      foreigns content → BuiltFrom openings texts foreigns (.foreign content)

theorem Node.BuiltFrom.imp {openings openings' : Opening → Prop} {texts texts' : Json → Prop}
    {foreigns foreigns' : Foreign → Prop} {node : Node}
    (built : node.BuiltFrom openings texts foreigns)
    (onOpenings : ∀ opening, openings opening → openings' opening)
    (onTexts : ∀ value, texts value → texts' value)
    (onForeigns : ∀ content, foreigns content → foreigns' content) :
    node.BuiltFrom openings' texts' foreigns' := by
  induction built with
  | block _ ih => exact .block ih
  | tag holds _ ih => exact .tag (onOpenings _ holds) ih
  | text holds => exact .text (onTexts _ holds)
  | foreign holds => exact .foreign (onForeigns _ holds)

abbrev Node.Arbitrary : Node → Prop :=
  Node.BuiltFrom (fun _ => True) (fun _ => True) fun _ => True

mutual

theorem Node.arbitrary : (node : Node) → node.Arbitrary
  | .block children _ => .block (Node.arbitraryList children)
  | .tag _ children => .tag trivial (Node.arbitraryList children)
  | .text _ _ => .text trivial
  | .foreign _ => .foreign trivial

theorem Node.arbitraryList : (nodes : List Node) → ∀ node ∈ nodes, node.Arbitrary
  | [] => List.forall_mem_nil _
  | node :: nodes => List.forall_mem_cons.mpr ⟨Node.arbitrary node, Node.arbitraryList nodes⟩

end

abbrev Node.Native : Node → Prop := Node.BuiltFrom (fun _ => True) (fun _ => True) fun _ => False

/-- An attribute with a string for its name, and a string or a flag for its value. -/
inductive Attr.Written : Attr → Prop where
  | raw {name value : Text} {origin : Origin} : Written ⟨.str name, .str value, origin⟩
  | flag {name : Text} {value : Bool} {origin : Origin} : Written ⟨.str name, .bool value, origin⟩

structure Opening.Written (opening : Opening) : Prop where
  name : ∃ name, opening.name = .str name
  attrs : ∀ attr ∈ opening.attrs, attr.Written

def Json.IsText (value : Json) : Prop := ∃ content, value = .str content

/-- A tree of strings and flags. Foreign content may stand anywhere in it. -/
abbrev Node.Written : Node → Prop := Node.BuiltFrom Opening.Written Json.IsText fun _ => True

/-! ## Holders of slots -/

def Attr.begins (mark : Text) (attr : Attr) : Bool :=
  match attr.name with
  | .str name => Text.startsWith mark name
  | _ => false

/-- The attribute that makes a tag the holder of a slot. -/
def Opening.slot? (spelling : Spelling) (opening : Opening) : Option Attr :=
  opening.attrs.find? (·.begins spelling.slotDirective)

/-- Whether a node would hold a slot of the tag that it stands in. -/
def Node.isHolder (spelling : Spelling) : Node → Bool
  | .tag opening _ => (opening.slot? spelling).isSome
  | _ => false

theorem Attr.nameAfter?_ok {attr : Attr} (written : attr.Written) (mark : Text) :
    ∃ rest, attr.nameAfter? mark = .ok rest ∧ rest.isSome = attr.begins mark := by
  cases written <;>
    exact ⟨_, rfl, by simp [Attr.begins, Text.startsWith]⟩

theorem Attr.findLead?_eq {attrs : List Attr} (written : ∀ attr ∈ attrs, attr.Written)
    (mark : Text) : Attr.findLead? mark attrs = .ok (attrs.find? (·.begins mark)) := by
  induction attrs with
  | nil => rfl
  | cons attr attrs ih =>
      have later := ih fun attr member => written attr (List.mem_cons_of_mem _ member)
      obtain ⟨rest, named, begins⟩ := Attr.nameAfter?_ok (written attr List.mem_cons_self) mark
      cases rest with
      | none =>
          have other : attr.begins mark = false := begins.symm
          simp [Attr.findLead?, named, other, later]
      | some rest =>
          have found : attr.begins mark = true := begins.symm
          simp [Attr.findLead?, named, found]

theorem Opening.Written.slotAttr?_eq {opening : Opening} (written : opening.Written)
    (spelling : Spelling) : opening.slotAttr? spelling = .ok (opening.slot? spelling) :=
  Attr.findLead?_eq written.attrs spelling.slotDirective

private theorem Attr.find?_of_findLead? {mark : Text} {attrs : List Attr} {found : Option Attr}
    (done : Attr.findLead? mark attrs = .ok found) : attrs.find? (·.begins mark) = found := by
  induction attrs with
  | nil =>
      cases done
      rfl
  | cons attr attrs ih =>
      rw [Attr.findLead?, Attr.nameAfter?] at done
      cases named : attr.name with
      | str name =>
          cases rest : Text.after? mark.toList name.toList with
          | none =>
              simp only [named, rest, Option.map_none] at done
              rw [List.find?_cons_of_neg (by simp [Attr.begins, named, Text.startsWith, rest])]
              exact ih done
          | some rest =>
              simp only [named, rest, Option.map_some] at done
              cases done
              rw [List.find?_cons_of_pos (by simp [Attr.begins, named, Text.startsWith, rest])]
      | _ =>
          simp only [named] at done
          cases done

theorem Opening.slotAttr?_of_ok {spelling : Spelling} {opening : Opening} {attr : Option Attr}
    (told : opening.slotAttr? spelling = .ok attr) : opening.slot? spelling = attr :=
  Attr.find?_of_findLead? told

def Family.among (spelling : Spelling) (children : List Node) : Family :=
  { slots := children.any (·.isHolder spelling)
    others := children.any fun child => !child.isHolder spelling }

section Holders

variable {texts : Json → Prop} {foreigns : Foreign → Prop} (spelling : Spelling)

theorem Node.holdsSlot_eq {node : Node} (built : node.BuiltFrom Opening.Written texts foreigns) :
    node.holdsSlot spelling = .ok (node.isHolder spelling) := by
  cases built with
  | tag written _ => simp only [Node.holdsSlot, written.slotAttr?_eq, Node.isHolder]
  | _ => rfl

theorem Family.ofChildren_eq {children : List Node}
    (built : ∀ child ∈ children, child.BuiltFrom Opening.Written texts foreigns) :
    Family.ofChildren spelling children = .ok (Family.among spelling children) := by
  induction children with
  | nil => rfl
  | cons child children ih =>
      have later := ih fun child member => built child (List.mem_cons_of_mem _ member)
      have here := Node.holdsSlot_eq spelling (built child List.mem_cons_self)
      cases holds : child.isHolder spelling <;>
        simp [Family.ofChildren, Family.among, here, later, holds]

private theorem Node.isHolder_of_holdsSlot {node : Node} {holds : Bool}
    (told : node.holdsSlot spelling = .ok holds) : node.isHolder spelling = holds := by
  cases node with
  | tag opening children =>
      rw [Node.holdsSlot] at told
      cases found : opening.slotAttr? spelling with
      | error fault =>
          rw [found] at told
          cases told
      | ok attr =>
          rw [found] at told
          cases told
          rw [Node.isHolder, Opening.slotAttr?_of_ok found]
  | _ =>
      cases told
      rfl

theorem Family.of_ofChildren {children : List Node} {family : Family}
    (told : Family.ofChildren spelling children = .ok family) :
    family = Family.among spelling children ∧
      ∀ child ∈ children, child.holdsSlot spelling = .ok (child.isHolder spelling) := by
  induction children generalizing family with
  | nil =>
      cases told
      exact ⟨rfl, nofun⟩
  | cons child children ih =>
      rw [Family.ofChildren] at told
      cases here : child.holdsSlot spelling with
      | error fault =>
          rw [here] at told
          cases told
      | ok holds =>
          cases later : Family.ofChildren spelling children with
          | error fault =>
              rw [here, later] at told
              cases told
          | ok rest =>
              obtain ⟨same, each⟩ := ih later
              have isHolder := Node.isHolder_of_holdsSlot spelling here
              rw [here, later] at told
              refine ⟨?_, List.forall_mem_cons.mpr ⟨by rw [here, isHolder], each⟩⟩
              cases holds <;> cases told <;> simp [Family.among, isHolder, same]

end Holders

end TemplateJsx
