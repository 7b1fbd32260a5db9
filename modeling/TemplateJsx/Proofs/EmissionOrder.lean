import TemplateJsx.Proofs.WrittenTree

/-!
# The order of emission

Lists that follow a tree in the order in which it is emitted. A block comes child by child. A tag comes
first itself, then those of its children that hold slots, and then its other children. A tag counts as
a holder only where it stands directly in another tag.
-/

set_option autoImplicit false

namespace TemplateJsx

/-- What each part of a tree adds to a list. -/
structure Contributions (α : Type) where
  tag : Opening → List α
  holder : Opening → List α
  text : Json → List α
  foreign : Foreign → List α

namespace Node

variable {α : Type} (spelling : Spelling) (parts : Contributions α)

mutual

def gather : Node → List α
  | .block children _ => gatherAll children
  | .tag opening children =>
      parts.tag opening ++ (gatherHolders children ++ gatherOthers children)
  | .text value _ => parts.text value
  | .foreign content => parts.foreign content

def gatherAll : List Node → List α
  | [] => []
  | node :: nodes => gather node ++ gatherAll nodes

def gatherHolders : List Node → List α
  | [] => []
  | .tag opening children :: nodes =>
      if (opening.slot? spelling).isSome then
        parts.holder opening ++ (gatherHolders children ++ gatherOthers children) ++
          gatherHolders nodes
      else gatherHolders nodes
  | _ :: nodes => gatherHolders nodes

def gatherOthers : List Node → List α
  | [] => []
  | node :: nodes =>
      if node.isHolder spelling then gatherOthers nodes else gather node ++ gatherOthers nodes

end

/-- The contributions of a node that stands directly in a tag and holds a slot. -/
def gatherHolder : Node → List α
  | .tag opening children =>
      parts.holder opening ++
        (gatherHolders spelling parts children ++ gatherOthers spelling parts children)
  | _ => []

theorem gatherAll_eq_flatMap (nodes : List Node) :
    gatherAll spelling parts nodes = nodes.flatMap (gather spelling parts) := by
  induction nodes with
  | nil => rfl
  | cons node nodes ih => rw [gatherAll, ih, List.flatMap_cons]

theorem gatherHolders_eq_flatMap (nodes : List Node) :
    gatherHolders spelling parts nodes =
      (nodes.filter (·.isHolder spelling)).flatMap (gatherHolder spelling parts) := by
  induction nodes with
  | nil => rfl
  | cons node nodes ih =>
      cases node with
      | tag opening children =>
          by_cases slot : (opening.slot? spelling).isSome = true
          · simp [gatherHolders, isHolder, slot, ih, gatherHolder]
          · simp [gatherHolders, isHolder, slot, ih]
      | _ => simp [gatherHolders, isHolder, ih]

theorem gatherOthers_eq_flatMap (nodes : List Node) :
    gatherOthers spelling parts nodes =
      (nodes.filter fun node => !node.isHolder spelling).flatMap (gather spelling parts) := by
  induction nodes with
  | nil => rfl
  | cons node nodes ih =>
      by_cases holds : node.isHolder spelling = true
      · simp [gatherOthers, holds, ih]
      · simp [gatherOthers, holds, ih]

end Node

end TemplateJsx
