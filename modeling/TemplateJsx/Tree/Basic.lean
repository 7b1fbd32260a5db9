import TemplateJsx.Json.Agreement
import TemplateJsx.Json.Display
import TemplateJsx.Text.Search

/-!
# Template trees

A template is a tree of blocks, tags and texts. Names and values are JSON values: a tree that comes
from elsewhere may hold a number or a list where a name is meant, and every operation says what it
makes of that. Each node and each attribute remembers where it was written.
-/

set_option autoImplicit false

namespace TemplateJsx

structure Origin where
  line : Json := .null
  column : Json := .null
  filename : Json := .null
deriving DecidableEq, Repr

/-- The place that messages name: file, line and column. Without a line it is the file name as it
stands. Values of any depth have a text: no limit on nesting is kept here. -/
def Origin.place (origin : Origin) : Json :=
  if origin.line = .null then origin.filename
  else
    let file : Text := if origin.filename.isPresent then origin.filename.display else "<template>"
    let column : Text := if origin.column = .null then "" else ":" ++ origin.column.display
    .str (file ++ ":" ++ origin.line.display ++ column)

/-- An attribute of a tag. Its value is the expression as written, quotes included, or a flag. -/
structure Attr where
  name : Json
  value : Json := .bool true
  origin : Origin := {}
deriving DecidableEq, Repr

structure Opening where
  name : Json
  attrs : List Attr := []
  origin : Origin := {}
  /-- Where the block of children was written. -/
  blockOrigin : Origin := {}
deriving DecidableEq, Repr

/-- Something in a tree that is not a node of a template: a mere value, or an object of any class, with
the place that it tells, if it tells one, and whether it counts as present. -/
inductive Foreign where
  | value (content : Json)
  | object (kind : Text) (place : Option Json) (present : Bool)
deriving DecidableEq, Repr

inductive Node where
  | block (children : List Node) (origin : Origin)
  | tag (opening : Opening) (children : List Node)
  | text (value : Json) (origin : Origin)
  | foreign (content : Foreign)
deriving Repr

instance : Inhabited Node := ⟨.block [] {}⟩

/-! ## Attributes of a tag -/

/-- Whether the attribute has this name. What amounts to no defined number names nothing. -/
def Attr.isNamed (name : Json) (attr : Attr) : Bool :=
  name.amount? != some .undefined && attr.name.agrees name

@[simp] theorem Attr.isNamed_str (name : Text) (attr : Attr) :
    attr.isNamed (.str name) = decide (attr.name = .str name) := by
  rw [Bool.eq_iff_iff, decide_eq_true_iff, ← Json.agrees_str_iff]
  simp [Attr.isNamed, Json.amount?]

def Opening.find? (name : Json) (opening : Opening) : Option Attr :=
  opening.attrs.find? (·.isNamed name)

/-- The opening without the attributes whose names agree with one of these. -/
def Opening.without (names : List Json) (opening : Opening) : Opening :=
  { opening with attrs := opening.attrs.filter fun attr => !names.any attr.name.agrees }

/-! ## Foreign content -/

namespace Foreign

def kind : Foreign → Text
  | .value content => content.kind
  | .object kind _ _ => kind

def place? : Foreign → Option Json
  | .value _ => none
  | .object _ place _ => place

def place (content : Foreign) : Json := content.place?.getD .null

def isPresent : Foreign → Bool
  | .value content => content.isPresent
  | .object _ _ present => present

end Foreign

namespace Node

def place : Node → Json
  | .block _ origin => origin.place
  | .tag opening _ => opening.origin.place
  | .text _ origin => origin.place
  | .foreign content => content.place

def kind : Node → Text
  | .block _ _ => "Block"
  | .tag _ _ => "Tag"
  | .text _ _ => "Text"
  | .foreign content => content.kind

def children? : Node → Option (List Node)
  | .block children _ => some children
  | .tag _ children => some children
  | _ => none

/-! ## Equality -/

mutual

def same : Node → Node → Bool
  | .block children origin, .block children' origin' =>
      sameList children children' && origin == origin'
  | .tag opening children, .tag opening' children' =>
      opening == opening' && sameList children children'
  | .text value origin, .text value' origin' => value == value' && origin == origin'
  | .foreign content, .foreign content' => content == content'
  | _, _ => false

def sameList : List Node → List Node → Bool
  | [], [] => true
  | node :: nodes, node' :: nodes' => same node node' && sameList nodes nodes'
  | _, _ => false

end

mutual

theorem same_iff : ∀ (a b : Node), same a b = true ↔ a = b
  | .block children origin, b => by
      cases b with
      | block children' origin' =>
          simp [same, sameList_iff children children']
      | _ => simp [same]
  | .tag opening children, b => by
      cases b with
      | tag opening' children' =>
          simp [same, sameList_iff children children']
      | _ => simp [same]
  | .text _ _, b => by cases b <;> simp [same]
  | .foreign _, b => by cases b <;> simp [same]

theorem sameList_iff : ∀ (as bs : List Node), sameList as bs = true ↔ as = bs
  | [], bs => by cases bs <;> simp [sameList]
  | a :: as, bs => by
      cases bs with
      | nil => simp [sameList]
      | cons b bs => simp [sameList, same_iff a b, sameList_iff as bs]

end

instance : DecidableEq Node := fun a b => decidable_of_iff (same a b = true) (same_iff a b)

end Node

end TemplateJsx
