import TemplateJsx.Number.Binary64

/-!
# JSON values

Values keep what a text says: whole numbers are apart from numbers with a fraction or an exponent,
and an object is the list of its members in the order in which their keys first appear.
-/

set_option autoImplicit false

namespace TemplateJsx

inductive Json where
  | null
  | bool (value : Bool)
  | int (value : Int)
  | float (value : Number.Binary64)
  | str (value : Text)
  | arr (items : List Json)
  | obj (members : List (Text × Json))
deriving Inhabited, Repr

namespace Json

def lookup? (key : Text) : List (Text × Json) → Option Json
  | [] => none
  | (name, value) :: members => if name = key then some value else lookup? key members

def without (key : Text) : List (Text × Json) → List (Text × Json)
  | [] => []
  | (name, value) :: members =>
      if name = key then without key members else (name, value) :: without key members

/-- Puts a member before the others. If its key appears among them, the later value counts. -/
def prepend (key : Text) (value : Json) (members : List (Text × Json)) :
    List (Text × Json) :=
  match lookup? key members with
  | some later => (key, later) :: without key members
  | none => (key, value) :: members

/-- Whether a value counts as present: null, false, zero and everything empty do not. -/
def isPresent : Json → Bool
  | .null => false
  | .bool value => value
  | .int value => value != 0
  | .float value => !value.isZero
  | .str value => !value.isEmpty
  | .arr items => !items.isEmpty
  | .obj members => !members.isEmpty

def kind : Json → Text
  | .null => "NoneType"
  | .bool _ => "bool"
  | .int _ => "int"
  | .float _ => "float"
  | .str _ => "str"
  | .arr _ => "list"
  | .obj _ => "dict"

/-! ## Equality -/

mutual

def same : Json → Json → Bool
  | .null, .null => true
  | .bool a, .bool b => a == b
  | .int a, .int b => a == b
  | .float a, .float b => a == b
  | .str a, .str b => a == b
  | .arr a, .arr b => sameItems a b
  | .obj a, .obj b => sameMembers a b
  | _, _ => false

def sameItems : List Json → List Json → Bool
  | [], [] => true
  | a :: as, b :: bs => same a b && sameItems as bs
  | _, _ => false

def sameMembers : List (Text × Json) → List (Text × Json) → Bool
  | [], [] => true
  | (k, a) :: as, (l, b) :: bs => k == l && same a b && sameMembers as bs
  | _, _ => false

end

mutual

theorem same_iff : ∀ (a b : Json), same a b = true ↔ a = b
  | .null, b => by cases b <;> simp [same]
  | .bool _, b => by cases b <;> simp [same]
  | .int _, b => by cases b <;> simp [same]
  | .float _, b => by cases b <;> simp [same]
  | .str _, b => by cases b <;> simp [same]
  | .arr items, b => by
      cases b <;> simp [same]
      exact sameItems_iff _ _
  | .obj members, b => by
      cases b <;> simp [same]
      exact sameMembers_iff _ _

theorem sameItems_iff : ∀ (as bs : List Json), sameItems as bs = true ↔ as = bs
  | [], bs => by cases bs <;> simp [sameItems]
  | a :: as, bs => by
      cases bs with
      | nil => simp [sameItems]
      | cons b bs => simp [sameItems, same_iff a b, sameItems_iff as bs]

theorem sameMembers_iff :
    ∀ (as bs : List (Text × Json)), sameMembers as bs = true ↔ as = bs
  | [], bs => by cases bs <;> simp [sameMembers]
  | (k, a) :: as, bs => by
      cases bs with
      | nil => simp [sameMembers]
      | cons head bs =>
          obtain ⟨l, b⟩ := head
          simp [sameMembers, same_iff a b, sameMembers_iff as bs]

end

instance : DecidableEq Json := fun a b => decidable_of_iff (same a b = true) (same_iff a b)

end Json

end TemplateJsx
