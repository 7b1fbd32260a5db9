import TemplateJsx.Json.Basic
import TemplateJsx.Number.Amount

/-!
# Agreement of values

Two values agree when they mean the same, however they are kept: numbers by their amounts, where a
flag counts as one or zero, arrays item by item, and objects key by key in any order. Strings agree
only when they are equal.
-/

set_option autoImplicit false

namespace TemplateJsx.Json

open Number

def amount? : Json → Option Amount
  | .bool flag => some (.ofInt (if flag then 1 else 0))
  | .int n => some (.ofInt n)
  | .float x => some x.amount
  | _ => none

mutual

def agrees : Json → Json → Bool
  | .null, .null => true
  | .str a, .str b => a == b
  | .arr a, .arr b => agreeItems a b
  | .obj a, .obj b => a.length == b.length && agreeMembers a b
  | .bool a, b => decide ((Json.bool a).amount? = b.amount?)
  | .int a, b => decide ((Json.int a).amount? = b.amount?)
  | .float a, b => decide ((Json.float a).amount? = b.amount?)
  | _, _ => false

def agreeItems : List Json → List Json → Bool
  | [], [] => true
  | a :: as, b :: bs => agrees a b && agreeItems as bs
  | _, _ => false

def agreeMembers : List (Text × Json) → List (Text × Json) → Bool
  | [], _ => true
  | (key, value) :: members, others =>
      (match lookup? key others with
        | some other => agrees value other
        | none => false) && agreeMembers members others

end

@[simp] theorem agrees_str (a b : Text) : agrees (.str a) (.str b) = (a == b) := by
  simp [agrees]

theorem agrees_str_iff (value : Json) (s : Text) :
    value.agrees (.str s) = true ↔ value = .str s := by
  cases value <;> simp [agrees, amount?]

end TemplateJsx.Json
