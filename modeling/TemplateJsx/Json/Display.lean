import TemplateJsx.Json.Basic
import TemplateJsx.Text.Literal

/-!
# Values in messages

A value inside a message or in emitted text: a string stands as it is, everything else by its
literal, and the strings inside arrays and objects are literals too.
-/

set_option autoImplicit false

namespace TemplateJsx.Json

open Number

mutual

def literal : Json → Text
  | .null => "None"
  | .bool true => "True"
  | .bool false => "False"
  | .int value => Text.ofList (decimalInt value)
  | .float value => value.text "nan" "inf"
  | .str value => Text.literal value
  | .arr items => "[" ++ Text.intercalate ", " (itemLiterals items) ++ "]"
  | .obj members => "\x7b" ++ Text.intercalate ", " (memberLiterals members) ++ "\x7d"

def itemLiterals : List Json → List Text
  | [] => []
  | item :: items => literal item :: itemLiterals items

def memberLiterals : List (Text × Json) → List Text
  | [] => []
  | (key, value) :: members =>
      (Text.literal key ++ ": " ++ literal value) :: memberLiterals members

end

def display : Json → Text
  | .str value => value
  | value => literal value

end TemplateJsx.Json
