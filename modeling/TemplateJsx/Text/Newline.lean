/-!
# Line ends

Text from outside may end its lines with a carriage return, with a line feed or with both. Inside,
every line ends with a line feed.
-/

set_option autoImplicit false

namespace TemplateJsx.Text

def unifyNewlines : List Char → List Char
  | [] => []
  | '\r' :: '\n' :: cs => '\n' :: unifyNewlines cs
  | '\r' :: cs => '\n' :: unifyNewlines cs
  | c :: cs => c :: unifyNewlines cs

def withNewlines (s : String) : String := String.ofList (unifyNewlines s.toList)

end TemplateJsx.Text
