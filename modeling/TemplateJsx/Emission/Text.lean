import TemplateJsx.Diagnostic.Fault

/-!
# Emitted text

A text that is one interpolation from end to end loses one pair of braces. Any other text is emitted
as it stands.
-/

set_option autoImplicit false

namespace TemplateJsx

def interpolation? : List CodePoint → Option (List CodePoint)
  | '\x7b' :: '\x7b' :: c :: cs =>
      match cs.reverse with
      | '\x7d' :: '\x7d' :: inner => some (c :: inner.reverse)
      | _ => none
  | _ => none

def emittedText (s : Text) : Text :=
  match interpolation? s.toList with
  | some inner => Text.ofList ('\x7b' :: (inner ++ [.char '\x7d']))
  | none => s

def emitText : Json → Except Fault Text
  | .str s => .ok (emittedText s)
  | _ => .error (.mismatch .textWanted)

end TemplateJsx
