import TemplateJsx.Text.Basic

/-!
# Quoted values

An attribute value is written with its quotes. Removing them yields the expression inside; a value
that is not wrapped in one pair of equal quotes stands for itself.
-/

set_option autoImplicit false

namespace TemplateJsx.Text

/-- What precedes a closing `quote` at the end. One line feed may follow the quote. -/
def beforeClosing? (quote : CodePoint) (cs : List CodePoint) : Option (List CodePoint) :=
  match cs.reverse with
  | [] => none
  | last :: inner =>
      if last = quote then some inner.reverse
      else if last = '\n' then
        match inner with
        | [] => none
        | c :: inner => if c = quote then some inner.reverse else none
      else none

def quotation? : List CodePoint → Option (List CodePoint)
  | [] => none
  | quote :: rest =>
      if quote = '\x22' ∨ quote = '\x27' then beforeClosing? quote rest else none

/-- Removes one pair of equal quotes around the whole text, if there is one. -/
def unquote (s : Text) : Text :=
  match quotation? s.toList with
  | some inner => ofList inner
  | none => s

end TemplateJsx.Text
