import TemplateJsx.Text.Basic

/-!
# Searching in texts

Leading pieces, the last place of a separator, and splitting at every occurrence of an item.
-/

set_option autoImplicit false

namespace TemplateJsx.Text

/-- What follows the leading piece `lead`, when the code points begin with it. -/
def after? : List CodePoint → List CodePoint → Option (List CodePoint)
  | [], cs => some cs
  | _ :: _, [] => none
  | l :: lead, c :: cs => if l = c then after? lead cs else none

def startsWith (lead s : Text) : Bool := (after? lead.toList s.toList).isSome

/-- What stands before and after the last occurrence of `separator` that leaves something behind
it. -/
def splitAtLast? (separator : List CodePoint) :
    List CodePoint → Option (List CodePoint × List CodePoint)
  | [] => none
  | c :: cs =>
      match splitAtLast? separator cs with
      | some (before, rest) => some (c :: before, rest)
      | none =>
          match after? separator (c :: cs) with
          | some (d :: rest) => some ([], d :: rest)
          | _ => none

/-- The pieces between the occurrences of `separator`. There is always at least one piece. -/
def pieces {α : Type} [DecidableEq α] (separator : α) : List α → List (List α)
  | [] => [[]]
  | c :: cs =>
      if c = separator then [] :: pieces separator cs
      else
        match pieces separator cs with
        | [] => [[c]]
        | piece :: rest => (c :: piece) :: rest

end TemplateJsx.Text
