import TemplateJsx.Json.Basic
import TemplateJsx.Text.Hex

/-!
# Writing JSON text

Written text is ASCII: every other character is an escape, and a character outside the basic plane is
a surrogate pair. A layout says whether everything stands on one line, with a blank after each comma,
or every item on a line of its own, indented once for each level.
-/

set_option autoImplicit false

namespace TemplateJsx.Json

open Number Text

inductive Layout where
  | oneLine
  | lines (indent : Text)
deriving DecidableEq, Repr

/-- The layout that indents by a number of blanks; a negative number counts as none. Sizes of indices
and of memory are left out, so no number is too large. -/
def Layout.blanks (width : Int) : Layout :=
  .lines (Text.ofList (List.replicate width.toNat ' '))

def lineStart (indent : Text) (level : Nat) : List CodePoint :=
  '\n' :: (List.replicate level indent.toList).flatten

def Layout.edge (layout : Layout) (level : Nat) : List CodePoint :=
  match layout with
  | .oneLine => []
  | .lines indent => lineStart indent level

def Layout.separator (layout : Layout) (level : Nat) : List CodePoint :=
  match layout with
  | .oneLine => [',', ' ']
  | .lines indent => ',' :: lineStart indent level

def unitEscape (unit : Nat) : List CodePoint := (numericEscape 'u' 4 unit).map .char

def stringChar (c : CodePoint) : List CodePoint :=
  if c = '\x22' then ['\\', '\x22']
  else if c = '\\' then ['\\', '\\']
  else if c = '\n' then ['\\', 'n']
  else if c = '\r' then ['\\', 'r']
  else if c = '\t' then ['\\', 't']
  else if c = '\x0c' then ['\\', 'f']
  else if c = '\x08' then ['\\', 'b']
  else if 0x20 ≤ c.toNat ∧ c.toNat ≤ 0x7E then [c]
  else if c.toNat ≤ 0xFFFF then unitEscape c.toNat
  else
    let above := c.toNat - 0x10000
    unitEscape (0xD800 + above / 0x400) ++ unitEscape (0xDC00 + above % 0x400)

def stringChars (s : Text) : List CodePoint :=
  '\x22' :: (s.toList.flatMap stringChar ++ [.char '\x22'])

mutual

def chars (layout : Layout) (level : Nat) : Json → List CodePoint
  | .null => ['n', 'u', 'l', 'l']
  | .bool true => ['t', 'r', 'u', 'e']
  | .bool false => ['f', 'a', 'l', 's', 'e']
  | .int value => decimalInt value
  | .float value => (value.text "NaN" "Infinity").toList
  | .str value => stringChars value
  | .arr [] => ['[', ']']
  | .arr (item :: items) =>
      '[' :: (layout.edge (level + 1) ++ (chars layout (level + 1) item ++
        (itemsTail layout (level + 1) items ++ (layout.edge level ++ [.char ']']))))
  | .obj [] => ['\x7b', '\x7d']
  | .obj ((key, value) :: members) =>
      '\x7b' :: (layout.edge (level + 1) ++ (stringChars key ++ (.char ':' :: .char ' ' ::
        (chars layout (level + 1) value ++
          (membersTail layout (level + 1) members ++ (layout.edge level ++ [.char '\x7d']))))))

def itemsTail (layout : Layout) (level : Nat) : List Json → List CodePoint
  | [] => []
  | item :: items =>
      layout.separator level ++ (chars layout level item ++ itemsTail layout level items)

def membersTail (layout : Layout) (level : Nat) : List (Text × Json) → List CodePoint
  | [] => []
  | (key, value) :: members =>
      layout.separator level ++ (stringChars key ++ (.char ':' :: .char ' ' ::
        (chars layout level value ++ membersTail layout level members)))

end

def print (layout : Layout) (value : Json) : Text := Text.ofList (chars layout 0 value)

end TemplateJsx.Json
