import TemplateJsx.Text.Basic

/-!
# Hexadecimal digits

Numbers of a fixed width in lower-case hexadecimal, and the value of one hexadecimal digit.
-/

set_option autoImplicit false

namespace TemplateJsx.Text

def hexDigit (value : Nat) : Char :=
  if value < 10 then Char.ofNat (0x30 + value) else Char.ofNat (0x61 + (value - 10))

/-- The last `width` hexadecimal digits of a number, most significant first. -/
def hexDigits : Nat → Nat → List Char
  | 0, _ => []
  | width + 1, value => hexDigits width (value / 16) ++ [hexDigit (value % 16)]

/-- A backslash, a letter and a number of a fixed width. -/
def numericEscape (letter : Char) (width value : Nat) : List Char :=
  '\\' :: letter :: hexDigits width value

def hexValue? (c : CodePoint) : Option Nat :=
  let point := c.toNat
  if 0x30 ≤ point ∧ point ≤ 0x39 then some (point - 0x30)
  else if 0x61 ≤ point ∧ point ≤ 0x66 then some (point - 0x61 + 10)
  else if 0x41 ≤ point ∧ point ≤ 0x46 then some (point - 0x41 + 10)
  else none

def hexQuad? (a b c d : CodePoint) : Option Nat := do
  let a ← hexValue? a
  let b ← hexValue? b
  let c ← hexValue? c
  let d ← hexValue? d
  return ((a * 16 + b) * 16 + c) * 16 + d

end TemplateJsx.Text
