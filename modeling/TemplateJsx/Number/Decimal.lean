import TemplateJsx.Text.Basic

/-!
# Decimal digits of natural numbers

Reading and writing natural numbers with the ten ASCII digits.
-/

set_option autoImplicit false

namespace TemplateJsx.Number

def digitChar (value : Nat) : CodePoint := Char.ofNat (0x30 + value)

def isDigit (c : CodePoint) : Bool := 0x30 ≤ c.toNat && c.toNat ≤ 0x39

def digitValue (c : CodePoint) : Nat := c.toNat - 0x30

/-- The digits of a number, most significant first, without leading zeros; zero has one digit. -/
def decimal (n : Nat) : List CodePoint :=
  if n < 10 then [digitChar n] else decimal (n / 10) ++ [digitChar (n % 10)]
termination_by n

/-- The number that the digits spell after `value` has been read. -/
def readDigitsFrom (value : Nat) (digits : List CodePoint) : Nat :=
  digits.foldl (fun value c => value * 10 + digitValue c) value

def readDigits (digits : List CodePoint) : Nat := readDigitsFrom 0 digits

def decimalInt : Int → List CodePoint
  | .ofNat n => decimal n
  | .negSucc n => '-' :: decimal (n + 1)

end TemplateJsx.Number
