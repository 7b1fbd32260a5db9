import TemplateJsx.Number.Binary64

/-!
# Amounts

What a number amounts to, whether it is kept as a whole number or as a binary one. Numbers of both
kinds are compared by their amounts, exactly and without rounding.
-/

set_option autoImplicit false

namespace TemplateJsx.Number

inductive Amount where
  | undefined
  | infinite (negative : Bool)
  | rational (value : Rat)
deriving DecidableEq

def Amount.ofInt (n : Int) : Amount := .rational (mkRat n 1)

/-- The amount of a binary number. The zeros of both signs amount to the same. -/
def Binary64.amount : Binary64 → Amount
  | .nan => .undefined
  | .infinite negative => .infinite negative
  | .finite negative significand exponent =>
      let (numerator, denominator) := scaleDown 2 significand 1 (-exponent)
      let signed : Int := if negative then -(numerator : Int) else numerator
      .rational (mkRat signed denominator)

end TemplateJsx.Number
