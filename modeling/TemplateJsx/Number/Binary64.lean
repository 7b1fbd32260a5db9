import TemplateJsx.Number.Decimal

/-!
# Binary floating-point numbers

Numbers with a fraction or an exponent are binary64 numbers. They are kept exactly, as a significand
times a power of two. A decimal is read as the nearest such number, a tie going to the even
significand, and a number is written with the fewest digits that read back as itself.
-/

set_option autoImplicit false

namespace TemplateJsx.Number

/-- A binary64 number. A finite one is `significand * 2 ^ exponent` with its sign, where the
exponent is at least `-1074` and the significand is below `2 ^ 53`, and not below `2 ^ 52` unless
the exponent is least. -/
inductive Binary64 where
  | nan
  | infinite (negative : Bool)
  | finite (negative : Bool) (significand : Nat) (exponent : Int)
deriving DecidableEq, Repr

namespace Binary64

def leastExponent : Int := -1074

def greatestExponent : Int := 971

def significandBound : Nat := 9007199254740992

def isZero : Binary64 → Bool
  | .finite _ 0 _ => true
  | _ => false

def scaleDown (base numerator denominator : Nat) (exponent : Int) : Nat × Nat :=
  match exponent with
  | .ofNat n => (numerator, denominator * base.pow n)
  | .negSucc n => (numerator * base.pow (n + 1), denominator)

/-- A quotient rounded to the nearest natural number, a tie going to the even one. -/
def roundQuotient (numerator denominator : Nat) : Nat :=
  let quotient := numerator / denominator
  let twice := 2 * (numerator % denominator)
  if twice < denominator then quotient
  else if denominator < twice then quotient + 1
  else if quotient % 2 = 0 then quotient
  else quotient + 1

def exponentOf (numerator denominator : Nat) : Int :=
  let guess : Int := (numerator.log2 : Int) - (denominator.log2 : Int) - 52
  let (n, d) := scaleDown 2 numerator denominator guess
  let exponent := if n < d * (significandBound / 2) then guess - 1 else guess
  if exponent < leastExponent then leastExponent else exponent

def ofFraction (negative : Bool) (numerator denominator : Nat) : Binary64 :=
  let exponent := exponentOf numerator denominator
  let (n, d) := scaleDown 2 numerator denominator exponent
  let significand := roundQuotient n d
  let (significand, exponent) :=
    if significand = significandBound then (significandBound / 2, exponent + 1)
    else (significand, exponent)
  if greatestExponent < exponent then .infinite negative
  else .finite negative significand exponent

/-- The binary64 number nearest to `digits * 10 ^ exponent`. Decimals whose leading digit stands far
outside the range of finite numbers are settled without computing the power. -/
def ofDecimal (negative : Bool) (digits : Nat) (exponent : Int) : Binary64 :=
  if digits = 0 then .finite negative 0 leastExponent
  else
    let magnitude := exponent + (decimal digits).length
    if 400 < magnitude then .infinite negative
    else if magnitude < -400 then .finite negative 0 leastExponent
    else
      let (numerator, denominator) := scaleDown 10 digits 1 (-exponent)
      ofFraction negative numerator denominator

/-! ## The fewest digits -/

structure Scientific where
  digits : Nat
  exponent : Int
deriving DecidableEq, Repr

def Scientific.trim : Nat → Scientific → Scientific
  | 0, decimal => decimal
  | limit + 1, decimal =>
      if decimal.digits % 10 = 0 then
        Scientific.trim limit ⟨decimal.digits / 10, decimal.exponent + 1⟩
      else decimal

def reads (significand : Nat) (exponent : Int) (candidate : Scientific) : Bool :=
  ofDecimal false candidate.digits candidate.exponent == .finite false significand exponent

/-- The decimal with its last digit at `10 ^ place` that reads back as the given positive number and
is nearest to it, if one of its two neighbours there does. Of two equally near ones the even one is
taken. -/
def nearestAt? (significand : Nat) (exponent place : Int) : Option Scientific :=
  let (n, d) := scaleDown 2 significand 1 (-exponent)
  let (n, d) := scaleDown 10 n d place
  let below := n / d
  let twice := 2 * (n % d)
  let lower : Scientific := ⟨below, place⟩
  let upper : Scientific := ⟨below + 1, place⟩
  let lowerFirst := twice < d || (twice == d && below % 2 == 0)
  let (first, second) := if lowerFirst then (lower, upper) else (upper, lower)
  if reads significand exponent first then some first
  else if reads significand exponent second then some second
  else none

def searchPlaces (significand : Nat) (exponent : Int) : Nat → Int → Option Scientific
  | 0, _ => none
  | limit + 1, place =>
      match nearestAt? significand exponent place with
      | some found => some found
      | none => searchPlaces significand exponent limit (place - 1)

/-- The decimal with the fewest digits that reads back as the positive number
`significand * 2 ^ exponent`. The search begins above the leading digit; seventeen digits always
suffice. -/
def shortest (significand : Nat) (exponent : Int) : Scientific :=
  let (n, d) := scaleDown 2 significand 1 (-exponent)
  let leading : Int := ((decimal n).length : Int) - ((decimal d).length : Int) + 1
  match searchPlaces significand exponent 22 leading with
  | some found => found.trim 400
  | none => ⟨0, 0⟩

/-! ## Text -/

def positional (digits : List CodePoint) (point : Int) : List CodePoint :=
  match point with
  | .negSucc n => .char '0' :: .char '.' :: List.replicate (n + 1) (.char '0') ++ digits
  | .ofNat 0 => '0' :: '.' :: digits
  | .ofNat n =>
      if digits.length ≤ n then
        digits ++ List.replicate (n - digits.length) (.char '0') ++ [.char '.', .char '0']
      else digits.take n ++ .char '.' :: digits.drop n

/-- Digits with a point after the first and a power of ten, whose exponent has a sign and at least
two digits. -/
def exponential (digits : List CodePoint) (power : Int) : List CodePoint :=
  let mantissa :=
    match digits with
    | first :: second :: rest => first :: .char '.' :: second :: rest
    | few => few
  let size := decimal power.natAbs
  let padded := if size.length < 2 then .char '0' :: size else size
  mantissa ++ .char 'e' :: .char (if power < 0 then '-' else '+') :: padded

/-- The text of a finite number without its sign: the fewest digits that read back, positional for
powers of ten from `-4` to `15` and with an exponent otherwise. -/
def magnitudeText (significand : Nat) (exponent : Int) : List CodePoint :=
  if significand = 0 then ['0', '.', '0']
  else
    let found := shortest significand exponent
    let digits := decimal found.digits
    let point := found.exponent + digits.length
    if -4 < point ∧ point ≤ 16 then positional digits point
    else exponential digits (point - 1)

def text (nanWord infinityWord : Text) : Binary64 → Text
  | .nan => nanWord
  | .infinite false => infinityWord
  | .infinite true => "-" ++ infinityWord
  | .finite negative significand exponent =>
      Text.ofList ((if negative then [.char '-'] else []) ++ magnitudeText significand exponent)

end Binary64

end TemplateJsx.Number
