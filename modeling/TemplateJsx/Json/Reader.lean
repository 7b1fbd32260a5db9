import TemplateJsx.Json.Basic
import TemplateJsx.Text.Hex
import TemplateJsx.Text.Search

/-!
# Reading JSON text

The reader takes one value with blanks around it and nothing else. Beyond the standard it takes the
words `NaN`, `Infinity` and `-Infinity`, and of members with the same key the last one counts. What
it refuses is reported with the place of the first character that does not fit.

The functions here work on the code points still to be read and return those that are left. A failure
carries the number of code points left at the place it speaks of.
-/

set_option autoImplicit false

namespace TemplateJsx.Json

open Number Text

inductive Problem where
  | value
  | propertyName
  | colon
  | comma
  | extraData
  | unterminatedString
  | controlCharacter
  | escape
  | unicodeEscape
  | byteOrderMark
deriving DecidableEq, Repr

def Problem.message : Problem → String
  | .value => "Expecting value"
  | .propertyName => "Expecting property name enclosed in double quotes"
  | .colon => "Expecting ':' delimiter"
  | .comma => "Expecting ',' delimiter"
  | .extraData => "Extra data"
  | .unterminatedString => "Unterminated string starting at"
  | .controlCharacter => "Invalid control character at"
  | .escape => "Invalid \\escape"
  | .unicodeEscape => "Invalid \\uXXXX escape"
  | .byteOrderMark => "Unexpected UTF-8 BOM (decode using utf-8-sig)"

structure Failure where
  problem : Problem
  left : Nat
deriving DecidableEq, Repr

abbrev Reading (α : Type) := Except Failure (α × List CodePoint)

def isBlank (c : CodePoint) : Bool := c = ' ' || c = '\t' || c = '\n' || c = '\r'

def skipBlanks (cs : List CodePoint) : List CodePoint := cs.dropWhile isBlank

/-! ## Strings -/

def simpleEscape? (c : CodePoint) : Option CodePoint :=
  if c = '\x22' then some '\x22'
  else if c = '\\' then some '\\'
  else if c = '/' then some '/'
  else if c = 'b' then some '\x08'
  else if c = 'f' then some '\x0c'
  else if c = 'n' then some '\n'
  else if c = 'r' then some '\r'
  else if c = 't' then some '\t'
  else none

def isHighSurrogate (unit : Nat) : Bool := 0xD800 ≤ unit && unit ≤ 0xDBFF

def isLowSurrogate (unit : Nat) : Bool := 0xDC00 ≤ unit && unit ≤ 0xDFFF

def joinSurrogates (high low : Nat) : Nat := 0x10000 + (high - 0xD800) * 0x400 + (low - 0xDC00)

/-- A part of a string: a code point, or a code unit that was written as an escape. -/
inductive StringPart where
  | plain (c : CodePoint)
  | unit (value : Nat)
deriving DecidableEq, Repr

/-- Two escapes in a row that are a surrogate pair make one character. Every other surrogate stays in
the string. -/
def joinParts : List StringPart → List CodePoint
  | [] => []
  | .plain c :: parts => c :: joinParts parts
  | .unit high :: .unit low :: parts =>
      if isHighSurrogate high && isLowSurrogate low then
        Char.ofNat (joinSurrogates high low) :: joinParts parts
      else CodePoint.ofNat high :: joinParts (.unit low :: parts)
  | .unit value :: parts => CodePoint.ofNat value :: joinParts parts

/-- Reads the rest of a string after its opening quote. `opening` is the number of code points left at
that quote, and `reversed` holds the parts that have been read, last part first. -/
def readString (opening : Nat) (reversed : List StringPart) : List CodePoint → Reading Text
  | [] => .error ⟨.unterminatedString, opening⟩
  | '\x22' :: rest => .ok (Text.ofList (joinParts reversed.reverse), rest)
  | '\\' :: [] => .error ⟨.unterminatedString, opening⟩
  | '\\' :: 'u' :: a :: b :: c :: d :: rest =>
      match hexQuad? a b c d, rest.isEmpty with
      | some value, false => readString opening (.unit value :: reversed) rest
      | _, _ => .error ⟨.unicodeEscape, rest.length + 5⟩
  | '\\' :: c :: rest =>
      if c = 'u' then .error ⟨.unicodeEscape, rest.length + 1⟩
      else
        match simpleEscape? c with
        | some meant => readString opening (.plain meant :: reversed) rest
        | none => .error ⟨.escape, rest.length + 2⟩
  | c :: rest =>
      if c.toNat ≤ 0x1F then .error ⟨.controlCharacter, rest.length + 1⟩
      else readString opening (.plain c :: reversed) rest

/-! ## Numbers and words -/

def spanDigits (cs : List CodePoint) : List CodePoint × List CodePoint :=
  (cs.takeWhile isDigit, cs.dropWhile isDigit)

def readWhole? : List CodePoint → Option (List CodePoint × List CodePoint)
  | [] => none
  | c :: rest =>
      if c = '0' then some ([c], rest)
      else if isDigit c then some (spanDigits (c :: rest))
      else none

def readFraction : List CodePoint → List CodePoint × List CodePoint
  | '.' :: c :: rest => if isDigit c then spanDigits (c :: rest) else ([], '.' :: c :: rest)
  | cs => ([], cs)

def readExponentSign : List CodePoint → Bool × List CodePoint
  | '-' :: rest => (true, rest)
  | '+' :: rest => (false, rest)
  | cs => (false, cs)

/-- The power of ten after the mark of an exponent. Without a digit there is no exponent. -/
def readExponent : List CodePoint → Option Int × List CodePoint
  | [] => (none, [])
  | mark :: rest =>
      if mark = 'e' ∨ mark = 'E' then
        let (negative, unsigned) := readExponentSign rest
        match spanDigits unsigned with
        | ([], _) => (none, mark :: rest)
        | (digits, rest) =>
            let size : Int := readDigits digits
            (some (if negative then -size else size), rest)
      else (none, mark :: rest)

/-- A number without its sign. A fraction or an exponent makes it a binary number. A whole number may
have any number of digits: no limit on the digits that are converted is kept here. -/
def readMagnitude? (negative : Bool) (cs : List CodePoint) : Option (Json × List CodePoint) :=
  match readWhole? cs with
  | none => none
  | some (whole, rest) =>
      let (fraction, rest) := readFraction rest
      let (exponent, rest) := readExponent rest
      match fraction, exponent with
      | [], none =>
          let size : Int := readDigits whole
          some (.int (if negative then -size else size), rest)
      | _, _ =>
          let power := exponent.getD 0 - fraction.length
          some (.float (Binary64.ofDecimal negative (readDigits (whole ++ fraction)) power), rest)

def readNumber? : List CodePoint → Option (Json × List CodePoint)
  | '-' :: rest => readMagnitude? true rest
  | cs => readMagnitude? false cs

/-- The values that are words. None of the words begins with another. -/
def words : List (Text × Json) :=
  [("null", .null), ("true", .bool true), ("false", .bool false), ("NaN", .float .nan),
    ("Infinity", .float (.infinite false)), ("-Infinity", .float (.infinite true))]

def readWord? (cs : List CodePoint) : Option (Json × List CodePoint) :=
  words.findSome? fun (word, value) => (after? word.toList cs).map fun rest => (value, rest)

def readScalar (cs : List CodePoint) : Reading Json :=
  match readWord? cs with
  | some found => .ok found
  | none =>
      match readNumber? cs with
      | some found => .ok found
      | none => .error ⟨.value, cs.length⟩

/-! ## Values -/

mutual

/-- Reads one value. The first argument bounds the number of steps. -/
def readValue : Nat → List CodePoint → Reading Json
  | 0, cs => .error ⟨.value, cs.length⟩
  | steps + 1, cs =>
      match cs with
      | '\x22' :: rest =>
          match readString cs.length [] rest with
          | .error failure => .error failure
          | .ok (value, rest) => .ok (.str value, rest)
      | '[' :: rest =>
          match skipBlanks rest with
          | ']' :: rest => .ok (.arr [], rest)
          | rest =>
              match readItems steps rest with
              | .error failure => .error failure
              | .ok (items, rest) => .ok (.arr items, rest)
      | '\x7b' :: rest =>
          match skipBlanks rest with
          | '\x7d' :: rest => .ok (.obj [], rest)
          | rest =>
              match readMembers steps rest with
              | .error failure => .error failure
              | .ok (members, rest) => .ok (.obj members, rest)
      | cs => readScalar cs

def readItems : Nat → List CodePoint → Reading (List Json)
  | 0, cs => .error ⟨.value, cs.length⟩
  | steps + 1, cs =>
      match readValue steps cs with
      | .error failure => .error failure
      | .ok (item, rest) =>
          match skipBlanks rest with
          | ']' :: rest => .ok ([item], rest)
          | ',' :: rest =>
              match readItems steps (skipBlanks rest) with
              | .error failure => .error failure
              | .ok (items, rest) => .ok (item :: items, rest)
          | rest => .error ⟨.comma, rest.length⟩

def readMembers : Nat → List CodePoint → Reading (List (Text × Json))
  | 0, cs => .error ⟨.value, cs.length⟩
  | steps + 1, cs =>
      match cs with
      | '\x22' :: rest =>
          match readString cs.length [] rest with
          | .error failure => .error failure
          | .ok (key, rest) =>
              match skipBlanks rest with
              | ':' :: rest =>
                  match readValue steps (skipBlanks rest) with
                  | .error failure => .error failure
                  | .ok (value, rest) =>
                      match skipBlanks rest with
                      | '\x7d' :: rest => .ok ([(key, value)], rest)
                      | ',' :: rest =>
                          match readMembers steps (skipBlanks rest) with
                          | .error failure => .error failure
                          | .ok (members, rest) => .ok (prepend key value members, rest)
                      | rest => .error ⟨.comma, rest.length⟩
              | rest => .error ⟨.colon, rest.length⟩
      | cs => .error ⟨.propertyName, cs.length⟩

end

/-- More steps than reading the characters can take: between two steps that take a character there
is at most one that takes none. -/
def stepBound (cs : List CodePoint) : Nat := 2 * cs.length + 2

def readDocument (cs : List CodePoint) : Except Failure Json :=
  match cs with
  | '\uFEFF' :: _ => .error ⟨.byteOrderMark, cs.length⟩
  | _ =>
      match readValue (stepBound cs) (skipBlanks cs) with
      | .error failure => .error failure
      | .ok (value, rest) =>
          match skipBlanks rest with
          | [] => .ok value
          | rest => .error ⟨.extraData, rest.length⟩

/-! ## Places in the text -/

/-- A problem with the place where it was met: the characters before it, and its line and column,
which count from one. -/
structure ReadError where
  problem : Problem
  line : Nat
  column : Nat
  offset : Nat
deriving DecidableEq, Repr

def ReadError.message (e : ReadError) : String :=
  s!"{e.problem.message}: line {e.line} column {e.column} (char {e.offset})"

def Failure.locate (cs : List CodePoint) (failure : Failure) : ReadError :=
  let offset := cs.length - failure.left
  let before := cs.take offset
  { problem := failure.problem
    line := before.count (.char '\n') + 1
    column := (before.reverse.takeWhile (· ≠ .char '\n')).length + 1
    offset }

def read (s : Text) : Except ReadError Json :=
  match readDocument s.toList with
  | .ok value => .ok value
  | .error failure => .error (failure.locate s.toList)

end TemplateJsx.Json
