import TemplateJsx.Text.Basic

/-!
# Removing escape sequences

An escape sequence is the escape character followed by one character from `@` to `_` other than the
opening bracket, or by an opening bracket, parameter characters, intermediate characters and one
final character. A sequence that is cut short stays in the text.
-/

set_option autoImplicit false

namespace TemplateJsx.Terminal

def escape : CodePoint := '\x1b'

def isBetween (low high : Char) (c : CodePoint) : Bool := low.toNat ≤ c.toNat && c.toNat ≤ high.toNat

def isParameter (c : CodePoint) : Bool := isBetween '0' '?' c

def isIntermediate (c : CodePoint) : Bool := isBetween ' ' '/' c

def isFinal (c : CodePoint) : Bool := isBetween '@' '~' c

def isSingle (c : CodePoint) : Bool := isBetween '@' 'Z' c || isBetween '\\' '_' c

/-- How many of the characters after an escape character belong to its sequence. -/
def sequenceLength? : List CodePoint → Option Nat
  | [] => none
  | c :: cs =>
      if c = '[' then
        let parameters := cs.takeWhile isParameter
        let behind := cs.dropWhile isParameter
        let intermediates := behind.takeWhile isIntermediate
        match behind.dropWhile isIntermediate with
        | [] => none
        | final :: _ =>
            if isFinal final then some (parameters.length + intermediates.length + 2) else none
      else if isSingle c then some 1
      else none

/-- Drops `pending` characters, and then all escape sequences. -/
def stripFrom : Nat → List CodePoint → List CodePoint
  | _, [] => []
  | pending + 1, _ :: cs => stripFrom pending cs
  | 0, c :: cs =>
      if c = escape then
        match sequenceLength? cs with
        | some length => stripFrom length cs
        | none => c :: stripFrom 0 cs
      else c :: stripFrom 0 cs

def strip (s : Text) : Text := Text.ofList (stripFrom 0 s.toList)

end TemplateJsx.Terminal
