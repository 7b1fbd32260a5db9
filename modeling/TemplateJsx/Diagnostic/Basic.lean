import TemplateJsx.Json.Display
import TemplateJsx.Terminal.Style

/-!
# Diagnostics

A diagnostic says what is wrong with a template, where, and what may help. Every kind of complaint
that the compiler itself makes has a code, which leads to its documentation.
-/

set_option autoImplicit false

namespace TemplateJsx

open Terminal

inductive Code where
  | malformedTree
  | unknownDirective
  | invalidDirective
  | invalidBinding
deriving DecidableEq, Repr

namespace Code

def text : Code → String
  | .malformedTree => "P-TRE-001"
  | .unknownDirective => "P-DIR-001"
  | .invalidDirective => "P-DIR-002"
  | .invalidBinding => "P-BND-001"

def category : Code → String
  | .malformedTree => "tree"
  | .unknownDirective => "directive"
  | .invalidDirective => "directive"
  | .invalidBinding => "binding"

def docs (code : Code) : String :=
  "https://pugjsx.readthedocs.io/en/latest/errors.html#" ++ code.text.map Char.toLower

end Code

inductive Complaint where
  /-- A complaint in free words. -/
  | general (message : Text) (hint : Option Text)
  /-- Something of this kind is no node of a template, or is not built as one. -/
  | malformedTree (kind : Text) (reason : Option Text)
  /-- A directive that nobody knows. -/
  | unknownDirective (directive : Json)
  /-- A directive whose value is missing or makes no sense. -/
  | invalidDirective (directive value : Json) (hint : Option Text)
  /-- A bound attribute whose value is no quoted expression. -/
  | invalidBinding (name value : Json)
deriving DecidableEq, Repr

namespace Complaint

def code? : Complaint → Option Code
  | .general _ _ => none
  | .malformedTree _ _ => some .malformedTree
  | .unknownDirective _ => some .unknownDirective
  | .invalidDirective _ _ _ => some .invalidDirective
  | .invalidBinding _ _ => some .invalidBinding

def statedReason? : Option Text → Option Text
  | some reason => if reason.isEmpty then none else some reason
  | none => none

def message : Complaint → Text
  | .general message _ => message
  | .malformedTree kind reason =>
      match statedReason? reason with
      | some reason => "Malformed " ++ Text.literal kind ++ " node: " ++ reason
      | none => "Unknown node type: " ++ Text.literal kind
  | .unknownDirective directive => "Unknown vue directive: " ++ directive.display
  | .invalidDirective directive (.bool _) _ =>
      "Invalid " ++ directive.display ++ ": a value is required"
  | .invalidDirective directive value _ =>
      "Invalid " ++ directive.display ++ " expression: " ++ value.display
  | .invalidBinding name value =>
      "Invalid binding value for " ++ name.literal ++ ": " ++ value.display

def hint? : Complaint → Option Text
  | .general _ hint => hint
  | .malformedTree _ reason =>
      match statedReason? reason with
      | some _ => none
      | none => some "Only Block, Tag and Text nodes can be compiled"
  | .unknownDirective _ => some "Supported directives are v-if, v-for and v-slot:<name>"
  | .invalidDirective _ _ hint => hint
  | .invalidBinding name value =>
      some ("Quote the bound expression: " ++ name.display ++ "=\"" ++ value.display ++ "\"")

end Complaint

/-- A complaint about a place. Without a known place it is null. -/
structure Diagnostic where
  complaint : Complaint
  place : Json := .null
deriving DecidableEq, Repr

namespace Diagnostic

def summary (d : Diagnostic) : Text :=
  if d.place.isPresent then d.complaint.message ++ " (" ++ d.place.display ++ ")"
  else d.complaint.message

end Diagnostic

structure Report where
  code : Option Code := none
  message : Text
  place : Json := .null
  hint : Option Text := none
deriving DecidableEq, Repr

namespace Report

/-- The lines of a report after the first: the place, the hint and the documentation, as far as there
are any. -/
def details (colours : Bool) (report : Report) : List Text :=
  (if report.place.isPresent then
    ["  " ++ emphasize colours .faint "-->" ++ " " ++ emphasize colours .place report.place.display]
  else []) ++
  (match report.hint with
    | some hint =>
        if hint.isEmpty then [] else ["  " ++ emphasize colours .hint "Hint:" ++ " " ++ hint]
    | none => []) ++
  (match report.code with
    | some code => ["  Docs: " ++ emphasize colours .link code.docs]
    | none => [])

def headline (colours : Bool) (report : Report) : Text :=
  match report.code with
  | some code => emphasize colours .code code.text ++ ": " ++ report.message
  | none => report.message

def text (colours : Bool) (report : Report) : Text :=
  Text.intercalate "\n" (report.headline colours :: report.details colours)

end Report

namespace Diagnostic

def toReport (d : Diagnostic) : Report :=
  { code := d.complaint.code?
    message := d.complaint.message
    place := d.place
    hint := d.complaint.hint? }

def report (colours : Bool) (d : Diagnostic) : Text := d.toReport.text colours

end Diagnostic

end TemplateJsx
