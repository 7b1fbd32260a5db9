import TemplateJsx.Spelling
import TemplateJsx.Text.Quotation
import TemplateJsx.Tree.Basic
import TemplateJsx.Diagnostic.Fault

/-!
# Directives

A directive is an attribute that decides how often, when or as which slot its tag appears: a
condition, a loop over the items of an iterable, or the content of a named slot.
-/

set_option autoImplicit false

namespace TemplateJsx

structure Loop where
  binder : Text
  iterable : Text
deriving DecidableEq, Repr

inductive Directive where
  | conditional (condition : Text)
  | iteration (loop : Loop)
  | slot (name arguments : Text)
deriving DecidableEq, Repr

/-! ## Loops -/

/-- Both forms of a loop leave as long a left side as possible. The one with parentheses is tried
first. -/
def parenthesizedLoop? : List CodePoint → Option (List CodePoint × List CodePoint)
  | '(' :: c :: cs =>
      match Text.splitAtLast? [')', ' ', 'i', 'n', ' '] cs with
      | some (left, right) => some (c :: left, right)
      | none => none
  | _ => none

def plainLoop? : List CodePoint → Option (List CodePoint × List CodePoint)
  | [] => none
  | c :: cs =>
      match Text.splitAtLast? [' ', 'i', 'n', ' '] cs with
      | some (left, right) => some (c :: left, right)
      | none => none

def loopSides? (cs : List CodePoint) : Option (List CodePoint × List CodePoint) :=
  match parenthesizedLoop? cs with
  | some sides => some sides
  | none => plainLoop? cs

def Loop.ofExpression? (expression : Text) : Option Loop :=
  match loopSides? expression.toList with
  | some (binder, iterable) => some ⟨Text.ofList binder, Text.ofList iterable⟩
  | none => none

/-! ## Recognition -/

/-- The place that a node lends to its attributes. Foreign content that does not count as present lends
none. -/
def Node.owner? : Node → Option Json
  | .foreign content => if content.isPresent then some content.place else none
  | node => some node.place

/-- The place of a node by itself. Foreign content may have none to tell. -/
def Node.ownPlace : Node → Except Fault Json
  | .foreign content =>
      match content.place? with
      | some place => .ok place
      | none => .error (.mismatch .nodeWanted)
  | node => .ok node.place

/-- The place that is blamed for an attribute: that of its owner, when there is one. -/
def Attr.blamed (attr : Attr) (owner : Option Json) : Json := owner.getD attr.origin.place

def Json.unquoted : Json → Except Fault Text
  | .str value => .ok (Text.unquote value)
  | _ => .error (.mismatch .textWanted)

def Attr.expression (attr : Attr) (owner : Option Json) : Except Fault Text :=
  match attr.value with
  | .bool flag =>
      .error (.complain (.invalidDirective attr.name (.bool flag) none) (attr.blamed owner))
  | value => value.unquoted

def loopHint : Text := "v-for expects \"item in items\" or \"(item, index) in items\""

def Attr.loop (attr : Attr) (owner : Option Json) : Except Fault Loop :=
  match attr.expression owner with
  | .error fault => .error fault
  | .ok expression =>
      match Loop.ofExpression? expression with
      | some loop => .ok loop
      | none =>
          .error (.complain (.invalidDirective attr.name attr.value (some loopHint))
            (attr.blamed owner))

/-- What the name of an attribute says after the piece `lead`, when it begins with it. -/
def Attr.nameAfter? (lead : Text) (attr : Attr) : Except Fault (Option Text) :=
  match attr.name with
  | .str name => .ok ((Text.after? lead.toList name.toList).map Text.ofList)
  | _ => .error (.mismatch .attrNameWanted)

def Attr.slotArguments (attr : Attr) : Except Fault Text :=
  match attr.value with
  | .bool _ => .ok ""
  | value => value.unquoted

/-- Understands an attribute as a directive. `owner` is the place of its tag. -/
def Directive.ofAttr (spelling : Spelling) (attr : Attr) (owner : Option Json) :
    Except Fault Directive :=
  match attr.nameAfter? (spelling.slotDirective ++ ":") with
  | .error fault => .error fault
  | .ok (some name) =>
      match attr.slotArguments with
      | .error fault => .error fault
      | .ok arguments => .ok (.slot name arguments)
  | .ok none =>
      if attr.isNamed (.str spelling.ifDirective) then
        match attr.expression owner with
        | .error fault => .error fault
        | .ok condition => .ok (.conditional condition)
      else if attr.isNamed (.str spelling.forDirective) then
        match attr.loop owner with
        | .error fault => .error fault
        | .ok loop => .ok (.iteration loop)
      else .error (.complain (.unknownDirective attr.name) (attr.blamed owner))

/-! ## Slot names -/

def dynamicSlot? (name : Text) : Option Text :=
  match name.toList with
  | '[' :: cs =>
      match cs.reverse with
      | ']' :: inner => some (Text.ofList inner.reverse)
      | _ => none
  | _ => none

def slotKey (name : Text) : Text :=
  match dynamicSlot? name with
  | some expression => expression
  | none => "\"" ++ name ++ "\""

/-! ## Directives on a tag -/

def Attr.findLead? (lead : Text) : List Attr → Except Fault (Option Attr)
  | [] => .ok none
  | attr :: attrs =>
      match attr.nameAfter? lead with
      | .error fault => .error fault
      | .ok (some _) => .ok (some attr)
      | .ok none => Attr.findLead? lead attrs

namespace Opening

/-- The first attribute whose name begins with a piece. A piece that is no text fits no name, and
asking for it is a mismatch as soon as there is a name to compare it with. -/
def findLead? (lead : Json) (opening : Opening) : Except Fault (Option Attr) :=
  match lead, opening.attrs with
  | .str piece, attrs => Attr.findLead? piece attrs
  | _, [] => .ok none
  | _, attr :: _ =>
      match attr.name with
      | .str _ => .error (.mismatch .textWanted)
      | _ => .error (.mismatch .attrNameWanted)

def slotAttr? (spelling : Spelling) (opening : Opening) : Except Fault (Option Attr) :=
  Attr.findLead? spelling.slotDirective opening.attrs

/-- The attribute that is expanded first where the tag stands: a condition before a loop. -/
def structural? (spelling : Spelling) (opening : Opening) : Option Attr :=
  match opening.find? (.str spelling.ifDirective) with
  | some attr => some attr
  | none => opening.find? (.str spelling.forDirective)

end Opening

def Node.holdsSlot (spelling : Spelling) : Node → Except Fault Bool
  | .tag opening _ =>
      match opening.slotAttr? spelling with
      | .error fault => .error fault
      | .ok attr => .ok attr.isSome
  | _ => .ok false

end TemplateJsx
