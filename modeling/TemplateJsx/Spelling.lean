import TemplateJsx.Text.Basic

/-!
# Spelling

How directives are spelled in templates, and the names that emitted text uses for them.
-/

set_option autoImplicit false

namespace TemplateJsx

structure Spelling where
  /-- What every directive begins with. -/
  directiveMark : Text := "v-"
  /-- What the short form of a binding begins with. -/
  bindMark : Text := ":"
  /-- What the short form of an event begins with. -/
  eventMark : Text := "@"
  modelDirective : Text := "v-model"
  ifDirective : Text := "v-if"
  forDirective : Text := "v-for"
  /-- The directive of slots; the name of the slot follows a colon. -/
  slotDirective : Text := "v-slot"
  /-- What a point in the name of a bound attribute becomes. -/
  modifierPlaceholder : Text := "_TODO_"
  /-- The property that takes the slots of an element. -/
  slotsProperty : Text := "scopedSlots"
  /-- What the emitted name of an event begins with. -/
  handlerMark : Text := "on"
  /-- Whether bindings and events have a long form too. -/
  longForms : Bool := true
deriving DecidableEq, Repr

namespace Spelling

def bindMarks (spelling : Spelling) : List Text :=
  if spelling.longForms then [spelling.bindMark, spelling.directiveMark ++ "bind:"]
  else [spelling.bindMark]

def eventMarks (spelling : Spelling) : List Text :=
  if spelling.longForms then [spelling.eventMark, spelling.directiveMark ++ "on:"]
  else [spelling.eventMark]

def unmergeableMarks (spelling : Spelling) : List Text :=
  [spelling.bindMark, spelling.eventMark, spelling.directiveMark]

end Spelling

end TemplateJsx
