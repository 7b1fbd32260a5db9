import TemplateJsx.Directive.Basic
import TemplateJsx.Trace

/-!
# Emitted attributes

Plain attributes of one name are merged, their values in order with blanks between them. Bindings,
events, directives and flags are never merged; they are emitted first and in their order, and the
merged ones follow in the order in which their names first appear.
-/

set_option autoImplicit false

namespace TemplateJsx

open Text

/-! ## One attribute -/

/-- Of two ways to read the rest of a name, the one that leaves less. -/
def shorter? : Option (List CodePoint) → Option (List CodePoint) → Option (List CodePoint)
  | none, other => other
  | rest, none => rest
  | some rest, some other => if other.length < rest.length then some other else some rest

def afterLongest? : List Text → List CodePoint → Option (List CodePoint)
  | [], _ => none
  | mark :: marks, cs => shorter? (after? mark.toList cs) (afterLongest? marks cs)

def boundName (spelling : Spelling) (cs : List CodePoint) : Text :=
  Text.ofList (cs.flatMap fun c =>
    if c = .char '.' then spelling.modifierPlaceholder.toList else [c])

def braced (name expression : Text) : Text := name ++ "=\x7b" ++ expression ++ "\x7d"

def emittedModel (target : Text) : Text :=
  braced "value" target ++ " " ++ braced "oninput" ("(x) => " ++ target ++ ".value = x ")

def emitBinding (spelling : Spelling) (name raw : Text) (bound : List CodePoint) (place : Json) :
    Except Fault Text :=
  let expression := unquote raw
  if expression = raw ∨ expression = "" then
    .error (.complain (.invalidBinding (.str name) (.str raw)) place)
  else .ok (braced (boundName spelling bound) expression)

def emitWritten (spelling : Spelling) (name raw : Text) (place : Json) : Except Fault Text :=
  if name = spelling.modelDirective then .ok (emittedModel (unquote raw))
  else
    match afterLongest? spelling.bindMarks name.toList with
    | some bound => emitBinding spelling name raw bound place
    | none =>
        match afterLongest? spelling.eventMarks name.toList with
        | some event =>
            .ok (braced (spelling.handlerMark ++ Text.ofList event) (unquote raw))
        | none => .ok (name ++ "=\"" ++ unquote raw ++ "\"")

def Attr.emit (spelling : Spelling) (attr : Attr) (owner : Option Json) : Except Fault Json :=
  match attr.value with
  | .bool true => .ok attr.name
  | .bool false => .ok (.str (braced attr.name.display "false"))
  | value =>
      match attr.name with
      | .str name =>
          match value with
          | .str raw =>
              match emitWritten spelling name raw (attr.blamed owner) with
              | .error fault => .error fault
              | .ok text => .ok (.str text)
          | _ => .error (.mismatch .textWanted)
      | _ => .error (.mismatch .attrNameWanted)

/-! ## Merging -/

/-- The name and the unquoted value of a plain attribute. Bindings, events, directives and flags are
not plain. -/
def Attr.plain? (spelling : Spelling) (attr : Attr) : Except Fault (Option (Text × Text)) :=
  match attr.value with
  | .bool _ => .ok none
  | value =>
      match attr.name with
      | .str name =>
          if spelling.unmergeableMarks.any (startsWith · name) then .ok none
          else
            match value.unquoted with
            | .error fault => .error fault
            | .ok text => .ok (some (name, text))
      | _ => .error (.mismatch .attrNameWanted)

def partitionAttrs (spelling : Spelling) :
    List Attr → Except Fault (List Attr × List (Text × Text))
  | [] => .ok ([], [])
  | attr :: attrs =>
      match attr.plain? spelling with
      | .error fault => .error fault
      | .ok plain =>
          match partitionAttrs spelling attrs with
          | .error fault => .error fault
          | .ok (others, plains) =>
              match plain with
              | none => .ok (attr :: others, plains)
              | some pair => .ok (others, pair :: plains)

/-- Adds a value to the group of its name. A new name gets a group at the end. -/
def addToGroups (name value : Text) : List (Text × List Text) → List (Text × List Text)
  | [] => [(name, [value])]
  | (key, values) :: groups =>
      if key = name then (key, values ++ [value]) :: groups
      else (key, values) :: addToGroups name value groups

def groupByName (pairs : List (Text × Text)) : List (Text × List Text) :=
  pairs.foldl (fun groups (name, value) => addToGroups name value groups) []

def mergeEvents (groups : List (Text × List Text)) : List Event :=
  (groups.filter fun (_, values) => 1 < values.length).map fun (name, values) =>
    .merging values.length name

def mergeAttrs (spelling : Spelling) (attrs : List Attr) :
    Traced (List Attr × List (Text × Text)) :=
  match partitionAttrs spelling attrs with
  | .error fault => Traced.fail fault
  | .ok (others, plains) =>
      let groups := groupByName plains
      ⟨mergeEvents groups,
        .ok (others, groups.map fun (name, values) => (name, Text.intercalate " " values))⟩

/-! ## All attributes of a tag -/

/-- The texts of emitted attributes. A bare name that is no text cannot be joined to others. -/
def joinable : List Json → Except Fault (List Text)
  | [] => .ok []
  | .str text :: rest =>
      match joinable rest with
      | .error fault => .error fault
      | .ok texts => .ok (text :: texts)
  | _ :: _ => .error (.mismatch .bareNameWanted)

def emitEach (spelling : Spelling) (owner : Option Json) : List Attr → Except Fault (List Json)
  | [] => .ok []
  | attr :: attrs =>
      match attr.emit spelling owner with
      | .error fault => .error fault
      | .ok value =>
          match emitEach spelling owner attrs with
          | .error fault => .error fault
          | .ok values => .ok (value :: values)

def emitAttrs (spelling : Spelling) (attrs : List Attr) (owner : Option Json) : Traced Text := do
  let (others, merged) ← mergeAttrs spelling attrs
  let emitted ← Traced.lift (emitEach spelling owner others)
  let texts ← Traced.lift (joinable emitted)
  return Text.intercalate " " (texts ++ merged.map fun (name, value) => name ++ "=\"" ++ value ++ "\"")

end TemplateJsx
