import Mathlib.Data.List.Chain
import TemplateJsx.Proofs.AttributeProperties
import TemplateJsx.Proofs.ExpansionProperties

/-!
# Readable trees

Trees of texts and of tags with a condition, a loop, flags and quoted values, in which every word is
made of characters that the emitted text uses for nothing else. Their emission succeeds, and what it
writes is said here in full.
-/

set_option autoImplicit false

namespace TemplateJsx

open Text

/-! ## The class of trees -/

structure Text.Over (allowed : CodePoint → Bool) (s : Text) : Prop where
  nonempty : s ≠ ""
  within : ∀ c ∈ s.toList, allowed c = true

def CodePoint.isAlphanum : CodePoint → Bool
  | .char c => c.isAlphanum
  | .surrogate _ => false

@[simp] theorem CodePoint.isAlphanum_char (c : Char) : (char c).isAlphanum = c.isAlphanum := rfl

def isBinderChar (c : CodePoint) : Bool := c.isAlphanum || c == '_'

def isPathChar (c : CodePoint) : Bool := isBinderChar c || c == '.'

/-- What a readable tag says besides its children. -/
structure Header where
  name : Text
  condition : Option Text := none
  loop : Option Loop := none
  flags : List Text := []
  values : List (Text × Text) := []
deriving DecidableEq, Repr

namespace Header

def quoted (name value : Text) : Attr :=
  { name := .str name, value := .str ("\"" ++ value ++ "\"") }

def flag (name : Text) : Attr := { name := .str name, value := .bool true }

def plainAttrs (header : Header) : List Attr :=
  header.flags.map flag ++ header.values.map fun pair => quoted pair.1 pair.2

def attrText (header : Header) : Text :=
  Text.intercalate " " (header.flags ++
    header.values.map fun pair : Text × Text => pair.1 ++ "=\"" ++ pair.2 ++ "\"")

def opening (header : Header) : Opening where
  name := .str header.name
  attrs :=
    (header.condition.map fun condition => quoted "v-if" condition).toList ++
      ((header.loop.map fun loop => quoted "v-for" (loop.binder ++ " in " ++ loop.iterable)).toList ++
        header.plainAttrs)

/-- Every word of the tag is made of its own kind of characters, and no quoted value is given
twice. -/
structure Clear (header : Header) : Prop where
  name : Over CodePoint.isAlphanum header.name
  condition : ∀ condition ∈ header.condition, Over isPathChar condition
  binder : ∀ loop ∈ header.loop, Over isBinderChar loop.binder
  iterable : ∀ loop ∈ header.loop, Over isPathChar loop.iterable
  flags : ∀ name ∈ header.flags, Over CodePoint.isAlphanum name
  values : ∀ pair ∈ header.values, Over CodePoint.isAlphanum pair.1 ∧ .char '\x22' ∉ pair.2.toList
  distinct : (header.values.map Prod.fst).Nodup

end Header

namespace Node

def isText : Node → Bool
  | .text _ _ => true
  | _ => false

def Separated (nodes : List Node) : Prop :=
  nodes.IsChain fun node next => ¬ (node.isText = true ∧ next.isText = true)

def isTextChar (c : CodePoint) : Bool := c != '<' && c != '\x7b' && c != '\x7d'

/-- A readable text or tag. Nothing in it has an origin. -/
inductive Readable : Node → Prop where
  | text {value : Text} : Over isTextChar value → Readable (.text (.str value) {})
  | tag {header : Header} {children : List Node} : header.Clear →
      (∀ child ∈ children, Readable child) → Separated children →
      Readable (.tag header.opening children)

def ReadableTree (tree : Node) : Prop :=
  ∃ children, tree = .block children {} ∧ (∀ child ∈ children, Readable child) ∧ Separated children

end Node

/-! ## Tags -/

private theorem Text.Over.not_mem {allowed : CodePoint → Bool} {s : Text} (made : Over allowed s)
    {c : CodePoint} (refused : allowed c = false) : c ∉ s.toList := by
  intro member
  rw [made.within c member] at refused
  cases refused

theorem Text.Over.head {allowed : CodePoint → Bool} {s : Text} (made : Over allowed s) :
    ∃ c cs, s.toList = c :: cs ∧ allowed c = true := by
  obtain ⟨c, cs, shape⟩ := List.exists_cons_of_ne_nil (mt Text.toList_eq_nil_iff.mp made.nonempty)
  refine ⟨c, cs, shape, made.within c ?_⟩
  rw [shape]
  exact List.mem_cons_self

namespace Header

variable {header : Header}

private theorem mem_attrs {attr : Attr} (member : attr ∈ header.opening.attrs) :
    (∃ value, attr = quoted "v-if" value) ∨ (∃ value, attr = quoted "v-for" value) ∨
      attr ∈ header.plainAttrs := by
  simp only [opening, List.mem_append, Option.mem_toList, Option.map_eq_some_iff] at member
  rcases member with ⟨condition, _, rfl⟩ | ⟨loop, _, rfl⟩ | plain
  · exact .inl ⟨_, rfl⟩
  · exact .inr (.inl ⟨_, rfl⟩)
  · exact .inr (.inr plain)

variable (clear : header.Clear)
include clear

/-- The name of a flag or of a quoted value is a word, so it is not the name of a directive. -/
private theorem Clear.plain {attr : Attr} (member : attr ∈ header.plainAttrs) :
    attr.Written ∧ ∃ name, attr.name = .str name ∧ Over CodePoint.isAlphanum name := by
  rcases List.mem_append.mp member with flag | value
  · obtain ⟨name, within, rfl⟩ := List.mem_map.mp flag
    exact ⟨.flag, name, rfl, clear.flags name within⟩
  · obtain ⟨pair, within, rfl⟩ := List.mem_map.mp value
    exact ⟨.raw, pair.1, rfl, (clear.values pair within).1⟩

private theorem Clear.written : header.opening.Written := by
  refine ⟨⟨header.name, rfl⟩, ?_⟩
  intro attr member
  rcases mem_attrs member with ⟨_, rfl⟩ | ⟨_, rfl⟩ | plain
  · exact .raw
  · exact .raw
  · exact (clear.plain plain).1

private theorem Clear.slot?_eq_none : header.opening.slot? {} = none := by
  rw [Opening.slot?, List.find?_eq_none]
  intro attr member
  rcases mem_attrs member with ⟨_, rfl⟩ | ⟨_, rfl⟩ | plain
  · exact (by decide : ¬ startsWith "v-slot" "v-if" = true)
  · exact (by decide : ¬ startsWith "v-slot" "v-for" = true)
  · obtain ⟨_, name, named, word⟩ := clear.plain plain
    have notSlot : startsWith "v-slot" name = false :=
      startsWith_eq_false (c := '-') (by decide) (word.not_mem (by decide))
    simp only [Attr.begins, named, notSlot, Bool.false_eq_true, not_false_iff]

private theorem Clear.plain_name_ne {attr : Attr} (member : attr ∈ header.plainAttrs)
    {directive : Text}
    (hyphenated : .char '-' ∈ directive.toList) : attr.name ≠ .str directive := by
  obtain ⟨_, name, named, word⟩ := clear.plain member
  rw [named, ne_eq, Json.str.injEq]
  rintro rfl
  exact word.not_mem (by decide) hyphenated

private theorem Clear.find?_plain (directive : Text) (hyphenated : .char '-' ∈ directive.toList) :
    (header.plainAttrs.find? fun attr => decide (attr.name = .str directive)) = none := by
  rw [List.find?_eq_none]
  intro attr member
  simpa using clear.plain_name_ne member hyphenated

private theorem Clear.condition_eq :
    header.opening.condition {} = .ok (header.condition.toList.map .conditional) := by
  cases given : header.condition with
  | some condition =>
      simp only [Opening.condition, Opening.first?, opening, given, Option.map_some,
        Option.toList_some, List.cons_append, quoted, decide_true, List.find?_cons_of_pos,
        Attr.expression, Json.unquoted, unquote_doubleQuoted]
      rfl
  | none =>
      have absent : header.opening.first? "v-if" = none := by
        rw [Opening.first?, opening, given]
        cases header.loop <;>
          simp [quoted, clear.find?_plain "v-if" (by decide)]
      simp only [Opening.condition, absent]
      rfl

private theorem Clear.loop?_eq : header.opening.loop? {} = .ok header.loop := by
  have skipped : header.opening.first? "v-for" =
      ((header.loop.map fun loop =>
          quoted "v-for" (loop.binder ++ " in " ++ loop.iterable)).toList ++
        header.plainAttrs).find? fun attr => decide (attr.name = .str "v-for") := by
    rw [Opening.first?, opening]
    cases header.condition <;> simp [quoted]
  cases given : header.loop with
  | some loop =>
      have binder := clear.binder loop given
      have iterable := clear.iterable loop given
      have sides := Loop.ofExpression?_of_blankless binder.nonempty iterable.nonempty
        (binder.not_mem (by decide)) (binder.not_mem (by decide)) (iterable.not_mem (by decide))
      simp only [Opening.loop?, skipped, given, Option.map_some, Option.toList_some,
        List.cons_append, quoted, decide_true, List.find?_cons_of_pos, Attr.loop, Attr.expression,
        Json.unquoted, unquote_doubleQuoted, sides]
      rfl
  | none =>
      have absent : header.opening.first? "v-for" = none := by
        rw [skipped, given]
        exact clear.find?_plain "v-for" (by decide)
      simp only [Opening.loop?, absent]

private theorem Clear.attrs_left :
    (header.opening.without [.str "v-if", .str "v-for"]).attrs = header.plainAttrs := by
  have kept : header.plainAttrs.filter (fun attr =>
      !([.str "v-if", .str "v-for"] : List Json).any attr.name.agrees) = header.plainAttrs := by
    rw [List.filter_eq_self]
    intro attr member
    obtain ⟨_, name, named, _⟩ := clear.plain member
    have disagrees : ∀ directive : Text, .char '-' ∈ directive.toList →
        attr.name.agrees (.str directive) = false := by
      intro directive hyphenated
      rw [Bool.eq_false_iff, ne_eq, named, Json.str_agrees_iff, ← named]
      intro same
      exact clear.plain_name_ne member hyphenated same.symm
    simp [disagrees "v-if" (by decide), disagrees "v-for" (by decide)]
  rw [Opening.without, opening]
  simp only [List.filter_append, kept]
  cases header.condition <;> cases header.loop <;> simp [quoted, Json.agrees_str]

/-- The name of a quoted value begins with none of the marks of bindings, events and directives. -/
private theorem Clear.plainPair?_quoted {pair : Text × Text} (member : pair ∈ header.values) :
    (quoted pair.1 pair.2).plainPair? {} = some pair := by
  have word := (clear.values pair member).1
  have binding : startsWith ":" pair.1 = false :=
    startsWith_eq_false (c := ':') (by decide) (word.not_mem (by decide))
  have event : startsWith "@" pair.1 = false :=
    startsWith_eq_false (c := '@') (by decide) (word.not_mem (by decide))
  have directive : startsWith "v-" pair.1 = false :=
    startsWith_eq_false (c := '-') (by decide) (word.not_mem (by decide))
  simp only [Attr.plainPair?, quoted, Spelling.unmergeableMarks, List.any_cons, List.any_nil,
    binding, event, directive, Bool.or_self, Bool.false_eq_true, if_false, unquote_doubleQuoted]

private theorem Clear.filterMap_plainAttrs :
    header.plainAttrs.filterMap (·.plainPair? {}) = header.values := by
  have flags : ∀ name ∈ header.flags, (flag name).plainPair? {} = none := fun _ _ => rfl
  simp only [plainAttrs, List.filterMap_append, List.filterMap_map, Function.comp_def]
  rw [List.filterMap_eq_nil_iff.mpr flags, List.nil_append]
  exact (List.filterMap_congr fun pair member => clear.plainPair?_quoted member).trans
    List.filterMap_some

private theorem Clear.filter_plainAttrs :
    (header.plainAttrs.filter fun attr => (attr.plainPair? {}).isNone) = header.flags.map flag := by
  have noValues : ((header.values.map fun pair => quoted pair.1 pair.2).filter fun attr =>
      (attr.plainPair? {}).isNone) = [] := by
    rw [List.filter_eq_nil_iff]
    intro attr member
    obtain ⟨pair, within, rfl⟩ := List.mem_map.mp member
    simp [clear.plainPair?_quoted within]
  have allFlags : ((header.flags.map flag).filter fun attr => (attr.plainPair? {}).isNone) =
      header.flags.map flag := by
    rw [List.filter_eq_self]
    intro attr member
    obtain ⟨name, _, rfl⟩ := List.mem_map.mp member
    rfl
  rw [plainAttrs, List.filter_append, noValues, allFlags, List.append_nil]

omit clear in
private theorem mapM_text_flags (owner : Option Json) (names : List Text) :
    (names.map flag).mapM (Attr.text {} owner) = .ok names := by
  induction names with
  | nil => rfl
  | cons name names ih =>
      simp only [List.map_cons, List.mapM_cons, ih, ok_bind]
      rfl

private theorem Clear.emitAttrs_eq (owner : Option Json) :
    (emitAttrs {} header.plainAttrs owner).outcome = .ok header.attrText := by
  rw [emitAttrs_outcome {} (fun attr member => (clear.plain member).1) owner,
    clear.filter_plainAttrs, mapM_text_flags, ok_bind, mergedTexts, clear.filterMap_plainAttrs,
    groupByName_of_nodup clear.distinct]
  simp only [List.map_map, Function.comp_def, Text.intercalate_singleton, attrText]
  rfl

end Header

/-! ## What is written -/

def Node.output (node : Node) : List CodePoint :=
  match (node.emit {}).outcome with
  | .ok written => written.toList
  | .error _ => []

namespace Header

def items (header : Header) : List (Text × Option Text) :=
  header.flags.map (fun name => (name, none)) ++
    header.values.map fun pair => (pair.1, some pair.2)

def valueChars : Option Text → List CodePoint
  | none => []
  | some value => .char '=' :: .char '\x22' :: (value.toList ++ [.char '\x22'])

def itemChars (item : Text × Option Text) : List CodePoint :=
  .char ' ' :: (item.1.toList ++ valueChars item.2)

def closingChars (name : Text) (children : List Node) : List CodePoint :=
  match children with
  | [] => [' ', '/', '>']
  | children =>
      .char '>' ::
        (children.flatMap Node.output ++ .char '<' :: .char '/' :: (name.toList ++ [.char '>']))

def elementChars (header : Header) (children : List Node) : List CodePoint :=
  .char '<' :: (header.name.toList ++
    (header.items.flatMap itemChars ++ closingChars header.name children))

def loopChars (inner : List CodePoint) : Option Loop → List CodePoint
  | none => inner
  | some loop =>
      .char '\x7b' :: (loop.iterable.toList ++
        .char '.' :: .char 'm' :: .char 'a' :: .char 'p' :: .char '(' :: .char '(' ::
          (loop.binder.toList ++
            .char ')' :: .char ' ' :: .char '=' :: .char '>' :: .char ' ' :: .char '(' ::
              (inner ++ [.char ')', .char ')', .char '\x7d'])))

def conditionChars (inner : List CodePoint) : Option Text → List CodePoint
  | none => inner
  | some condition =>
      .char '\x7b' :: (condition.toList ++
        .char ' ' :: .char '&' :: .char '&' :: .char ' ' :: (inner ++ [.char '\x7d']))

def chars (header : Header) (children : List Node) : List CodePoint :=
  conditionChars (loopChars (header.elementChars children) header.loop) header.condition

private theorem toList_intercalate_blank (text : Text) (texts : List Text) :
    (" " ++ Text.intercalate " " (text :: texts)).toList =
      (text :: texts).flatMap fun text => .char ' ' :: text.toList := by
  induction texts generalizing text with
  | nil => simp
  | cons next texts ih =>
      have later := ih next
      rw [Text.toList_append] at later
      rw [Text.intercalate_cons_cons, List.flatMap_cons, ← later]
      simp

private theorem toList_attrs {texts : List Text} (nonempty : ∀ text ∈ texts, text ≠ "") :
    (if Text.intercalate " " texts = "" then ("" : Text)
      else " " ++ Text.intercalate " " texts).toList =
      texts.flatMap fun text => .char ' ' :: text.toList := by
  cases texts with
  | nil => simp
  | cons text texts =>
      have written : Text.intercalate " " (text :: texts) ≠ "" := by
        have first := nonempty text List.mem_cons_self
        cases texts with
        | nil => simpa using first
        | cons next texts => simp [Text.intercalate_cons_cons, Text.append_eq_empty_iff]
      rw [if_neg written, toList_intercalate_blank]

private theorem toList_wrapAll (condition : Option Text) (loop : Option Loop) (body : Text) :
    (wrapAll (condition.toList.map .conditional ++ loop.toList.map .iteration) body).toList =
      conditionChars (loopChars body.toList loop) condition := by
  cases condition <;> cases loop <;>
    simp [Wrapper.around_conditional, Wrapper.around_iteration, conditionChars, loopChars]

variable {header : Header} (clear : header.Clear)
include clear

private theorem Clear.toList_attrText :
    (if header.attrText = "" then ("" : Text) else " " ++ header.attrText).toList =
      header.items.flatMap itemChars := by
  have nonempty : ∀ text ∈ header.flags ++
      header.values.map (fun pair : Text × Text => pair.1 ++ "=\"" ++ pair.2 ++ "\""), text ≠ "" := by
    intro text member
    rcases List.mem_append.mp member with flag | value
    · exact (clear.flags text flag).nonempty
    · obtain ⟨pair, _, rfl⟩ := List.mem_map.mp value
      simp [Text.append_eq_empty_iff]
  rw [attrText, toList_attrs nonempty, items, List.flatMap_append, List.flatMap_append]
  simp [List.flatMap_map, itemChars, valueChars]

private theorem Clear.elementName_eq : elementName header.name = header.name :=
  elementName_of_not_mem (clear.name.not_mem (by decide))

end Header

namespace Node

private theorem Readable.isHolder_eq_false {node : Node} (readable : node.Readable) :
    node.isHolder {} = false := by
  cases readable with
  | text => rfl
  | tag clear => rw [isHolder, clear.slot?_eq_none]; rfl

private theorem Readable.written {node : Node} (readable : node.Readable) :
    node.BuiltFrom Opening.Written Json.IsText fun _ => False := by
  induction readable with
  | text => exact .text ⟨_, rfl⟩
  | tag clear _ _ ih => exact .tag clear.written ih

theorem concat_output {nodes : List Node}
    (succeed : ∀ node ∈ nodes, (node.emit {}).outcome = .ok (Text.ofList node.output)) :
    (Traced.concat (nodes.map (emit {}))).outcome = .ok (Text.ofList (nodes.flatMap output)) := by
  induction nodes with
  | nil => rfl
  | cons node nodes ih =>
      have later := ih fun node member => succeed node (List.mem_cons_of_mem _ member)
      simp only [List.map_cons, Traced.concat, Traced.outcome_bind, Traced.outcome_pure,
        succeed node List.mem_cons_self, later, ok_bind, List.flatMap_cons, Text.ofList_append]

section Tags

variable {header : Header} (clear : header.Clear) {children : List Node}
  (readable : ∀ child ∈ children, child.Readable)

include readable in
private theorem among_of_readable :
    Family.among {} children = { slots := false, others := !children.isEmpty } := by
  have slots : children.any (·.isHolder {}) = false := by
    rw [List.any_eq_false]
    intro child member
    simp [(readable child member).isHolder_eq_false]
  have others : (children.any fun child => !child.isHolder {}) = !children.isEmpty := by
    cases children with
    | nil => rfl
    | cons child children => simp [(readable child List.mem_cons_self).isHolder_eq_false]
  rw [Family.among, slots, others]

include clear readable in
private theorem toList_elementText :
    (elementText {} (elementName header.name) header.attrText (Family.among {} children) ""
        (Text.ofList (children.flatMap output))).toList = header.elementChars children := by
  rw [among_of_readable readable, clear.elementName_eq, elementText, Header.elementChars,
    ← clear.toList_attrText]
  cases children <;> simp [Header.closingChars]

include clear readable in
private theorem emit_readable_tag
    (succeed : ∀ child ∈ children, (child.emit {}).outcome = .ok (Text.ofList child.output)) :
    ((Node.tag header.opening children).emit {}).outcome =
      .ok (Text.ofList (header.chars children)) := by
  have built := fun child member => (readable child member).written
  have noHolders : children.filter (·.isHolder {}) = [] :=
    Family.holders_eq_nil (by rw [among_of_readable readable])
  have allOthers : (children.filter fun child => !child.isHolder {}) = children := by
    rw [List.filter_eq_self]
    intro child member
    simp [(readable child member).isHolder_eq_false]
  have element : (emitElement {} (header.opening.without [.str "v-if", .str "v-for"]) children
      (emitSlots {} children) (emitOthers {} children)).outcome =
        .ok (elementText {} (elementName header.name) header.attrText (Family.among {} children) ""
          (Text.ofList (children.flatMap output))) := by
    rw [emitElement_outcome {} rfl built, clear.attrs_left, clear.emitAttrs_eq, noHolders, allOthers,
      concat_output succeed]
    rfl
  have expanded : (expand {} header.opening).outcome =
      .ok (header.condition.toList.map .conditional ++ header.loop.toList.map .iteration,
        header.opening.without [.str "v-if", .str "v-for"]) := by
    rw [expand_outcome _ Spelling.apart_default, clear.condition_eq, clear.loop?_eq]
    rfl
  rw [emit, emitTag_outcome, expanded, ok_bind]
  change ((emitElement {} (header.opening.without [.str "v-if", .str "v-for"]) children
    (emitSlots {} children) (emitOthers {} children)).outcome >>= fun body =>
      pure (wrapAll _ body)) = _
  rw [element, ok_bind, Header.chars, ← toList_elementText clear readable, ← Header.toList_wrapAll,
    Text.ofList_toList]
  rfl

end Tags

private theorem emit_readable_text {value : Text} (made : Over isTextChar value) :
    ((Node.text (.str value) {}).emit {}).outcome = .ok value := by
  have plain := emittedText_of_not_mem (made.not_mem (c := '\x7b') (by decide))
  rw [emit, Traced.outcome_lift, emitText, plain]

private theorem output_of_emit {node : Node} {text : Text}
    (emitted : (node.emit {}).outcome = .ok text) : node.output = text.toList := by
  rw [output, emitted]

theorem emit_readable {node : Node} (readable : node.Readable) :
    (node.emit {}).outcome = .ok (Text.ofList node.output) := by
  have succeeds : ∃ text, (node.emit {}).outcome = .ok text := by
    induction readable with
    | text made => exact ⟨_, emit_readable_text made⟩
    | tag clear readable _ ih =>
        refine ⟨_, emit_readable_tag clear readable ?_⟩
        intro child member
        obtain ⟨text, emitted⟩ := ih child member
        rw [emitted, output_of_emit emitted, Text.ofList_toList]
  obtain ⟨text, emitted⟩ := succeeds
  rw [emitted, output_of_emit emitted, Text.ofList_toList]

theorem output_text {value : Text} (made : Over isTextChar value) :
    (Node.text (.str value) {}).output = value.toList :=
  output_of_emit (emit_readable_text made)

theorem output_tag {header : Header} (clear : header.Clear) {children : List Node}
    (readable : ∀ child ∈ children, child.Readable) :
    (Node.tag header.opening children).output = header.chars children := by
  have succeed := fun child member => emit_readable (readable child member)
  rw [output_of_emit (emit_readable_tag clear readable succeed), Text.toList_ofList]

end Node

end TemplateJsx
