import Mathlib.Control.Monad.Basic
import TemplateJsx.Proofs.ExpansionProperties

/-!
# The order of directives

What a tag with directives becomes, said in one step. Emission finds a directive, takes it away and
starts again with the tag that is left. Where the condition, the loop and the slot have names of their
own, this comes to a fixed nesting: a condition around a loop around the element, and on a holder of a
slot the entry, with the loop in it, around the condition. Of several attributes of one name the first
counts and all are taken away. Faults come in the order in which the parts are named here.
-/

set_option autoImplicit false

namespace TemplateJsx

open Text

/-! ## Nested texts -/

def underCondition : Option Text → Text → Text
  | none, body => body
  | some condition, body => "\x7b" ++ condition ++ " && " ++ body ++ "\x7d"

def inLoop : Option Loop → Text → Text
  | none, body => body
  | some loop, body =>
      "\x7b" ++ loop.iterable ++ ".map((" ++ loop.binder ++ ") => (" ++ body ++ "))\x7d"

/-- The entry of a slot, which a loop spreads over its items. -/
def slotEntryText (name arguments : Text) : Option Loop → Text → Text
  | none, body => "\"" ++ name ++ "\": (" ++ arguments ++ ") => (" ++ body ++ "),"
  | some loop, body =>
      "...(" ++ loop.iterable ++ ".reduce((acc, " ++ loop.binder ++ ") => \x7bacc[" ++ slotKey name ++
        "] = (" ++ arguments ++ ") => (" ++ body ++ "); return acc\x7d, \x7b\x7d)),"

/-! ## Directives of a tag -/

/-- What a slot takes: the text of its attribute, and nothing for a flag. -/
def Attr.parameters : Attr → Text
  | ⟨_, .str raw, _⟩ => unquote raw
  | _ => ""

namespace Opening

def firstCondition (spelling : Spelling) (opening : Opening) : Except Fault (Option Text) :=
  match opening.first? spelling.ifDirective with
  | none => .ok none
  | some ⟨_, .str raw, _⟩ => .ok (some (unquote raw))
  | some ⟨name, value, _⟩ =>
      .error (.complain (.invalidDirective name value none) opening.origin.place)

def firstLoop (spelling : Spelling) (opening : Opening) : Except Fault (Option Loop) :=
  match opening.first? spelling.forDirective with
  | none => .ok none
  | some ⟨name, .str raw, _⟩ =>
      match Loop.ofExpression? (unquote raw) with
      | some loop => .ok (some loop)
      | none =>
          .error (.complain (.invalidDirective name (.str raw) (some loopHint)) opening.origin.place)
  | some ⟨name, value, _⟩ =>
      .error (.complain (.invalidDirective name value none) opening.origin.place)

def standing (spelling : Spelling) (element : Opening → Except Fault Text) (opening : Opening) :
    Except Fault Text := do
  let condition ← opening.firstCondition spelling
  let loop ← opening.firstLoop spelling
  let body ← element (opening.without [.str spelling.ifDirective, .str spelling.forDirective])
  return underCondition condition (inLoop loop body)

def holding (spelling : Spelling) (slot : Attr) (element : Opening → Except Fault Text)
    (opening : Opening) : Except Fault Text := do
  let name ← slot.slotName spelling opening.origin.place
  let loop ← opening.firstLoop spelling
  let condition ← opening.firstCondition spelling
  let taken := if loop.isSome then [slot.name, .str spelling.forDirective, .str spelling.ifDirective]
    else [slot.name, .str spelling.ifDirective]
  let body ← element (opening.without taken)
  return slotEntryText name slot.parameters loop (underCondition condition body)

end Opening

/-! ## The same directives as expansion finds them -/

section Reading

variable {spelling : Spelling} {opening : Opening}

private theorem Opening.Written.condition_eq (written : opening.Written) :
    opening.condition spelling = (do
      let condition ← opening.firstCondition spelling
      return condition.toList.map .conditional) := by
  unfold Opening.condition Opening.firstCondition
  cases found : opening.first? spelling.ifDirective with
  | none => rfl
  | some attr => cases written.attrs attr (Opening.mem_of_first? found) <;> rfl

private theorem Opening.Written.loop?_eq (written : opening.Written) :
    opening.loop? spelling = opening.firstLoop spelling := by
  unfold Opening.loop? Opening.firstLoop
  cases found : opening.first? spelling.forDirective with
  | none => rfl
  | some attr =>
      cases written.attrs attr (Opening.mem_of_first? found) with
      | @raw name value origin =>
          simp only [Attr.loop, Attr.expression, Json.unquoted]
          cases Loop.ofExpression? (unquote value) <;> rfl
      | flag => rfl

private theorem Attr.Written.slotArguments_eq {attr : Attr} (written : attr.Written) :
    attr.slotArguments = .ok attr.parameters := by
  cases written <;> rfl

private theorem Opening.firstLoop_eq_none (read : opening.firstLoop spelling = .ok none) :
    opening.first? spelling.forDirective = none := by
  unfold Opening.firstLoop at read
  split at read
  · assumption
  · split at read <;> cases read
  · cases read

end Reading

private theorem wrapAll_standing (condition : Option Text) (loop : Option Loop) (body : Text) :
    wrapAll (condition.toList.map .conditional ++ loop.toList.map .iteration) body =
      underCondition condition (inLoop loop body) := by
  cases condition <;> cases loop <;> rfl

private theorem wrapAll_holding (name arguments : Text) (condition : Option Text)
    (loop : Option Loop) (body : Text) :
    wrapAll (slotEntry name arguments loop :: condition.toList.map .conditional) body =
      slotEntryText name arguments loop (underCondition condition body) := by
  cases condition <;> cases loop <;> rfl

/-! ## Emission of a tag -/

section Emission

variable {spelling : Spelling} {opening : Opening}

def elementOutcome (spelling : Spelling) (children : List Node) (opening : Opening) :
    Except Fault Text :=
  (emitElement spelling opening children (Node.emitSlots spelling children)
    (Node.emitOthers spelling children)).outcome

private theorem emit_tag_outcome (apart : spelling.Apart) (written : opening.Written)
    (children : List Node) :
    ((Node.tag opening children).emit spelling).outcome =
      opening.standing spelling (elementOutcome spelling children) := by
  rw [Node.emit, emitTag_outcome, expand_outcome opening apart, written.condition_eq,
    written.loop?_eq]
  unfold Opening.standing elementOutcome
  cases opening.firstCondition spelling with
  | error fault => rfl
  | ok condition =>
      cases opening.firstLoop spelling with
      | error fault => rfl
      | ok loop =>
          simp only [ok_bind, pure, Except.pure, wrapAll_standing]

/-- The names that are taken from a holder, with that of the loop also where there is no loop. -/
private theorem without_taken {attr : Attr} {loop : Option Loop}
    (apart : spelling.Apart) (slot : opening.slot? spelling = some attr)
    (read : opening.firstLoop spelling = .ok loop) :
    opening.without [attr.name, .str spelling.ifDirective, .str spelling.forDirective] =
      opening.without (if loop.isSome then
        [attr.name, .str spelling.forDirective, .str spelling.ifDirective]
        else [attr.name, .str spelling.ifDirective]) := by
  cases loop with
  | some loop =>
      apply Opening.without_congr
      intro name
      simp only [Option.isSome_some, if_true, List.mem_cons, List.not_mem_nil, or_false]
      exact or_congr_right or_comm
  | none =>
      have notLoop := Attr.name_ne_of_begins (Opening.begins_of_slot? slot) apart.loop
      have kept : Json.str spelling.forDirective ∉ [attr.name, .str spelling.ifDirective] := by
        simpa using ⟨notLoop.symm, apart.distinct.symm⟩
      have absent := Opening.first?_without opening kept
      rw [Opening.firstLoop_eq_none read] at absent
      have same := Opening.without_of_first?_eq_none absent
      rw [Opening.without_without] at same
      exact same

private theorem emitHolder_outcome {attr : Attr} (apart : spelling.Apart)
    (written : opening.Written) (slot : opening.slot? spelling = some attr) (children : List Node) :
    ((Node.tag opening children).emitHolder spelling).outcome =
      opening.holding spelling attr (elementOutcome spelling children) := by
  have argued := (written.attrs attr (List.mem_of_find?_eq_some slot)).slotArguments_eq
  simp only [Node.emitHolder, slot]
  rw [emitTag_outcome, expandSlot_outcome apart slot, written.condition_eq, written.loop?_eq,
    argued]
  unfold Opening.holding elementOutcome
  cases attr.slotName spelling opening.origin.place with
  | error fault => rfl
  | ok name =>
      cases read : opening.firstLoop spelling with
      | error fault => rfl
      | ok loop =>
          cases opening.firstCondition spelling with
          | error fault => rfl
          | ok condition =>
              simp only [ok_bind, pure, Except.pure, wrapAll_holding,
                without_taken apart slot read]

private theorem emitSlots_holder {attr : Attr} (written : opening.Written)
    (slot : opening.slot? spelling = some attr) (children siblings : List Node) :
    (Node.emitSlots spelling (.tag opening children :: siblings)).outcome = (do
      let entry ← ((Node.tag opening children).emitHolder spelling).outcome
      let rest ← (Node.emitSlots spelling siblings).outcome
      return entry ++ rest) := by
  simp only [Node.emitSlots, Node.emitHolder, written.slotAttr?_eq, slot, Traced.outcome_bind,
    Traced.outcome_pure]
  rfl

end Emission

/-- A tag is its condition around its loop around the element that is left, and as the holder of a
slot it is the entry, with the loop in it, around the condition and the element. The faults of the
parts come in the same order. -/
theorem emit_resolves_directives_in_order {spelling : Spelling} (apart : spelling.Apart)
    {opening : Opening} (written : opening.Written) (children : List Node) :
    ((Node.tag opening children).emit spelling).outcome =
        opening.standing spelling (elementOutcome spelling children) ∧
      ∀ slot, opening.slot? spelling = some slot → ∀ siblings,
        (Node.emitSlots spelling (.tag opening children :: siblings)).outcome = (do
          let entry ← opening.holding spelling slot (elementOutcome spelling children)
          let rest ← (Node.emitSlots spelling siblings).outcome
          return entry ++ rest) := by
  refine ⟨emit_tag_outcome apart written children, ?_⟩
  intro slot found siblings
  rw [emitSlots_holder written found, emitHolder_outcome apart written found]

theorem emit_resolves_repeated_directives :
    let spelling : Spelling := { ifDirective := "when", forDirective := "each", slotDirective := "in" }
    let opening : Opening :=
      { name := .str "x-cell"
        attrs := [⟨.str "each", .str "\"r in rows\"", {}⟩, ⟨.str "in:[k]", .str "'p'", {}⟩,
          ⟨.str "when", .str "\"ok\"", {}⟩, ⟨.str "when", .bool true, {}⟩,
          ⟨.str "each", .bool false, {}⟩, ⟨.str "in:[k]", .bool true, {}⟩] }
    ((Node.tag opening []).emit spelling).outcome =
        .ok "\x7bok && \x7brows.map((r) => (<XCell in:[k] in:[k]=\"p\" />))\x7d\x7d" ∧
      (Node.emitSlots spelling [.tag opening []]).outcome =
        .ok ("...(rows.reduce((acc, r) => \x7bacc[k] = (p) => (\x7bok && <XCell />\x7d); " ++
          "return acc\x7d, \x7b\x7d)),") := by
  intro spelling opening
  have apart : spelling.Apart := ⟨by decide, by decide, by decide⟩
  have written : opening.Written := by
    refine ⟨⟨_, rfl⟩, ?_⟩
    simp only [opening, List.forall_mem_cons]
    exact ⟨.raw, .raw, .raw, .flag, .flag, .flag, List.forall_mem_nil _⟩
  obtain ⟨standing, holding⟩ := emit_resolves_directives_in_order apart written []
  have slot : opening.slot? spelling = some ⟨.str "in:[k]", .str "'p'", {}⟩ := by decide +kernel
  rw [standing, holding _ slot []]
  decide +kernel

end TemplateJsx
