import Mathlib.Control.Monad.Basic
import TemplateJsx.Proofs.EmissionProperties
import TemplateJsx.Proofs.TreeRoundTrip

/-!
# Emission does not depend on origins

A tree without its origins is emitted like the tree itself: with the same events, and with the same
text or the same fault. Only the place that a diagnostic names can be another one. Nothing is assumed
of the tree; names and values may be of any kind.
-/

set_option autoImplicit false

namespace TemplateJsx

/-! ## Trees without any origin -/

def Foreign.unplaced : Foreign → Foreign
  | .value content => .value content
  | .object kind _ present => .object kind none present

namespace Node

mutual

/-- The tree without any origin, also in what is foreign to it. -/
def placeless : Node → Node
  | .block children _ => .block (placelessList children) {}
  | .tag opening children => .tag opening.unplaced (placelessList children)
  | .text value _ => .text value {}
  | .foreign content => .foreign content.unplaced

def placelessList : List Node → List Node
  | [] => []
  | node :: nodes => node.placeless :: placelessList nodes

end

end Node

private theorem Foreign.kind_unplaced (content : Foreign) :
    content.unplaced.kind = content.kind := by
  cases content <;> rfl

/-! ## Computations that end alike -/

section Shadows

variable {α β γ δ : Type}

/-- Two ends of which the first is the second seen through `view`. Where both are complaints, the two
may name different places. -/
inductive EndShadows (view : β → α) : Except Fault α → Except Fault β → Prop where
  | ok {value : β} : EndShadows view (.ok (view value)) (.ok value)
  | complaint {complaint : Complaint} {place place' : Json} :
      EndShadows view (.error (.complain complaint place)) (.error (.complain complaint place'))
  | fault {fault : Fault} : EndShadows view (.error fault) (.error fault)

private theorem EndShadows.refl (outcome : Except Fault α) : EndShadows id outcome outcome := by
  cases outcome with
  | error fault => exact .fault
  | ok value => exact .ok

private theorem EndShadows.meet {shared first second : Except Fault α}
    (shadows : EndShadows id shared first) (shadows' : EndShadows id shared second) :
    (∃ value, first = .ok value ∧ second = .ok value) ∨
      (∃ complaint place place', first = .error (.complain complaint place) ∧
        second = .error (.complain complaint place')) ∨
      ∃ fault, first = .error fault ∧ second = .error fault := by
  cases shadows with
  | @ok value =>
      cases shadows' with
      | ok => exact .inl ⟨value, rfl, rfl⟩
  | complaint =>
      cases shadows' with
      | complaint => exact .inr (.inl ⟨_, _, _, rfl, rfl⟩)
      | fault => exact .inr (.inl ⟨_, _, _, rfl, rfl⟩)
  | fault =>
      cases shadows' with
      | complaint => exact .inr (.inl ⟨_, _, _, rfl, rfl⟩)
      | fault => exact .inr (.inr ⟨_, rfl, rfl⟩)

structure Traced.Shadows (view : β → α) (first : Traced α) (second : Traced β) : Prop where
  events : first.events = second.events
  ends : EndShadows view first.outcome second.outcome

namespace Traced.Shadows

private theorem pure (view : β → α) (value : β) :
    Shadows view (Pure.pure (view value) : Traced α) (Pure.pure value) := ⟨rfl, .ok⟩

private theorem tell (event : Event) : Shadows id (Traced.tell event)
    (Traced.tell event) := ⟨rfl, .ok⟩

private theorem lift {view : β → α} {first : Except Fault α} {second : Except Fault β}
    (ends : EndShadows view first second) : Shadows view (Traced.lift first) (Traced.lift second) :=
  ⟨rfl, ends⟩

private theorem bind {view : β → α} {view' : δ → γ} {first : Traced α} {second : Traced β}
    {next : α → Traced γ} {next' : β → Traced δ} (shadows : Shadows view first second)
    (continues : ∀ value, Shadows view' (next (view value)) (next' value)) :
    Shadows view' (first >>= next) (second >>= next') := by
  obtain ⟨events, outcome⟩ := first
  obtain ⟨events', outcome'⟩ := second
  obtain ⟨told, ends⟩ := shadows
  cases told
  cases ends with
  | @ok value =>
      obtain ⟨toldLater, endsLater⟩ := continues value
      exact ⟨congrArg (events ++ ·) toldLater, endsLater⟩
  | complaint => exact ⟨rfl, .complaint⟩
  | fault => exact ⟨rfl, .fault⟩

end Traced.Shadows

end Shadows

/-! ## Attributes -/

section Attributes

variable (spelling : Spelling) (attr : Attr) (owner owner' : Option Json)

private theorem Attr.expression_shadows :
    EndShadows id (attr.unplaced.expression owner) (attr.expression owner') := by
  obtain ⟨name, value, origin⟩ := attr
  cases value with
  | bool flag => exact .complaint
  | str raw => exact .ok
  | _ => exact .fault

private theorem Attr.loop_shadows : EndShadows id (attr.unplaced.loop owner)
    (attr.loop owner') := by
  have expressed := attr.expression_shadows owner owner'
  unfold Attr.loop
  generalize attr.unplaced.expression owner = first at expressed
  generalize attr.expression owner' = second at expressed
  cases expressed with
  | @ok expression =>
      dsimp only [id]
      cases Loop.ofExpression? expression with
      | none => exact .complaint
      | some loop => exact .ok
  | complaint => exact .complaint
  | fault => exact .fault

private theorem Directive.ofAttr_shadows :
    EndShadows id (Directive.ofAttr spelling attr.unplaced owner)
      (Directive.ofAttr spelling attr owner') := by
  have named : ∀ lead, attr.unplaced.nameAfter? lead = attr.nameAfter? lead := fun _ => rfl
  have isNamed : ∀ name, attr.unplaced.isNamed name = attr.isNamed name := fun _ => rfl
  unfold Directive.ofAttr
  rw [named, isNamed, isNamed]
  cases attr.nameAfter? (spelling.slotDirective ++ ":") with
  | error fault => exact .fault
  | ok rest =>
      cases rest with
      | some name =>
          have arguments : attr.unplaced.slotArguments = attr.slotArguments := rfl
          rw [arguments]
          cases attr.slotArguments with
          | error fault => exact .fault
          | ok text => exact .ok
      | none =>
          dsimp only
          split
          · exact (attr.expression_shadows owner owner').casesOn .ok .complaint .fault
          · split
            · exact (attr.loop_shadows owner owner').casesOn .ok .complaint .fault
            · exact .complaint

private theorem emitBinding_shadows (name raw : Text) (bound : List CodePoint)
    (place place' : Json) : EndShadows id (emitBinding spelling name raw bound place)
      (emitBinding spelling name raw bound place') := by
  unfold emitBinding
  dsimp only
  split
  · exact .complaint
  · exact .ok

private theorem emitWritten_shadows (name raw : Text) (place place' : Json) :
    EndShadows id (emitWritten spelling name raw place) (emitWritten spelling name raw place') := by
  unfold emitWritten
  split
  · exact .ok
  · cases afterLongest? spelling.bindMarks name.toList with
    | some bound => exact emitBinding_shadows spelling name raw bound place place'
    | none =>
        cases afterLongest? spelling.eventMarks name.toList with
        | some event => exact .ok
        | none => exact .ok

private theorem Attr.emit_shadows :
    EndShadows id (attr.unplaced.emit spelling owner) (attr.emit spelling owner') := by
  obtain ⟨name, value, origin⟩ := attr
  cases value with
  | bool flag =>
      cases flag with
      | true => exact .ok
      | false => exact .ok
  | str raw =>
      cases name with
      | str text =>
          dsimp only [Attr.emit, Attr.unplaced]
          generalize Attr.blamed _ owner = place
          generalize Attr.blamed _ owner' = place'
          exact (emitWritten_shadows spelling text raw place place').casesOn .ok .complaint .fault
      | _ => exact .fault
  | _ => cases name <;> exact .fault

end Attributes

/-! ## Openings -/

section Openings

variable (spelling : Spelling) (opening : Opening)

private theorem Opening.find?_unplaced (name : Json) :
    opening.unplaced.find? name = (opening.find? name).map Attr.unplaced :=
  List.find?_map ..

private theorem Opening.without_unplaced (names : List Json) :
    opening.unplaced.without names = (opening.without names).unplaced := by
  simp only [Opening.without, Opening.unplaced, List.filter_map]
  rfl

private theorem Attr.findLead?_unplaced (lead : Text) (attrs : List Attr) :
    Attr.findLead? lead (attrs.map Attr.unplaced) =
      (Attr.findLead? lead attrs).map (Option.map Attr.unplaced) := by
  induction attrs with
  | nil => rfl
  | cons attr attrs ih =>
      have named : attr.unplaced.nameAfter? lead = attr.nameAfter? lead := rfl
      rw [List.map_cons, Attr.findLead?, Attr.findLead?, named]
      cases attr.nameAfter? lead with
      | error fault => rfl
      | ok rest =>
          cases rest with
          | some _ => rfl
          | none => exact ih

def unplacedExpansion (expansion : List Wrapper × Opening) : List Wrapper × Opening :=
  (expansion.1, expansion.2.unplaced)

private theorem expandAttr_shadows (attr : Attr) :
    Traced.Shadows (fun result : Wrapper × Opening => (result.1, result.2.unplaced))
      (expandAttr spelling opening.unplaced attr.unplaced) (expandAttr spelling opening attr) := by
  unfold expandAttr
  refine (Traced.Shadows.lift (Directive.ofAttr_shadows spelling attr _ _)).bind ?_
  intro directive
  refine (Traced.Shadows.tell _).bind ?_
  intro _
  cases directive with
  | conditional condition | iteration loop =>
      dsimp only [id]
      rw [Opening.without_unplaced]
      exact .pure _ (_, opening.without [attr.name])
  | slot name arguments =>
      dsimp only [id]
      rw [Opening.find?_unplaced]
      cases opening.find? (.str spelling.forDirective) with
      | none =>
          dsimp only [Option.map_none]
          rw [Opening.without_unplaced]
          exact .pure _ (_, opening.without [attr.name])
      | some forAttr =>
          refine (Traced.Shadows.lift (forAttr.loop_shadows _ _)).bind ?_
          intro loop
          rw [Opening.without_unplaced]
          exact .pure _ (_, opening.without [attr.name, forAttr.name])

private theorem expandNamed_shadows (name : Text) :
    Traced.Shadows unplacedExpansion (expandNamed spelling name opening.unplaced)
      (expandNamed spelling name opening) := by
  unfold expandNamed
  rw [Opening.find?_unplaced]
  cases opening.find? (.str name) with
  | none => exact .pure unplacedExpansion ([], opening)
  | some attr =>
      refine (expandAttr_shadows spelling opening attr).bind ?_
      rintro ⟨wrapper, left⟩
      exact .pure unplacedExpansion ([wrapper], left)

private theorem expand_shadows :
    Traced.Shadows unplacedExpansion (expand spelling opening.unplaced) (expand spelling opening) := by
  refine (expandNamed_shadows spelling opening spelling.ifDirective).bind ?_
  rintro ⟨conditions, between⟩
  refine (expandNamed_shadows spelling between spelling.forDirective).bind ?_
  rintro ⟨loops, left⟩
  exact .pure unplacedExpansion (conditions ++ loops, left)

private theorem expandSlot_shadows (attr : Attr) :
    Traced.Shadows unplacedExpansion (expandSlot spelling opening.unplaced attr.unplaced)
      (expandSlot spelling opening attr) := by
  refine (expandAttr_shadows spelling opening attr).bind ?_
  rintro ⟨entry, between⟩
  refine (expand_shadows spelling between).bind ?_
  rintro ⟨wrappers, left⟩
  exact .pure unplacedExpansion (entry :: wrappers, left)

end Openings

/-! ## Attributes of a tag -/

section AttributeLists

variable (spelling : Spelling)

def unplacedParts (parts : List Attr × List (Text × Text)) :
    List Attr × List (Text × Text) :=
  (parts.1.map Attr.unplaced, parts.2)

private theorem partitionAttrs_unplaced (attrs : List Attr) :
    partitionAttrs spelling (attrs.map Attr.unplaced) =
      (partitionAttrs spelling attrs).map unplacedParts := by
  induction attrs with
  | nil => rfl
  | cons attr attrs ih =>
      have plain : attr.unplaced.plain? spelling = attr.plain? spelling := rfl
      rw [List.map_cons, partitionAttrs, partitionAttrs, plain, ih]
      cases attr.plain? spelling with
      | error fault => rfl
      | ok pair =>
          cases partitionAttrs spelling attrs with
          | error fault => rfl
          | ok parts => cases pair <;> rfl

private theorem mergeAttrs_shadows (attrs : List Attr) :
    Traced.Shadows unplacedParts
      (mergeAttrs spelling (attrs.map Attr.unplaced)) (mergeAttrs spelling attrs) := by
  unfold mergeAttrs
  rw [partitionAttrs_unplaced]
  cases partitionAttrs spelling attrs with
  | error fault => exact ⟨rfl, .fault⟩
  | ok parts =>
      obtain ⟨others, plains⟩ := parts
      refine ⟨rfl, ?_⟩
      dsimp only [Except.map, unplacedParts]
      exact @EndShadows.ok _ _ unplacedParts (others, _)

private theorem emitEach_shadows (owner owner' : Option Json) (attrs : List Attr) :
    EndShadows id (emitEach spelling owner (attrs.map Attr.unplaced))
      (emitEach spelling owner' attrs) := by
  induction attrs with
  | nil => exact .ok
  | cons attr attrs ih =>
      rw [List.map_cons, emitEach, emitEach]
      refine (attr.emit_shadows spelling owner owner').casesOn ?_ .complaint .fault
      intro value
      exact ih.casesOn .ok .complaint .fault

private theorem emitAttrs_shadows (owner owner' : Option Json) (attrs : List Attr) :
    Traced.Shadows id (emitAttrs spelling (attrs.map Attr.unplaced) owner)
      (emitAttrs spelling attrs owner') := by
  refine (mergeAttrs_shadows spelling attrs).bind ?_
  rintro ⟨others, merged⟩
  refine (Traced.Shadows.lift (emitEach_shadows spelling owner owner' others)).bind ?_
  intro emitted
  refine (Traced.Shadows.lift (EndShadows.refl (joinable emitted))).bind ?_
  intro texts
  exact .pure id _

end AttributeLists

/-! ## Children of a tag -/

namespace Node

variable (spelling : Spelling)

private theorem slotAttr?_unplaced (opening : Opening) :
    opening.unplaced.slotAttr? spelling =
      (opening.slotAttr? spelling).map (Option.map Attr.unplaced) :=
  Attr.findLead?_unplaced ..

private theorem holdsSlot_placeless (node : Node) :
    node.placeless.holdsSlot spelling = node.holdsSlot spelling := by
  cases node with
  | tag opening children =>
      rw [placeless, holdsSlot, holdsSlot, slotAttr?_unplaced]
      cases opening.slotAttr? spelling with
      | error fault => rfl
      | ok attr => cases attr <;> rfl
  | _ => rfl

private theorem ofChildren_placeless (nodes : List Node) :
    Family.ofChildren spelling (placelessList nodes) = Family.ofChildren spelling nodes := by
  induction nodes with
  | nil => rfl
  | cons node nodes ih =>
      rw [placelessList, Family.ofChildren, Family.ofChildren, holdsSlot_placeless, ih]

end Node

/-! ## Tags -/

section Tags

variable (spelling : Spelling) {children : List Node} {slots slots' others others' : Traced Text}
  (slotsShadow : slots.Shadows id slots') (othersShadow : others.Shadows id others')

include slotsShadow othersShadow

private theorem emitElement_shadows (opening : Opening) :
    Traced.Shadows id
      (emitElement spelling opening.unplaced (Node.placelessList children) slots others)
      (emitElement spelling opening children slots' others') := by
  refine (Traced.Shadows.lift (EndShadows.refl (elementNameOf opening.name))).bind ?_
  intro name
  refine (emitAttrs_shadows spelling _ _ opening.attrs).bind ?_
  intro attrs
  rw [Node.ofChildren_placeless]
  refine (Traced.Shadows.lift (EndShadows.refl (Family.ofChildren spelling children))).bind ?_
  intro family
  have finish : ∀ start : Text, Traced.Shadows id
      (if family.others then do
        let body ← others
        return start ++ ">" ++ body ++ "</" ++ name.display ++ ">"
      else return start ++ " />")
      (if family.others then do
        let body ← others'
        return start ++ ">" ++ body ++ "</" ++ name.display ++ ">"
      else return start ++ " />") := by
    intro start
    split
    · refine othersShadow.bind ?_
      intro body
      exact .pure id _
    · exact .pure id _
  dsimp only [id]
  split
  · exact slotsShadow.bind fun entries => finish _
  · exact (Traced.Shadows.pure id ("" : Text)).bind fun entries => finish _

private theorem emitTag_shadows {expansion expansion' : Traced (List Wrapper × Opening)}
    (expanded : expansion.Shadows unplacedExpansion expansion') :
    Traced.Shadows id (emitTag spelling expansion (Node.placelessList children) slots others)
      (emitTag spelling expansion' children slots' others') := by
  refine expanded.bind ?_
  rintro ⟨wrappers, left⟩
  refine (emitElement_shadows spelling slotsShadow othersShadow left).bind ?_
  intro body
  exact .pure id _

end Tags

/-! ## Whole trees -/

namespace Node

variable (spelling : Spelling)

mutual

theorem emit_placeless : (node : Node) →
    Traced.Shadows id (node.placeless.emit spelling) (node.emit spelling)
  | .block children _ => by
      rw [placeless, emit, emit]
      exact emitAll_placeless children
  | .tag opening children => by
      rw [placeless, emit, emit]
      exact emitTag_shadows spelling (emitSlots_placeless children) (emitOthers_placeless children)
        (expand_shadows spelling opening)
  | .text value _ => by
      rw [placeless, emit, emit]
      exact .lift (.refl _)
  | .foreign content => by
      rw [placeless, emit, emit, Foreign.kind_unplaced]
      exact ⟨rfl, .complaint⟩

theorem emitAll_placeless : (nodes : List Node) →
    Traced.Shadows id (emitAll spelling (placelessList nodes)) (emitAll spelling nodes)
  | [] => .pure id ("" : Text)
  | node :: nodes => by
      rw [placelessList, emitAll, emitAll]
      refine (emit_placeless node).bind ?_
      intro text
      refine (emitAll_placeless nodes).bind ?_
      intro rest
      exact .pure id _

theorem emitSlots_placeless : (nodes : List Node) →
    Traced.Shadows id (emitSlots spelling (placelessList nodes)) (emitSlots spelling nodes)
  | [] => .pure id ("" : Text)
  | .tag opening children :: nodes => by
      have later := emitSlots_placeless nodes
      rw [placelessList, placeless, emitSlots, emitSlots, slotAttr?_unplaced]
      cases opening.slotAttr? spelling with
      | error fault => exact later
      | ok attr =>
          cases attr with
          | none => exact later
          | some attr =>
              refine (emitTag_shadows spelling (emitSlots_placeless children)
                (emitOthers_placeless children) (expandSlot_shadows spelling opening attr)).bind ?_
              intro text
              refine later.bind ?_
              intro rest
              exact .pure id _
  | .block _ _ :: nodes | .text _ _ :: nodes | .foreign _ :: nodes => by
      rw [placelessList, placeless, emitSlots, emitSlots]
      · exact emitSlots_placeless nodes
      all_goals nofun

theorem emitOthers_placeless : (nodes : List Node) →
    Traced.Shadows id (emitOthers spelling (placelessList nodes)) (emitOthers spelling nodes)
  | [] => .pure id ("" : Text)
  | node :: nodes => by
      have later := emitOthers_placeless nodes
      have here : Traced.Shadows id
          (do return (← node.placeless.emit spelling) ++ (← emitOthers spelling (placelessList nodes)))
          (do return (← node.emit spelling) ++ (← emitOthers spelling nodes)) := by
        refine (emit_placeless node).bind ?_
        intro text
        refine later.bind ?_
        intro rest
        exact .pure id _
      rw [placelessList, emitOthers, emitOthers, holdsSlot_placeless]
      cases node.holdsSlot spelling with
      | error fault => exact here
      | ok holds =>
          cases holds with
          | true => exact later
          | false => exact here

end

/-- Trees that differ only in their origins are emitted with the same events, and either as the same
text or with the same complaint, whose wording, code, hint and values are thus the same, or with the
same fault. The places that the two complaints name may differ. -/
theorem emit_independent_of_origins (spelling : Spelling) {node node' : Node}
    (same : node.placeless = node'.placeless) :
    (node.emit spelling).events = (node'.emit spelling).events ∧
      ((∃ text, (node.emit spelling).outcome = .ok text ∧
          (node'.emit spelling).outcome = .ok text) ∨
        (∃ complaint place place',
          (node.emit spelling).outcome = .error (.complain complaint place) ∧
            (node'.emit spelling).outcome = .error (.complain complaint place')) ∨
        ∃ fault, (node.emit spelling).outcome = .error fault ∧
          (node'.emit spelling).outcome = .error fault) := by
  obtain ⟨told, ends⟩ := emit_placeless spelling node
  obtain ⟨told', ends'⟩ := emit_placeless spelling node'
  rw [same] at told ends
  exact ⟨told.symm.trans told', ends.meet ends'⟩

theorem emit_independent_of_origins_of_foreign :
    let tree (line : Int) : Node := .block [.tag
      { name := .str "p"
        attrs := [⟨.str "v-if", .str "\"ok\"", { line := .int line }⟩]
        origin := { line := .int line } }
      [.foreign (.object "Comment" (some (.int (line + 1))) true)]] { line := .int line }
    (tree 3).placeless = (tree 7).placeless ∧
      ((tree 3).emit {}).outcome ≠ ((tree 7).emit {}).outcome ∧
      ((tree 3).emit {}).events = ((tree 7).emit {}).events ∧
      ∃ complaint place place', ((tree 3).emit {}).outcome = .error (.complain complaint place) ∧
        ((tree 7).emit {}).outcome = .error (.complain complaint place') := by
  intro tree
  have same : (tree 3).placeless = (tree 7).placeless := rfl
  have differ : ((tree 3).emit {}).outcome ≠ ((tree 7).emit {}).outcome := by decide +kernel
  obtain ⟨told, ⟨_, here, there⟩ | complained | ⟨_, here, there⟩⟩ :=
    emit_independent_of_origins {} same
  · exact absurd (here.trans there.symm) differ
  · exact ⟨same, differ, told, complained⟩
  · exact absurd (here.trans there.symm) differ

end Node

end TemplateJsx
