import Mathlib.Control.Monad.Basic
import TemplateJsx.Proofs.AttributeOrder

/-!
# Rearranged trees

The children of a tag that hold slots and its other children are two sequences, and how they are
mixed does not matter, nor does the order of attributes of different roles. None of this is seen
from outside of the tag. It may be changed anywhere in a tree, and the outcome of emission stays the
same, its faults included.
-/

set_option autoImplicit false

namespace TemplateJsx

/-- Changes to the attributes and to the order of the children, at any tags of a tree. -/
inductive Node.Rearranged : Node → Node → Prop where
  | refl (node : Node) : Rearranged node node
  | trans {first second third : Node} : Rearranged first second → Rearranged second third →
      Rearranged first third
  | attrs {opening : Opening} {attrs' : List Attr} {children : List Node} :
      AttrsRearranged opening.attrs attrs' →
      Rearranged (.tag opening children) (.tag { opening with attrs := attrs' } children)
  /-- Holders of slots and other children each stay in their order. -/
  | children {opening : Opening} {children children' : List Node} :
      (∀ holds, children.filter (·.isHolder {} = holds) =
        children'.filter (·.isHolder {} = holds)) →
      Rearranged (.tag opening children) (.tag opening children')
  | inBlock {before after : List Node} {child child' : Node} {origin : Origin} :
      Rearranged child child' →
      Rearranged (.block (before ++ child :: after) origin)
        (.block (before ++ child' :: after) origin)
  | inTag {opening : Opening} {before after : List Node} {child child' : Node} :
      Rearranged child child' →
      Rearranged (.tag opening (before ++ child :: after))
        (.tag opening (before ++ child' :: after))

private theorem forall_mem_replaced {α : Type} {holds : α → Prop} {before after : List α}
    {item item' : α}
    (each : ∀ other ∈ before ++ item :: after, holds other) (replaced : holds item → holds item') :
    ∀ other ∈ before ++ item' :: after, holds other := by
  rw [List.forall_mem_append, List.forall_mem_cons] at each ⊢
  exact ⟨each.1, replaced each.2.1, each.2.2⟩

private theorem Node.Rearranged.written {node node' : Node} (rearranged : node.Rearranged node')
    (written : node.Written) : node'.Written := by
  induction rearranged with
  | refl => exact written
  | trans _ _ firstIH secondIH => exact secondIH (firstIH written)
  | attrs rearranged =>
      cases written with
      | tag opened built => exact .tag ⟨opened.name, rearranged.written opened.attrs⟩ built
  | children same =>
      cases written with
      | tag opened built =>
          exact .tag opened fun child member => built child (mem_of_filter_eq same member)
  | inBlock _ ih =>
      cases written with
      | block built => exact .block (forall_mem_replaced built ih)
  | inTag _ ih =>
      cases written with
      | tag opened built => exact .tag opened (forall_mem_replaced built ih)

/-! ## Openings -/

/-- Names that are taken off a tag: those of conditions and loops, and none of a plain attribute. -/
structure DirectiveNames (names : List Json) : Prop where
  condition : .str "v-if" ∈ names
  loop : .str "v-for" ∈ names
  notPlain : ∀ attr : Attr, names.any attr.name.agrees = true → attr.role ≠ .plain

theorem directiveNames_standing : DirectiveNames [.str "v-if", .str "v-for"] := by
  refine ⟨by simp, by simp, ?_⟩
  intro attr taken
  simp only [List.any_cons, List.any_nil, Bool.or_false, Bool.or_eq_true,
    Json.agrees_str_iff] at taken
  rcases taken with named | named
  · simp [role_of_condition named]
  · simp [role_of_loop named]

theorem directiveNames_holding {slot : Attr} (begins : slot.begins "v-slot" = true) :
    DirectiveNames [slot.name, .str "v-if", .str "v-for"] := by
  refine ⟨by simp, by simp, ?_⟩
  intro attr taken
  rw [List.any_cons, Bool.or_eq_true] at taken
  rcases taken with agrees | taken
  · have begins' : attr.begins "v-slot" = true := by
      unfold Attr.begins at begins ⊢
      split at begins
      · next name called =>
        rw [called, Json.agrees_str_iff] at agrees
        rw [agrees]
        exact begins
      · cases begins
    simp [role_of_slot begins']
  · exact directiveNames_standing.notPlain attr taken

/-- Written openings that differ in their attributes only, and there in nothing that counts. -/
structure Opening.Alike (opening opening' : Opening) : Prop where
  written : opening.Written
  written' : opening'.Written
  name : opening.name = opening'.name
  origin : opening.origin = opening'.origin
  attrs : AttrsAlike opening.attrs opening'.attrs

/-- What an expanded opening gives to its element: the wrappers, the name and the attributes. -/
def opened (expansion : Traced (List Wrapper × Opening)) :
    Except Fault (List Wrapper × Text × Text) := do
  let (wrappers, left) ← expansion.outcome
  let attrs ← (emitAttrs {} left.attrs (some left.origin.place)).outcome
  return (wrappers, left.name.display, attrs)

namespace Opening.Alike

variable {opening opening' : Opening}

private theorem refl (written : opening.Written) : opening.Alike opening :=
  ⟨written, written, rfl, rfl, fun _ _ => rfl, rfl⟩

private theorem condition_eq (alike : opening.Alike opening') :
    opening.condition {} = opening'.condition {} := by
  have same : opening.first? "v-if" = opening'.first? "v-if" :=
    alike.attrs.find?_eq (by decide) fun attr named => role_of_condition (of_decide_eq_true named)
  rw [Opening.condition, Opening.condition, same, alike.origin]

private theorem loop?_eq (alike : opening.Alike opening') :
    opening.loop? {} = opening'.loop? {} := by
  have same : opening.first? "v-for" = opening'.first? "v-for" :=
    alike.attrs.find?_eq (by decide) fun attr named => role_of_loop (of_decide_eq_true named)
  rw [Opening.loop?, Opening.loop?, same, alike.origin]

private theorem slot?_eq (alike : opening.Alike opening') : opening.slot? {} = opening'.slot? {} :=
  alike.attrs.find?_eq (by decide) fun _ begins => role_of_slot begins

private theorem emitAttrs_without (alike : opening.Alike opening') {names : List Json}
    (directives : DirectiveNames names) :
    (emitAttrs {} (opening.without names).attrs
        (some (opening.without names).origin.place)).outcome =
      (emitAttrs {} (opening'.without names).attrs
        (some (opening'.without names).origin.place)).outcome := by
  simp only [Opening.without, alike.origin]
  refine alike.attrs.emitAttrs_eq alike.written.attrs alike.written'.attrs ?_ ?_ _
  · intro attr plain
    rw [Bool.not_eq_true']
    exact Bool.eq_false_iff.mpr fun taken => directives.notPlain attr taken plain
  · intro attr kept
    have absent : ∀ name, .str name ∈ names → attr.name ≠ .str name := by
      intro name member named
      have other : ∀ value ∈ names, attr.name.agrees value = false := by simpa using kept
      have taken := other _ member
      rw [named, Json.str_agrees_iff.mpr rfl] at taken
      cases taken
    exact role_of_other (absent _ directives.condition) (absent _ directives.loop)

private theorem opened_without (alike : opening.Alike opening') {names : List Json}
    (directives : DirectiveNames names) {expansion expansion' : Traced (List Wrapper × Opening)}
    {wrapping : Except Fault (List Wrapper)}
    (expanded : expansion.outcome = wrapping.map fun wrappers => (wrappers, opening.without names))
    (expanded' : expansion'.outcome =
      wrapping.map fun wrappers => (wrappers, opening'.without names)) :
    opened expansion = opened expansion' := by
  have name : (opening.without names).name = (opening'.without names).name := alike.name
  rw [opened, opened, expanded, expanded']
  cases wrapping with
  | error fault => rfl
  | ok wrappers =>
      simp only [Except.map, ok_bind]
      rw [alike.emitAttrs_without directives, name]

private theorem opened_expand (alike : opening.Alike opening') :
    opened (expand {} opening) = opened (expand {} opening') := by
  have wrapped : ∀ opening : Opening, (expand {} opening).outcome =
      (do
        let conditions ← opening.condition {}
        let loop ← opening.loop? {}
        return conditions ++ loop.toList.map .iteration : Except Fault (List Wrapper)).map
          fun wrappers => (wrappers, opening.without [.str "v-if", .str "v-for"]) := by
    intro opening
    rw [expand_outcome opening Spelling.apart_default]
    cases opening.condition {} with
    | error fault => rfl
    | ok conditions => cases opening.loop? {} <;> rfl
  refine alike.opened_without directiveNames_standing (wrapped opening) ?_
  rw [alike.condition_eq, alike.loop?_eq]
  exact wrapped opening'

private theorem opened_expandSlot (alike : opening.Alike opening') {slot : Attr}
    (found : opening.slot? {} = some slot) :
    opened (expandSlot {} opening slot) = opened (expandSlot {} opening' slot) := by
  have wrapped : ∀ opening : Opening, opening.slot? {} = some slot →
      (expandSlot {} opening slot).outcome = (do
        let name ← slot.slotName {} opening.origin.place
        let arguments ← slot.slotArguments
        let loop ← opening.loop? {}
        let conditions ← opening.condition {}
        return slotEntry name arguments loop :: conditions : Except Fault (List Wrapper)).map
          fun wrappers => (wrappers, opening.without [slot.name, .str "v-if", .str "v-for"]) := by
    intro opening found
    rw [expandSlot_outcome Spelling.apart_default found]
    cases slot.slotName {} opening.origin.place with
    | error fault => rfl
    | ok name =>
        cases slot.slotArguments with
        | error fault => rfl
        | ok arguments =>
            cases opening.loop? {} with
            | error fault => rfl
            | ok loop => cases opening.condition {} <;> rfl
  have directives := directiveNames_holding (@Opening.begins_of_slot? {} opening slot found)
  refine alike.opened_without directives (wrapped opening found) ?_
  rw [alike.origin, alike.condition_eq, alike.loop?_eq]
  exact wrapped opening' (alike.slot?_eq.symm.trans found)

end Opening.Alike

/-! ## Tags -/

private theorem emitTag_eq_opened {expansion : Traced (List Wrapper × Opening)}
    {children : List Node}
    (named : ∀ {wrappers left}, expansion.outcome = .ok (wrappers, left) → left.name.IsText)
    (built : ∀ child ∈ children, child.Written) :
    (emitTag {} expansion children (Node.emitSlots {} children)
      (Node.emitOthers {} children)).outcome = (do
      let (wrappers, name, attrs) ← opened expansion
      let entries ← (Traced.concat ((children.filter (·.isHolder {})).map
        (Node.emitHolder {}))).outcome
      let body ← (Traced.concat ((children.filter fun child => !child.isHolder {}).map
        (Node.emit {}))).outcome
      return wrapAll wrappers (elementText {} (elementName name) attrs (Family.among {} children)
        entries body)) := by
  rw [emitTag_outcome, opened]
  cases expanded : expansion.outcome with
  | error fault => rfl
  | ok result =>
      obtain ⟨wrappers, left⟩ := result
      obtain ⟨name, leftNamed⟩ := named expanded
      simp only [ok_bind, emitElement_outcome {} leftNamed built, leftNamed, Json.display_str]
      cases (emitAttrs {} left.attrs (some left.origin.place)).outcome with
      | error fault => rfl
      | ok attrs =>
          simp only [ok_bind, pure, Except.pure]
          cases (Traced.concat ((children.filter (·.isHolder {})).map
            (Node.emitHolder {}))).outcome with
          | error fault => rfl
          | ok entries =>
              simp only [ok_bind]
              cases (Traced.concat ((children.filter fun child => !child.isHolder {}).map
                (Node.emit {}))).outcome <;> rfl

private theorem concat_congr {emitter : Node → Traced Text} {nodes nodes' : List Node}
    (same : nodes.map (fun node => (emitter node).outcome) =
      nodes'.map fun node => (emitter node).outcome) :
    (Traced.concat (nodes.map emitter)).outcome = (Traced.concat (nodes'.map emitter)).outcome := by
  induction nodes generalizing nodes' with
  | nil =>
      cases nodes' with
      | nil => rfl
      | cons => cases same
  | cons node nodes ih =>
      cases nodes' with
      | nil => cases same
      | cons node' nodes' =>
          obtain ⟨here, later⟩ := List.cons.inj same
          simp only [List.map_cons, Traced.concat, Traced.outcome_bind, here, ih later]

/-- Nodes that nothing around them can tell apart. -/
structure Node.Alike (node node' : Node) : Prop where
  isHolder : node.isHolder {} = node'.isHolder {}
  emit : (node.emit {}).outcome = (node'.emit {}).outcome
  emitHolder : (node.emitHolder {}).outcome = (node'.emitHolder {}).outcome

/-- Children that give the same outcomes, those that hold slots and the others each in their
order. -/
structure ChildrenAlike (children children' : List Node) : Prop where
  holders : (children.filter (·.isHolder {})).map (fun child => (child.emitHolder {}).outcome) =
    (children'.filter (·.isHolder {})).map fun child => (child.emitHolder {}).outcome
  others : (children.filter fun child => !child.isHolder {}).map
      (fun child => (child.emit {}).outcome) =
    (children'.filter fun child => !child.isHolder {}).map fun child => (child.emit {}).outcome

private theorem any_eq_of_map_filter_eq {α β : Type} {items items' : List α} {kept : α → Bool}
    {view : α → β} (same : (items.filter kept).map view = (items'.filter kept).map view) :
    items.any kept = items'.any kept := by
  have told : ∀ items : List α, items.any kept = !((items.filter kept).map view).isEmpty := by
    intro items
    rw [Bool.eq_iff_iff]
    simp
  rw [told, told, same]

namespace ChildrenAlike

variable {children children' : List Node}

private theorem among_eq (alike : ChildrenAlike children children') :
    Family.among {} children = Family.among {} children' := by
  rw [Family.among, Family.among, any_eq_of_map_filter_eq alike.holders,
    any_eq_of_map_filter_eq alike.others]

private theorem of_filter_eq (same : ∀ holds,
    children.filter (·.isHolder {} = holds) = children'.filter (·.isHolder {} = holds)) :
    ChildrenAlike children children' := by
  have holders := same true
  have others := same false
  simp only [Bool.decide_eq_true, Bool.decide_eq_false] at holders others
  exact ⟨congrArg _ holders, congrArg _ others⟩

private theorem of_replaced {before after : List Node} {child child' : Node}
    (alike : child.Alike child') :
    ChildrenAlike (before ++ child :: after) (before ++ child' :: after) := by
  cases holds : child'.isHolder {} with
  | true =>
      have holds' := alike.isHolder.trans holds
      constructor <;> simp [holds, holds', alike.emitHolder]
  | false =>
      have holds' := alike.isHolder.trans holds
      constructor <;> simp [holds, holds', alike.emit]

end ChildrenAlike

private theorem emitTag_congr {expansion expansion' : Traced (List Wrapper × Opening)}
    {children children' : List Node}
    (named : ∀ {wrappers left}, expansion.outcome = .ok (wrappers, left) → left.name.IsText)
    (named' : ∀ {wrappers left}, expansion'.outcome = .ok (wrappers, left) → left.name.IsText)
    (built : ∀ child ∈ children, child.Written) (built' : ∀ child ∈ children', child.Written)
    (same : opened expansion = opened expansion') (alike : ChildrenAlike children children') :
    (emitTag {} expansion children (Node.emitSlots {} children)
        (Node.emitOthers {} children)).outcome =
      (emitTag {} expansion' children' (Node.emitSlots {} children')
        (Node.emitOthers {} children')).outcome := by
  rw [emitTag_eq_opened named built, emitTag_eq_opened named' built', same,
    concat_congr alike.holders, concat_congr alike.others, alike.among_eq]

private theorem tag_alike {opening opening' : Opening} {children children' : List Node}
    (openings : opening.Alike opening') (built : ∀ child ∈ children, child.Written)
    (built' : ∀ child ∈ children', child.Written) (alike : ChildrenAlike children children') :
    (Node.tag opening children).Alike (.tag opening' children') := by
  refine ⟨?_, ?_, ?_⟩
  · simp only [Node.isHolder, openings.slot?_eq]
  · rw [Node.emit, Node.emit]
    exact emitTag_congr (fun expanded => ((expand_partOf expanded).written openings.written).name)
      (fun expanded => ((expand_partOf expanded).written openings.written').name) built built'
      openings.opened_expand alike
  · cases found : opening.slot? {} with
    | none =>
        have found' := openings.slot?_eq.symm.trans found
        simp only [Node.emitHolder, found, found']
    | some slot =>
        have found' := openings.slot?_eq.symm.trans found
        simp only [Node.emitHolder, found, found']
        exact emitTag_congr
          (fun expanded => ((expandSlot_partOf expanded).written openings.written).name)
          (fun expanded => ((expandSlot_partOf expanded).written openings.written').name)
          built built' (openings.opened_expandSlot found) alike

/-! ## Trees -/

theorem Node.Rearranged.alike {node node' : Node} (rearranged : node.Rearranged node')
    (written : node.Written) : node.Alike node' := by
  -- Outside of a tag only `Node.Alike` is visible of it, so each change is checked where it is made
  -- and the trees around it follow from their children.
  induction rearranged with
  | refl => exact ⟨rfl, rfl, rfl⟩
  | trans first _ firstIH secondIH =>
      have before := firstIH written
      have after := secondIH (first.written written)
      exact ⟨before.isHolder.trans after.isHolder, before.emit.trans after.emit,
        before.emitHolder.trans after.emitHolder⟩
  | attrs rearranged =>
      cases written with
      | tag opened built =>
          have alike := rearranged.alike opened.attrs
          have written' := rearranged.written opened.attrs
          exact tag_alike ⟨opened, ⟨opened.name, written'⟩, rfl, rfl, alike⟩ built built ⟨rfl, rfl⟩
  | children same =>
      cases written with
      | tag opened built =>
          have built' := fun child member => built child (mem_of_filter_eq same member)
          exact tag_alike (.refl opened) built built' (.of_filter_eq same)
  | @inBlock before after child child' origin rearranged ih =>
      cases written with
      | block built =>
          have alike := ih (built child (by simp))
          refine ⟨rfl, ?_, rfl⟩
          rw [Node.emit, Node.emit, Node.emitAll_eq_concat, Node.emitAll_eq_concat]
          apply concat_congr
          simp only [List.map_append, List.map_cons, alike.emit]
  | @inTag opening before after child child' rearranged ih =>
      cases written with
      | tag opened built =>
          have alike := ih (built child (by simp))
          exact tag_alike (.refl opened) built (forall_mem_replaced built rearranged.written)
            (.of_replaced alike)

/-- The outcome of emission, be it a text or a fault, does not depend on how the attributes of
different roles and the children of both kinds are mixed, nor on whether plain attributes of a name
are merged, anywhere in the tree. -/
theorem emit_eq_of_rearranged {node node' : Node} (written : node.Written)
    (rearranged : node.Rearranged node') : (node.emit {}).outcome = (node'.emit {}).outcome :=
  (rearranged.alike written).emit

theorem emit_eq_of_rearranged_table :
    let condition : Attr := ⟨.str "v-if", .str "'ok'", {}⟩
    let bound : Attr := ⟨.str ":k", .str "'k'", {}⟩
    let first : Attr := ⟨.str "class", .str "'a'", {}⟩
    let second : Attr := ⟨.str "class", .str "\"b\"", {}⟩
    let both : Attr := ⟨.str "class", .str "\"a b\"", {}⟩
    let text : Node := .text (.str "t") {}
    let holder : Node :=
      .tag { name := .str "b", attrs := [⟨.str "v-slot:row", .bool true, {}⟩] } []
    let tree : Node := .block [.tag { name := .str "p" }
      [.tag { name := .str "x-table", attrs := [first, condition, second, bound] }
        [text, holder]]] {}
    let tree' : Node := .block [.tag { name := .str "p" }
      [.tag { name := .str "x-table", attrs := [bound, both, condition] } [holder, text]]] {}
    let output := "<p>\x7bok && <XTable k=\x7bk\x7d class=\"a b\" " ++
      "scopedSlots=\x7b\x7b\"row\": () => (<b />),\x7d\x7d>t</XTable>\x7d</p>"
    tree.Written ∧ tree.Rearranged tree' ∧ (tree.emit {}).outcome = .ok output := by
  intro condition bound first second both text holder tree tree' output
  have written : tree.Written := by
    refine .block (List.forall_mem_singleton.mpr (.tag ⟨⟨_, rfl⟩, nofun⟩
      (List.forall_mem_singleton.mpr (.tag ⟨⟨_, rfl⟩, ?_⟩ ?_))))
    · simp only [List.forall_mem_cons]
      exact ⟨.raw, .raw, .raw, .raw, nofun⟩
    · simp only [List.forall_mem_cons]
      exact ⟨.text ⟨_, rfl⟩, .tag ⟨⟨_, rfl⟩, List.forall_mem_singleton.mpr .flag⟩ nofun, nofun⟩
  have reordered : AttrsRearranged [first, condition, second, bound]
      [bound, first, condition, second] := by
    refine .reorder fun role => ?_
    cases role <;> decide
  have merged : AttrsRearranged [bound, first, condition, second] [bound, both, condition] := by
    have step := @AttrsRearranged.merge "class" [bound] [condition, second] first {} (by decide)
      (by decide)
    have same : [bound] ++ Attr.mergedAs "class" {} (first ::
        [condition, second].filter (·.isPlainNamed "class")) ::
        ([condition, second].filter fun attr => !attr.isPlainNamed "class") =
        [bound, both, condition] := by decide +kernel
    rwa [same] at step
  have swapped : ∀ holds, [text, holder].filter (·.isHolder {} = holds) =
      [holder, text].filter (·.isHolder {} = holds) := by
    decide
  have rearranged : tree.Rearranged tree' :=
    @Node.Rearranged.inBlock [] [] _ _ {} (@Node.Rearranged.inTag { name := .str "p" } [] [] _ _
      (.trans (.attrs reordered) (.trans (.attrs merged) (.children swapped))))
  have emitted : (tree'.emit {}).outcome = .ok output := by decide +kernel
  exact ⟨written, rearranged, (emit_eq_of_rearranged written rearranged).trans emitted⟩

end TemplateJsx
