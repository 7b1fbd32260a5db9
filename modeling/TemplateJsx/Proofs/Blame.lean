import Mathlib.Control.Monad.Basic
import TemplateJsx.Proofs.AttributeProperties
import TemplateJsx.Proofs.ExpansionProperties

/-!
# Faults are about the tree

Every fault of emission is a complaint about something in the tree that was given: an attribute of a
tag with the reported name and value, a holder of a slot, or content that is foreign. Emission meets
tags as copies with fewer attributes; a copy stands where its tag stands, so the reported place is
that of the tag. The spelling of directives is free.
-/

set_option autoImplicit false

namespace TemplateJsx

/-! ## Parts of a tree -/

inductive Node.Contains : Node → Node → Prop where
  | self {node : Node} : Contains node node
  | block {children : List Node} {origin : Origin} {child part : Node} :
      child ∈ children → Contains child part → Contains (.block children origin) part
  | tag {opening : Opening} {children : List Node} {child part : Node} :
      child ∈ children → Contains child part → Contains (.tag opening children) part

/-- A complaint about an attribute that the opening has, at the place of the opening. -/
inductive Opening.Explains (opening : Opening) : Fault → Prop where
  | directive {attr : Attr} {hint : Option Text} : attr ∈ opening.attrs →
      Explains opening
        (.complain (.invalidDirective attr.name attr.value hint) opening.origin.place)
  | binding {attr : Attr} : attr ∈ opening.attrs →
      Explains opening (.complain (.invalidBinding attr.name attr.value) opening.origin.place)

/-- A complaint about an attribute of a holder that begins like a slot and names none. -/
inductive Opening.ExplainsUnknown (spelling : Spelling) (opening : Opening) : Fault → Prop where
  | unknown {attr : Attr} : attr ∈ opening.attrs → attr.begins spelling.slotDirective = true →
      ExplainsUnknown spelling opening
        (.complain (.unknownDirective attr.name) opening.origin.place)

inductive Node.Explains (spelling : Spelling) (tree : Node) : Fault → Prop where
  | tag {opening : Opening} {children : List Node} {fault : Fault} :
      tree.Contains (.tag opening children) → opening.Explains fault → Explains spelling tree fault
  | holder {parent opening : Opening} {siblings children : List Node} {fault : Fault} :
      tree.Contains (.tag parent siblings) → .tag opening children ∈ siblings →
      opening.ExplainsUnknown spelling fault → Explains spelling tree fault
  | foreign {content : Foreign} : tree.Contains (.foreign content) →
      Explains spelling tree (.complain (.malformedTree content.kind none) content.place)

private theorem Node.Explains.within {spelling : Spelling} {part tree : Node} {fault : Fault}
    (explains : part.Explains spelling fault)
    (contains : ∀ {inner : Node}, part.Contains inner → tree.Contains inner) :
    tree.Explains spelling fault := by
  cases explains with
  | tag within explains => exact .tag (contains within) explains
  | holder within member explains => exact .holder (contains within) member explains
  | foreign within => exact .foreign (contains within)

private theorem Opening.PartOf.explains {left opening : Opening} {fault : Fault}
    (part : left.PartOf opening) (explains : left.Explains fault) : opening.Explains fault := by
  cases explains with
  | directive member =>
      rw [part.origin]
      exact .directive (part.attrs _ member)
  | binding member =>
      rw [part.origin]
      exact .binding (part.attrs _ member)

/-! ## Faults of an expansion -/

section Expansion

variable {spelling : Spelling} {opening : Opening} {attr : Attr} {fault : Fault}

private theorem expression_explained (written : opening.Written) (member : attr ∈ opening.attrs)
    (failed : attr.expression (some opening.origin.place) = .error fault) :
    opening.Explains fault := by
  have reported := @Opening.Explains.directive opening attr none member
  cases written.attrs attr member with
  | raw => cases failed
  | flag =>
      cases failed
      exact reported

private theorem loop_explained (written : opening.Written) (member : attr ∈ opening.attrs)
    (failed : attr.loop (some opening.origin.place) = .error fault) : opening.Explains fault := by
  unfold Attr.loop at failed
  cases expressed : attr.expression (some opening.origin.place) with
  | error other =>
      rw [expressed] at failed
      cases failed
      exact expression_explained written member expressed
  | ok expression =>
      simp only [expressed] at failed
      cases parsed : Loop.ofExpression? expression with
      | some loop =>
          rw [parsed] at failed
          cases failed
      | none =>
          rw [parsed] at failed
          cases failed
          exact .directive member

/-- Only an attribute that is named neither like a condition nor like a loop can be unknown. -/
private theorem ofAttr_explained (written : opening.Written) (member : attr ∈ opening.attrs)
    (failed : Directive.ofAttr spelling attr (some opening.origin.place) = .error fault) :
    opening.Explains fault ∨
      attr.name ≠ .str spelling.ifDirective ∧ attr.name ≠ .str spelling.forDirective ∧
        fault = .complain (.unknownDirective attr.name) opening.origin.place := by
  have attrWritten := written.attrs attr member
  obtain ⟨rest, after, _⟩ := Attr.nameAfter?_ok attrWritten (spelling.slotDirective ++ ":")
  unfold Directive.ofAttr at failed
  rw [after] at failed
  cases rest with
  | some name =>
      obtain ⟨arguments, given⟩ := slotArguments_ok attrWritten
      rw [given] at failed
      cases failed
  | none =>
      simp only [Attr.isNamed_str, decide_eq_true_eq] at failed
      split at failed
      · cases expressed : attr.expression (some opening.origin.place) with
        | ok condition =>
            rw [expressed] at failed
            cases failed
        | error other =>
            rw [expressed] at failed
            cases failed
            exact .inl (expression_explained written member expressed)
      · next notCondition =>
        split at failed
        · cases looped : attr.loop (some opening.origin.place) with
          | ok loop =>
              rw [looped] at failed
              cases failed
          | error other =>
              rw [looped] at failed
              cases failed
              exact .inl (loop_explained written member looped)
        · next notLoop =>
          cases failed
          exact .inr ⟨notCondition, notLoop, rfl⟩

private theorem expandAttr_explained (written : opening.Written) (member : attr ∈ opening.attrs)
    (failed : (expandAttr spelling opening attr).outcome = .error fault) :
    opening.Explains fault ∨
      attr.name ≠ .str spelling.ifDirective ∧ attr.name ≠ .str spelling.forDirective ∧
        fault = .complain (.unknownDirective attr.name) opening.origin.place := by
  simp only [expandAttr, Traced.outcome_bind, Traced.outcome_lift, Traced.outcome_tell,
    ok_bind] at failed
  rcases bind_eq_error failed with unclassified | ⟨directive, _, failed⟩
  · exact ofAttr_explained written member unclassified
  · cases directive with
    | conditional condition | iteration loop => cases failed
    | slot name arguments =>
        rw [Opening.find?_str] at failed
        cases found : opening.first? spelling.forDirective with
        | none =>
            rw [found] at failed
            cases failed
        | some forAttr =>
            simp only [found, Traced.outcome_bind, Traced.outcome_lift] at failed
            rcases bind_eq_error failed with looped | ⟨loop, _, impossible⟩
            · exact .inl (loop_explained written (Opening.mem_of_first? found) looped)
            · cases impossible

private theorem expandNamed_explained {name : Text} (written : opening.Written)
    (structural : name = spelling.ifDirective ∨ name = spelling.forDirective)
    (failed : (expandNamed spelling name opening).outcome = .error fault) :
    opening.Explains fault := by
  rw [expandNamed, Opening.find?_str] at failed
  cases found : opening.first? name with
  | none =>
      rw [found] at failed
      cases failed
  | some attr =>
      simp only [found, Traced.outcome_bind] at failed
      rcases bind_eq_error failed with failed | ⟨expanded, _, impossible⟩
      · have named := Opening.name_of_first? found
        rcases expandAttr_explained written (Opening.mem_of_first? found) failed with
          explained | ⟨notCondition, notLoop, _⟩
        · exact explained
        · rcases structural with rfl | rfl
          · exact absurd named notCondition
          · exact absurd named notLoop
      · cases impossible

private theorem expand_explained (written : opening.Written)
    (failed : (expand spelling opening).outcome = .error fault) : opening.Explains fault := by
  simp only [expand, Traced.outcome_bind] at failed
  rcases bind_eq_error failed with failed | ⟨⟨conditions, between⟩, expanded, failed⟩
  · exact expandNamed_explained written (.inl rfl) failed
  · have part := expandNamed_partOf expanded
    rcases bind_eq_error failed with failed | ⟨looped, _, impossible⟩
    · exact part.explains (expandNamed_explained (part.written written) (.inr rfl) failed)
    · cases impossible

private theorem expandSlot_explained (written : opening.Written)
    (slot : opening.slot? spelling = some attr)
    (failed : (expandSlot spelling opening attr).outcome = .error fault) :
    opening.Explains fault ∨ opening.ExplainsUnknown spelling fault := by
  have member := List.mem_of_find?_eq_some slot
  simp only [expandSlot, Traced.outcome_bind] at failed
  rcases bind_eq_error failed with failed | ⟨⟨entry, between⟩, expanded, failed⟩
  · rcases expandAttr_explained written member failed with explained | ⟨_, _, rfl⟩
    · exact .inl explained
    · exact .inr (.unknown member (Opening.begins_of_slot? slot))
  · have part := expandAttr_partOf expanded
    rcases bind_eq_error failed with failed | ⟨rest, _, impossible⟩
    · exact .inl (part.explains (expand_explained (part.written written) failed))
    · cases impossible

end Expansion

/-! ## Faults of attributes -/

private theorem text_explained {spelling : Spelling} {opening : Opening} {attr : Attr}
    {fault : Fault} (written : opening.Written) (member : attr ∈ opening.attrs)
    (failed : attr.text spelling (some opening.origin.place) = .error fault) :
    opening.Explains fault := by
  have reported := Opening.Explains.binding member
  cases written.attrs attr member with
  | @flag name value origin =>
      cases value <;> cases failed
  | @raw name raw origin =>
      simp only [Attr.text, emitWritten] at failed
      split at failed
      · cases failed
      · cases bound : afterLongest? spelling.bindMarks name.toList with
        | some rest =>
            simp only [bound, emitBinding] at failed
            split at failed
            · cases failed
              exact reported
            · cases failed
        | none =>
            simp only [bound] at failed
            split at failed <;> cases failed

private theorem emitAttrs_explained {spelling : Spelling} {opening : Opening} {fault : Fault}
    (written : opening.Written)
    (failed : (emitAttrs spelling opening.attrs (some opening.origin.place)).outcome =
      .error fault) : opening.Explains fault := by
  rw [emitAttrs_outcome spelling written.attrs] at failed
  rcases bind_eq_error failed with failed | ⟨texts, _, impossible⟩
  · obtain ⟨attr, member, failed⟩ := mapM_eq_error failed
    exact text_explained written (List.mem_filter.mp member).1 failed
  · cases impossible

/-! ## Faults of a tree -/

section Trees

variable {spelling : Spelling} {opening : Opening} {children : List Node}

def Node.ExplainsHolding (spelling : Spelling) (node : Node) (fault : Fault) : Prop :=
  node.Explains spelling fault ∨
    ∃ opening children, node = .tag opening children ∧ opening.ExplainsUnknown spelling fault

private theorem emitTag_explained {expansion : Traced (List Wrapper × Opening)} {fault : Fault}
    (written : opening.Written) (built : ∀ child ∈ children, child.Written)
    (part : ∀ {wrappers left}, expansion.outcome = .ok (wrappers, left) → left.PartOf opening)
    (standing : ∀ child ∈ children, ∀ fault, (child.emit spelling).outcome = .error fault →
      child.Explains spelling fault)
    (holding : ∀ child ∈ children, child.isHolder spelling = true → ∀ fault,
      (child.emitHolder spelling).outcome = .error fault → child.ExplainsHolding spelling fault)
    (failed : (emitTag spelling expansion children (Node.emitSlots spelling children)
      (Node.emitOthers spelling children)).outcome = .error fault) :
    expansion.outcome = .error fault ∨ (Node.tag opening children).Explains spelling fault := by
  have named : ∀ {wrappers left}, expansion.outcome = .ok (wrappers, left) → left.name.IsText :=
    fun expanded => ((part expanded).written written).name
  rcases emitTag_eq_error named built failed with expansionFailed |
    ⟨wrappers, left, expanded, attrsFailed⟩ | ⟨child, member, holds, childFailed⟩ |
    ⟨child, member, childFailed⟩
  · exact .inl expansionFailed
  · have left := part expanded
    exact .inr (.tag .self (left.explains (emitAttrs_explained (left.written written) attrsFailed)))
  · rcases holding child member holds fault childFailed with
      explained | ⟨opening, grandchildren, rfl, unknown⟩
    · exact .inr (explained.within (.tag member))
    · exact .inr (.holder .self member unknown)
  · exact .inr ((standing child member fault childFailed).within (.tag member))

theorem emit_explained {node : Node} (written : node.Written) :
    (∀ fault, (node.emit spelling).outcome = .error fault → node.Explains spelling fault) ∧
      (node.isHolder spelling = true → ∀ fault,
        (node.emitHolder spelling).outcome = .error fault →
        node.ExplainsHolding spelling fault) := by
  induction written with
  | block _ ih =>
      refine ⟨?_, fun holds => Bool.noConfusion holds⟩
      intro fault failed
      rw [Node.emit, Node.emitAll_eq_concat] at failed
      obtain ⟨text, among, failed⟩ := Traced.concat_eq_error failed
      obtain ⟨child, member, rfl⟩ := List.mem_map.mp among
      exact ((ih child member).1 fault failed).within (.block member)
  | @tag opening children written built ih =>
      have standing := fun child member => (ih child member).1
      have holding := fun child member => (ih child member).2
      constructor
      · intro fault failed
        rw [Node.emit] at failed
        rcases emitTag_explained written built expand_partOf standing holding failed with
          expansionFailed | explained
        · exact .tag .self (expand_explained written expansionFailed)
        · exact explained
      · intro holds fault failed
        obtain ⟨attr, slot⟩ := Option.isSome_iff_exists.mp holds
        simp only [Node.emitHolder, slot] at failed
        rcases emitTag_explained written built expandSlot_partOf standing holding failed with
          expansionFailed | explained
        · rcases expandSlot_explained written slot expansionFailed with explained | unknown
          · exact .inl (.tag .self explained)
          · exact .inr ⟨opening, children, rfl, unknown⟩
        · exact .inl explained
  | text isText =>
      obtain ⟨content, rfl⟩ := isText
      refine ⟨?_, fun holds => Bool.noConfusion holds⟩
      intro fault failed
      cases failed
  | foreign _ =>
      refine ⟨?_, fun holds => Bool.noConfusion holds⟩
      intro fault failed
      cases failed
      exact .foreign .self

end Trees

/-- Whatever the spelling, a fault names a part of the given tree: a tag with an attribute of the
reported name and value, a tag directly in another tag with an attribute that begins like a slot, or
content that is no node. The reported place is the place of that part. -/
theorem emit_fault_explained (spelling : Spelling) {node : Node} (written : node.Written)
    {fault : Fault} (failed : (node.emit spelling).outcome = .error fault) :
    node.Explains spelling fault :=
  (emit_explained written).1 fault failed

theorem emit_fault_explained_of_holder :
    let spelling : Spelling := { slotDirective := "#", forDirective := "each" }
    let holder : Node := .tag
      { name := .str "template"
        attrs := [⟨.str "each", .str "\"r in rows\"", {}⟩, ⟨.str "#row", .str "\"r\"", {}⟩]
        origin := { filename := .str "table" } } []
    let tree : Node := .block [.tag { name := .str "x-table" } [holder]] {}
    let fault : Fault := .complain (.unknownDirective (.str "#row")) (.str "table")
    tree.Written ∧ (tree.emit spelling).outcome = .error fault ∧ tree.Explains spelling fault := by
  intro spelling holder tree fault
  have writtenHolder : holder.Written :=
    .tag ⟨⟨_, rfl⟩, List.forall_mem_cons.mpr ⟨.raw, List.forall_mem_singleton.mpr .raw⟩⟩ nofun
  have written : tree.Written :=
    .block (List.forall_mem_singleton.mpr (.tag ⟨⟨_, rfl⟩, nofun⟩
      (List.forall_mem_singleton.mpr writtenHolder)))
  have failed : (tree.emit spelling).outcome = .error fault := by decide +kernel
  exact ⟨written, failed, emit_fault_explained spelling written failed⟩

end TemplateJsx
