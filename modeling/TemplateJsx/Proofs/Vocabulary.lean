import TemplateJsx.Proofs.LoadProperties
import TemplateJsx.Proofs.TagFaults

/-!
# The vocabulary of trees

Loading, emission and dumping know three varieties of nodes. What loading makes is of these varieties
at every depth, also in the blocks of tags, whose types loading does not look at. So neither of the
other two meets anything foreign in a loaded tree, whatever the spelling, the layout and the kinds of
the values in the tree are.
-/

set_option autoImplicit false

namespace TemplateJsx

/-! ## Kinds of failures -/

section FailsOnly

variable {α β : Type} {allowed wider : Fault → Prop}

def FailsOnly (allowed : Fault → Prop) (outcome : Except Fault α) : Prop :=
  ∀ fault, outcome = .error fault → allowed fault

namespace FailsOnly

private theorem ok (value : α) : FailsOnly allowed (.ok value) := by
  intro fault failed
  cases failed

private theorem error {fault : Fault} (fits : allowed fault) :
    FailsOnly allowed (.error fault : Except Fault α) := by
  intro other failed
  cases failed
  exact fits

private theorem mono {outcome : Except Fault α} (fails : FailsOnly allowed outcome)
    (widens : ∀ fault, allowed fault → wider fault) : FailsOnly wider outcome :=
  fun fault failed => widens fault (fails fault failed)

private theorem bind {first : Except Fault α} {next : α → Except Fault β}
    (here : FailsOnly allowed first)
    (later : ∀ value, FailsOnly allowed (next value)) : FailsOnly allowed (first >>= next) := by
  intro fault failed
  cases bind_eq_error failed with
  | inl failedHere => exact here fault failedHere
  | inr continued =>
      obtain ⟨value, _, failedLater⟩ := continued
      exact later value fault failedLater

private theorem mapM {items : List α} {step : α → Except Fault β}
    (each : ∀ item ∈ items, FailsOnly allowed (step item)) : FailsOnly allowed (items.mapM step) := by
  intro fault failed
  obtain ⟨item, member, failedHere⟩ := mapM_eq_error failed
  exact each item member fault failedHere

private theorem concat {texts : List (Traced Text)}
    (each : ∀ text ∈ texts, FailsOnly allowed text.outcome) :
    FailsOnly allowed (Traced.concat texts).outcome := by
  intro fault failed
  obtain ⟨text, member, failedHere⟩ := Traced.concat_eq_error failed
  exact each text member fault failedHere

end FailsOnly

end FailsOnly

/-- A complaint about a directive or a binding, or a value of a kind that emission cannot use. -/
inductive Fault.OfTag : Fault → Prop where
  | unknown {directive place : Json} : OfTag (.complain (.unknownDirective directive) place)
  | directive {directive value place : Json} {hint : Option Text} :
      OfTag (.complain (.invalidDirective directive value hint) place)
  | binding {name value place : Json} : OfTag (.complain (.invalidBinding name value) place)
  | mismatch {cause : Mismatch} : OfTag (.mismatch cause)

/-! ## Failures of a tag by itself

Whatever its attributes are, a tag fails over them and never as a node. -/

section Directives

variable (spelling : Spelling) (opening : Opening) (attr : Attr) (owner : Option Json)

private theorem unquoted_fails (value : Json) : FailsOnly Fault.OfTag value.unquoted := by
  cases value with
  | str content => exact .ok _
  | _ => exact .error .mismatch

private theorem expression_fails : FailsOnly Fault.OfTag (attr.expression owner) := by
  unfold Attr.expression
  split
  · exact .error .directive
  · exact unquoted_fails _

private theorem loop_fails : FailsOnly Fault.OfTag (attr.loop owner) := by
  unfold Attr.loop
  cases expressed : attr.expression owner with
  | error fault => exact .error (expression_fails attr owner fault expressed)
  | ok expression =>
      dsimp only
      cases Loop.ofExpression? expression with
      | some loop => exact .ok loop
      | none => exact .error .directive

private theorem nameAfter?_fails (lead : Text) : FailsOnly Fault.OfTag (attr.nameAfter? lead) := by
  unfold Attr.nameAfter?
  split
  · exact .ok _
  · exact .error .mismatch

private theorem slotArguments_fails : FailsOnly Fault.OfTag attr.slotArguments := by
  unfold Attr.slotArguments
  split
  · exact .ok _
  · exact unquoted_fails _

private theorem ofAttr_fails : FailsOnly Fault.OfTag (Directive.ofAttr spelling attr owner) := by
  unfold Directive.ofAttr
  cases named : attr.nameAfter? (spelling.slotDirective ++ ":") with
  | error fault => exact .error (nameAfter?_fails attr _ fault named)
  | ok rest =>
      cases rest with
      | some name =>
          cases given : attr.slotArguments with
          | error fault => exact .error (slotArguments_fails attr fault given)
          | ok arguments => exact .ok _
      | none =>
          dsimp only
          split
          · cases expressed : attr.expression owner with
            | error fault => exact .error (expression_fails attr owner fault expressed)
            | ok condition => exact .ok _
          · split
            · cases understood : attr.loop owner with
              | error fault => exact .error (loop_fails attr owner fault understood)
              | ok loop => exact .ok _
            · exact .error .unknown

private theorem expandAttr_fails :
    FailsOnly Fault.OfTag (expandAttr spelling opening attr).outcome := by
  simp only [expandAttr, Traced.outcome_bind, Traced.outcome_lift, Traced.outcome_tell, ok_bind]
  apply (ofAttr_fails spelling attr _).bind
  intro directive
  cases directive with
  | conditional condition | iteration loop => exact .ok _
  | slot name arguments =>
      cases opening.find? (.str spelling.forDirective) with
      | none => exact .ok _
      | some forAttr =>
          simp only [Traced.outcome_bind, Traced.outcome_lift]
          exact (loop_fails forAttr _).bind fun loop => .ok _

private theorem expandNamed_fails (name : Text) :
    FailsOnly Fault.OfTag (expandNamed spelling name opening).outcome := by
  unfold expandNamed
  split
  · exact .ok _
  · next attr _ =>
      simp only [Traced.outcome_bind]
      exact (expandAttr_fails spelling opening attr).bind fun _ => .ok _

private theorem expand_fails : FailsOnly Fault.OfTag (expand spelling opening).outcome := by
  simp only [expand, Traced.outcome_bind]
  apply (expandNamed_fails spelling opening _).bind
  intro conditions
  apply (expandNamed_fails spelling conditions.2 _).bind
  exact fun loops => .ok _

private theorem expandSlot_fails :
    FailsOnly Fault.OfTag (expandSlot spelling opening attr).outcome := by
  simp only [expandSlot, Traced.outcome_bind]
  apply (expandAttr_fails spelling opening attr).bind
  intro entry
  apply (expand_fails spelling entry.2).bind
  exact fun inner => .ok _

end Directives

section Attributes

variable (spelling : Spelling) (attr : Attr) (owner : Option Json)

private theorem plain?_fails : FailsOnly Fault.OfTag (attr.plain? spelling) := by
  unfold Attr.plain?
  split
  · exact .ok _
  · split
    · split
      · exact .ok _
      · cases said : attr.value.unquoted with
        | error fault => exact .error (unquoted_fails _ fault said)
        | ok text => exact .ok _
    · exact .error .mismatch

private theorem partitionAttrs_fails (attrs : List Attr) :
    FailsOnly Fault.OfTag (partitionAttrs spelling attrs) := by
  induction attrs with
  | nil => exact .ok _
  | cons attr attrs ih =>
      simp only [partitionAttrs_cons]
      apply (plain?_fails spelling attr).bind
      intro pair
      exact ih.bind fun parts => .ok _

private theorem emitWritten_fails (name raw : Text) (place : Json) :
    FailsOnly Fault.OfTag (emitWritten spelling name raw place) := by
  unfold emitWritten emitBinding
  split
  · exact .ok _
  · split
    · dsimp only
      split
      · exact .error .binding
      · exact .ok _
    · split <;> exact .ok _

private theorem emit_fails_of_attr : FailsOnly Fault.OfTag (attr.emit spelling owner) := by
  unfold Attr.emit
  split
  · exact .ok _
  · exact .ok _
  · split
    · next name _ =>
        split
        · next raw _ =>
            cases written : emitWritten spelling name raw (attr.blamed owner) with
            | error fault => exact .error (emitWritten_fails spelling name raw _ fault written)
            | ok text => exact .ok _
        · exact .error .mismatch
    · exact .error .mismatch

private theorem joinable_fails (values : List Json) : FailsOnly Fault.OfTag (joinable values) := by
  induction values with
  | nil => exact .ok _
  | cons value values ih =>
      cases value with
      | str text =>
          rw [joinable]
          cases joined : joinable values with
          | error fault => exact .error (ih fault joined)
          | ok texts => exact .ok _
      | _ => exact .error .mismatch

private theorem emitAttrs_fails (attrs : List Attr) :
    FailsOnly Fault.OfTag (emitAttrs spelling attrs owner).outcome := by
  simp only [emitAttrs, Traced.outcome_bind, Traced.outcome_lift, mergeAttrs_outcome,
    emitEach_eq_mapM]
  apply FailsOnly.bind
  · exact (partitionAttrs_fails spelling attrs).bind fun parts => .ok _
  · intro merged
    apply (FailsOnly.mapM fun attr _ => emit_fails_of_attr spelling attr owner).bind
    intro emitted
    exact (joinable_fails emitted).bind fun texts => .ok _

private theorem elementNameOf_fails (name : Json) : FailsOnly Fault.OfTag (elementNameOf name) := by
  unfold elementNameOf
  split
  · exact .ok _
  · split
    · exact .error .mismatch
    · exact .ok _
  · split
    · exact .error .mismatch
    · exact .ok _
  · exact .error .mismatch

private theorem findLead?_fails (lead : Text) (attrs : List Attr) :
    FailsOnly Fault.OfTag (Attr.findLead? lead attrs) := by
  induction attrs with
  | nil => exact .ok _
  | cons attr attrs ih =>
      rw [Attr.findLead?]
      cases named : attr.nameAfter? lead with
      | error fault => exact .error (nameAfter?_fails attr lead fault named)
      | ok rest =>
          cases rest with
          | none => exact ih
          | some rest => exact .ok _

private theorem holdsSlot_fails (node : Node) :
    FailsOnly Fault.OfTag (node.holdsSlot spelling) := by
  cases node with
  | tag opening children =>
      rw [Node.holdsSlot]
      cases found : opening.slotAttr? spelling with
      | error fault => exact .error (findLead?_fails _ opening.attrs fault found)
      | ok attr => exact .ok _
  | _ => exact .ok _

private theorem ofChildren_fails (children : List Node) :
    FailsOnly Fault.OfTag (Family.ofChildren spelling children) := by
  induction children with
  | nil => exact .ok _
  | cons child children ih =>
      rw [Family.ofChildren]
      cases told : child.holdsSlot spelling with
      | error fault => exact .error (holdsSlot_fails spelling child fault told)
      | ok holds =>
          cases later : Family.ofChildren spelling children with
          | error fault => exact .error (ih fault later)
          | ok family => cases holds <;> exact .ok _

end Attributes

/-! ## Nodes in a tree -/

namespace Node

/-- The nodes in a tree: itself, the children of the blocks in it, and the blocks of the tags in it. -/
inductive Reaches : Node → Node → Prop where
  | self {node : Node} : Reaches node node
  | child {children : List Node} {origin : Origin} {child part : Node} :
      child ∈ children → Reaches child part → Reaches (.block children origin) part
  | block {opening : Opening} {children : List Node} {part : Node} :
      Reaches (.block children opening.blockOrigin) part → Reaches (.tag opening children) part

inductive InVocabulary : Node → Prop where
  | block {children : List Node} {origin : Origin} : InVocabulary (.block children origin)
  | tag {opening : Opening} {children : List Node} : InVocabulary (.tag opening children)
  | text {value : Json} {origin : Origin} : InVocabulary (.text value origin)

private theorem Reaches.trans {tree part inner : Node} (outer : tree.Reaches part)
    (rest : part.Reaches inner) : tree.Reaches inner := by
  induction outer with
  | self => exact rest
  | child member _ ih => exact .child member (ih rest)
  | block _ ih => exact .block (ih rest)

private theorem Native.of_reaches {tree part : Node} (reached : tree.Reaches part)
    (native : tree.Native) : part.Native := by
  induction reached with
  | self => exact native
  | child member _ ih =>
      cases native with
      | block each => exact ih (each _ member)
  | block _ ih =>
      cases native with
      | tag _ each => exact ih (.block each)

private theorem Native.inVocabulary {node : Node} (native : node.Native) : node.InVocabulary := by
  cases native with
  | block _ => exact .block
  | tag _ _ => exact .tag
  | text _ => exact .text
  | foreign impossible => exact impossible.elim

/-! ## Failures of a tree -/

inductive CanFailWith (node : Node) : Fault → Prop where
  | tag {fault : Fault} : fault.OfTag → CanFailWith node fault
  | foreign {content : Foreign} : node.Reaches (.foreign content) →
      CanFailWith node (.complain (.malformedTree content.kind none) content.place)

private theorem CanFailWith.within {part node : Node} (reached : node.Reaches part) {fault : Fault}
    (fails : part.CanFailWith fault) : node.CanFailWith fault := by
  cases fails with
  | tag fits => exact .tag fits
  | foreign inner => exact .foreign (reached.trans inner)

end Node

section Trees

variable (spelling : Spelling) {children : List Node} {allowed : Fault → Prop}

private theorem emitTag_fails {expansion : Traced (List Wrapper × Opening)}
    (ofTag : ∀ fault, Fault.OfTag fault → allowed fault)
    (expanded : FailsOnly Fault.OfTag expansion.outcome)
    (standing : ∀ child ∈ children, FailsOnly allowed (child.emit spelling).outcome)
    (holding : ∀ child ∈ children, FailsOnly allowed (child.emitHolder spelling).outcome) :
    FailsOnly allowed (emitTag spelling expansion children (Node.emitSlots spelling children)
      (Node.emitOthers spelling children)).outcome := by
  have among : ∀ {emitted : Node → Traced Text} {kept : Node → Bool},
      (∀ child ∈ children, FailsOnly allowed (emitted child).outcome) →
      FailsOnly allowed (Traced.concat ((children.filter kept).map emitted)).outcome := by
    intro emitted kept each
    apply FailsOnly.concat
    intro text member
    obtain ⟨child, filtered, same⟩ := List.mem_map.mp member
    subst same
    exact each child (List.mem_filter.mp filtered).1
  simp only [emitTag_outcome, emitElement_outcome_of_any]
  apply (expanded.mono ofTag).bind
  intro expandedTag
  refine FailsOnly.bind ?_ fun body => .ok _
  apply ((elementNameOf_fails expandedTag.2.name).mono ofTag).bind
  intro name
  apply ((emitAttrs_fails spelling _ expandedTag.2.attrs).mono ofTag).bind
  intro attrs
  apply ((ofChildren_fails spelling children).mono ofTag).bind
  intro family
  apply (among holding).bind
  intro entries
  exact (among standing).bind fun body => .ok _

/-- Under any spelling, a tree of any values fails with a fault of a tag or over foreign content in it,
both where it stands on its own and where it holds a slot. -/
theorem emit_fails (node : Node) :
    FailsOnly node.CanFailWith (node.emit spelling).outcome ∧
      FailsOnly node.CanFailWith (node.emitHolder spelling).outcome := by
  induction node.arbitrary with
  | @block children origin _ ih =>
      refine ⟨?_, .ok _⟩
      simp only [Node.emit, Node.emitAll_eq_concat]
      apply FailsOnly.concat
      intro text member
      obtain ⟨child, among, same⟩ := List.mem_map.mp member
      subst same
      exact (ih child among).1.mono fun fault => .within (.child among .self)
  | @tag opening children _ _ ih =>
      have inside : ∀ child ∈ children, (Node.tag opening children).Reaches child :=
        fun child member => .block (.child member .self)
      have standing : ∀ child ∈ children,
          FailsOnly (Node.tag opening children).CanFailWith (child.emit spelling).outcome :=
        fun child member => (ih child member).1.mono fun fault => .within (inside child member)
      have holding : ∀ child ∈ children,
          FailsOnly (Node.tag opening children).CanFailWith (child.emitHolder spelling).outcome :=
        fun child member => (ih child member).2.mono fun fault => .within (inside child member)
      constructor
      · rw [Node.emit]
        exact emitTag_fails spelling (fun _ => .tag) (expand_fails spelling opening) standing holding
      · rw [Node.emitHolder]
        cases opening.slot? spelling with
        | none => exact .ok _
        | some attr =>
            exact emitTag_fails spelling (fun _ => .tag) (expandSlot_fails spelling opening attr)
              standing holding
  | @text value _ _ =>
      refine ⟨?_, .ok _⟩
      cases value with
      | str content => exact .ok _
      | _ => exact .error (.tag .mismatch)
  | foreign _ => exact ⟨.error (.foreign .self), .ok _⟩

theorem Node.Native.emit_not_malformed {node : Node} (native : node.Native) (kind : Text)
    (reason : Option Text) (place : Json) :
    (node.emit spelling).outcome ≠ .error (.complain (.malformedTree kind reason) place) := by
  intro failed
  have allowed := (emit_fails spelling node).1 _ failed
  cases allowed with
  | tag fits => cases fits
  | foreign reached => cases Node.Native.of_reaches reached native with
    | foreign impossible => exact impossible

end Trees

/-! ## Loaded trees -/

namespace Node

theorem native_of_ofSource {source : Json} {tree : Node} (loaded : ofSource source = .ok tree) :
    tree.Native := by
  unfold ofSource at loaded
  split at loaded
  · next written =>
      unfold ofText at loaded
      cases read : Json.read written with
      | error cause =>
          rw [read] at loaded
          cases loaded
      | ok value =>
          rw [read] at loaded
          exact native_of_ofJson loaded
  · exact native_of_ofJson loaded

/-- A tree that loads from a value or from JSON text is made of blocks, tags and texts at every depth.
So its emission never complains of a malformed tree, and it can be dumped in every layout. That a tag
holds its children in a block is true of every tree: the shape of tags leaves no room for anything
else. -/
theorem ofSource_in_vocabulary {source : Json} {tree : Node} (loaded : ofSource source = .ok tree) :
    (∀ part, tree.Reaches part → part.InVocabulary) ∧
      (∀ opening children, tree.Reaches (.tag opening children) →
        tree.Reaches (.block children opening.blockOrigin)) ∧
      (∀ spelling kind reason place,
        (tree.emit spelling).outcome ≠ .error (.complain (.malformedTree kind reason) place)) ∧
      ∀ layout, ∃ text, tree.dump layout = .ok text := by
  have native := native_of_ofSource loaded
  refine ⟨?_, ?_, ?_, ?_⟩
  · intro part reached
    exact (Native.of_reaches reached native).inVocabulary
  · intro opening children reached
    exact reached.trans (.block .self)
  · intro spelling kind reason place
    exact native.emit_not_malformed spelling kind reason place
  · intro layout
    exact native.dump_isOk layout

theorem ofSource_in_vocabulary_of_odd_values :
    let block : Json := .obj [("type", .str "Code"),
      ("nodes", .arr [.obj [("type", .str "Text"), ("val", .arr [])]])]
    let tag : Json := .obj [("type", .str "Tag"), ("name", .null),
      ("attrs", .arr [.obj [("name", .int 7)]]), ("block", block)]
    let tree : Node := .block [.tag { name := .null, attrs := [{ name := .int 7 }] }
      [.text (.arr []) {}]] {}
    ofSource (.obj [("type", .str "Block"), ("nodes", .arr [tag])]) = .ok tree ∧
      (tree.emit {}).outcome = .error (.mismatch .tagNameWanted) ∧
      (∀ part, tree.Reaches part → part.InVocabulary) ∧
      (∀ spelling kind reason place,
        (tree.emit spelling).outcome ≠ .error (.complain (.malformedTree kind reason) place)) ∧
      ∃ text, tree.dump (.lines "->") = .ok text := by
  intro block tag tree
  have loaded : ofSource (.obj [("type", .str "Block"), ("nodes", .arr [tag])]) = .ok tree := rfl
  obtain ⟨parts, _, emission, dumps⟩ := ofSource_in_vocabulary loaded
  exact ⟨loaded, rfl, parts, emission, dumps (.lines "->")⟩

end Node

end TemplateJsx
