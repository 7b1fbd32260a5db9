import TemplateJsx.Proofs.EmissionOrder
import TemplateJsx.Proofs.Rearrangement

/-!
# The trace of emission

The events that a successful emission tells, read off the tree as it is written. Every tag tells once
what is resolved on it and what is merged, before its children do. Emission itself works on copies of
tags from which directives are gone, and asks for the directives and the attributes of each copy.
-/

set_option autoImplicit false

namespace TemplateJsx

/-! ## What a tree tells -/

def Attr.mergeableName? (attr : Attr) : Option Text :=
  match attr.role, attr.name with
  | .plain, .str name => some name
  | _, _ => none

namespace Opening

/-- A directive of a name is resolved if the tag has one, and only the first. -/
def resolving (directive : Text) (opening : Opening) : List Event :=
  (opening.first? directive).toList.map fun _ => .resolving (.str directive) opening.name

def resolvingSlot (opening : Opening) : List Event :=
  (opening.slot? {}).toList.map fun attr => .resolving attr.name opening.name

/-- Each name that several attributes share is merged, in the order in which the names first
appear. -/
def merging (opening : Opening) : List Event :=
  let names := opening.attrs.filterMap Attr.mergeableName?
  (names.eraseDups.filter fun name => 2 ≤ names.count name).map fun name =>
    .merging (names.count name) name

end Opening

def tellings : Contributions Event where
  tag opening := opening.resolving "v-if" ++ opening.resolving "v-for" ++ opening.merging
  holder opening := opening.resolvingSlot ++ opening.resolving "v-if" ++ opening.merging
  text _ := []
  foreign _ := []

/-- The trace of a tree in the usual spelling. -/
def Node.trace (node : Node) : List Event := node.gather {} tellings

/-! ## Told events -/

section Tells

variable {α β : Type}

/-- A computation that tells these events if it succeeds. -/
def Traced.Tells (computation : Traced α) (told : List Event) : Prop :=
  ∀ value, computation.outcome = .ok value → computation.events = told

namespace Traced.Tells

private theorem pure (value : α) : Tells (Pure.pure value) [] := fun _ _ => rfl

private theorem lift (outcome : Except Fault α) : Tells (Traced.lift outcome) [] := fun _ _ => rfl

private theorem tell (event : Event) : Tells (Traced.tell event) [event] := fun _ _ => rfl

private theorem bind {first : Traced α} {next : α → Traced β} {earlier later : List Event}
    (here : first.Tells earlier)
    (continued : ∀ value, first.outcome = .ok value → (next value).Tells later) :
    (first >>= next).Tells (earlier ++ later) := by
  intro result succeeded
  obtain ⟨events, outcome⟩ := first
  cases outcome with
  | error fault => cases succeeded
  | ok value =>
      have told : events = earlier := here value rfl
      have toldNext : (next value).events = later := continued value rfl result succeeded
      change events ++ (next value).events = _
      rw [told, toldNext]

private theorem map {first : Traced α} {next : α → Traced β} {told : List Event}
    (here : first.Tells told)
    (silent : ∀ value, first.outcome = .ok value → (next value).Tells []) :
    (first >>= next).Tells told := by
  have whole := here.bind silent
  rwa [List.append_nil] at whole

private theorem concat {nodes : List Node} {emitted : Node → Traced Text} {told : Node → List Event}
    (each : ∀ node ∈ nodes, (emitted node).Tells (told node)) :
    (Traced.concat (nodes.map emitted)).Tells (nodes.flatMap told) := by
  induction nodes with
  | nil => exact .pure ("" : Text)
  | cons node nodes ih =>
      rw [List.map_cons, Traced.concat, List.flatMap_cons]
      refine (each node List.mem_cons_self).bind fun text _ => ?_
      refine (ih fun node member => each node (List.mem_cons_of_mem _ member)).map fun rest _ => ?_
      exact .pure _

end Traced.Tells

end Tells


/-! ## Expansion -/

section Expansion

variable (spelling : Spelling) (opening : Opening)

private theorem expandAttr_tells (attr : Attr) :
    (expandAttr spelling opening attr).Tells [.resolving attr.name opening.name] := by
  refine (Traced.Tells.lift _).bind fun directive _ => ?_
  refine (Traced.Tells.tell _).map fun _ _ => ?_
  cases directive with
  | conditional condition | iteration loop => exact .pure _
  | slot name arguments =>
      dsimp only
      split
      · exact .pure _
      · exact (Traced.Tells.lift _).map fun loop _ => .pure _

private theorem expandNamed_tells (name : Text) :
    (expandNamed spelling name opening).Tells (opening.resolving name) := by
  unfold expandNamed Opening.resolving
  rw [Opening.find?_str]
  cases found : opening.first? name with
  | none => exact .pure _
  | some attr =>
      rw [← Opening.name_of_first? found]
      exact (expandAttr_tells spelling opening attr).map fun _ _ => .pure _

variable {opening}

private theorem expand_tells :
    (expand {} opening).Tells (opening.resolving "v-if" ++ opening.resolving "v-for") := by
  refine (expandNamed_tells {} opening "v-if").bind ?_
  rintro ⟨conditions, between⟩ expanded
  obtain ⟨wrappers, _, same⟩ :=
    bind_eq_ok ((expandNamed_condition opening Spelling.apart_default).symm.trans expanded)
  cases same
  have loops : (opening.without [.str "v-if"]).resolving "v-for" = opening.resolving "v-for" := by
    rw [Opening.resolving, Opening.first?_without opening (by decide)]
    rfl
  rw [← loops]
  exact (expandNamed_tells {} _ "v-for").map fun _ _ => .pure _

/-- The loop of a holder goes with its entry and is not told. -/
private theorem expandSlot_tells {attr : Attr} (slot : opening.slot? {} = some attr) :
    (expandSlot {} opening attr).Tells (opening.resolvingSlot ++ opening.resolving "v-if") := by
  have begins : attr.begins (Spelling.slotDirective {}) = true := Opening.begins_of_slot? slot
  have notCondition := Attr.name_ne_of_begins begins Spelling.apart_default.condition
  rw [Opening.resolvingSlot, slot]
  refine (expandAttr_tells {} opening attr).bind ?_
  rintro ⟨entry, left⟩ expanded
  rw [expandAttr_slot Spelling.apart_default slot] at expanded
  obtain ⟨name, _, expanded⟩ := bind_eq_ok expanded
  obtain ⟨arguments, _, expanded⟩ := bind_eq_ok expanded
  obtain ⟨loop, _, expanded⟩ := bind_eq_ok expanded
  cases expanded
  have conditions : (opening.without [attr.name, .str "v-for"]).resolving "v-if" =
      opening.resolving "v-if" := by
    rw [Opening.resolving, Opening.first?_without opening (by simpa using notCondition.symm)]
    rfl
  have loops : (opening.without [attr.name, .str "v-for"]).resolving "v-for" = [] := by
    rw [Opening.resolving, Opening.first?_without_mem opening (by simp)]
    rfl
  have rest := @expand_tells (opening.without [attr.name, .str "v-for"])
  rw [conditions, loops, List.append_nil] at rest
  exact rest.map fun _ _ => .pure _

end Expansion

/-! ## Attributes -/

private theorem filterMap_mergeableName? {attrs : List Attr}
    (written : ∀ attr ∈ attrs, attr.Written) :
    (attrs.filterMap (·.plainPair? {})).map Prod.fst = attrs.filterMap Attr.mergeableName? := by
  rw [List.map_filterMap]
  apply List.filterMap_congr
  intro attr member
  by_cases role : attr.role = .plain
  · obtain ⟨name, named, pair⟩ := plainPair?_of_plain (written attr member) role
    rw [pair, Attr.mergeableName?, role, named]
    rfl
  · rw [plainPair?_of_ne_plain (written attr member) role]
    unfold Attr.mergeableName?
    split
    · next plain _ => exact absurd plain role
    · rfl

private theorem mergeEvents_groupByName (pairs : List (Text × Text)) :
    mergeEvents (groupByName pairs) =
      ((pairs.map Prod.fst).eraseDups.filter fun name => 2 ≤ (pairs.map Prod.fst).count name).map
        fun name => .merging ((pairs.map Prod.fst).count name) name := by
  rw [mergeEvents, groupByName_eq, List.filter_map, List.map_map]
  simp only [← length_valuesOf]
  rfl

/-- The names that an expansion takes away are none of a merged attribute. -/
private theorem emitAttrs_tells {opening : Opening} (written : opening.Written) {names : List Json}
    (directives : DirectiveNames names) (owner : Option Json) :
    (emitAttrs {} (opening.without names).attrs owner).Tells opening.merging := by
  have left := (written.without names).attrs
  have pairs : (opening.without names).attrs.filterMap (·.plainPair? {}) =
      opening.attrs.filterMap (·.plainPair? {}) := by
    refine filterMap_plainPair?_of_kept written.attrs fun attr plain => ?_
    rw [Bool.not_eq_true']
    exact Bool.eq_false_iff.mpr fun taken => directives.notPlain attr taken plain
  have merged : (mergeAttrs {} (opening.without names).attrs).Tells opening.merging := by
    intro result _
    simp only [mergeAttrs, partitionAttrs_eq {} left, pairs, mergeEvents_groupByName,
      filterMap_mergeableName? written.attrs]
    rfl
  refine merged.map ?_
  rintro ⟨others, plains⟩ _
  refine (Traced.Tells.lift _).map fun emitted _ => ?_
  exact (Traced.Tells.lift _).map fun texts _ => .pure _

/-! ## Elements and tags -/

section Tags

variable {opening : Opening} {children : List Node}
  (standing : ∀ child ∈ children, (child.emit {}).Tells child.trace)
  (holding : ∀ child ∈ children, child.isHolder {} = true →
    (child.emitHolder {}).Tells (child.gatherHolder {} tellings))

include standing holding

private theorem emitElement_tells (written : opening.Written) {names : List Json}
    (directives : DirectiveNames names) (built : ∀ child ∈ children, child.Written) :
    (emitElement {} (opening.without names) children (Node.emitSlots {} children)
        (Node.emitOthers {} children)).Tells
      (opening.merging ++
        (Node.gatherHolders {} tellings children ++ Node.gatherOthers {} tellings children)) := by
  have holders : (Node.emitSlots {} children).Tells (Node.gatherHolders {} tellings children) := by
    rw [Node.emitSlots_eq_concat {} built, Node.gatherHolders_eq_flatMap]
    apply Traced.Tells.concat
    intro child member
    obtain ⟨among, holds⟩ := List.mem_filter.mp member
    exact holding child among holds
  have others : (Node.emitOthers {} children).Tells (Node.gatherOthers {} tellings children) := by
    rw [Node.emitOthers_eq_concat {} built, Node.gatherOthers_eq_flatMap]
    apply Traced.Tells.concat
    intro child member
    exact standing child (List.mem_filter.mp member).1
  refine (Traced.Tells.lift _).bind fun name _ => ?_
  refine (emitAttrs_tells written directives _).bind fun attrs _ => ?_
  refine (Traced.Tells.lift _).bind fun family counted => ?_
  cases (Family.ofChildren_eq {} built).symm.trans counted
  have finish : ∀ (start : Text) (name : Text), Traced.Tells
      (if (Family.among {} children).others then do
        let body ← Node.emitOthers {} children
        return start ++ ">" ++ body ++ "</" ++ name ++ ">"
      else return start ++ " />") (Node.gatherOthers {} tellings children) := by
    intro start name
    split
    · exact others.map fun body _ => .pure _
    · next none =>
        rw [Node.gatherOthers_eq_flatMap, Family.others_eq_nil (Bool.eq_false_iff.mpr none)]
        exact .pure _
  dsimp only
  split
  · exact holders.bind fun entries _ => finish _ _
  · next none =>
      rw [Node.gatherHolders_eq_flatMap, Family.holders_eq_nil (Bool.eq_false_iff.mpr none)]
      exact (Traced.Tells.pure "").bind fun entries _ => finish _ _

private theorem emitTag_tells {expansion : Traced (List Wrapper × Opening)} {resolved : List Event}
    (expanded : expansion.Tells resolved) (written : opening.Written) {names : List Json}
    (directives : DirectiveNames names)
    (left : ∀ wrappers remaining, expansion.outcome = .ok (wrappers, remaining) →
      remaining = opening.without names)
    (built : ∀ child ∈ children, child.Written) :
    (emitTag {} expansion children (Node.emitSlots {} children)
        (Node.emitOthers {} children)).Tells
      (resolved ++ opening.merging ++
        (Node.gatherHolders {} tellings children ++ Node.gatherOthers {} tellings children)) := by
  rw [List.append_assoc]
  refine expanded.bind ?_
  rintro ⟨wrappers, remaining⟩ done
  cases left wrappers remaining done
  exact (emitElement_tells standing holding written directives built).map fun body _ => .pure _

end Tags

theorem emit_tells {node : Node} (written : node.Written) :
    (node.emit {}).Tells node.trace ∧
      (node.isHolder {} = true →
        (node.emitHolder {}).Tells (node.gatherHolder {} tellings)) := by
  induction written with
  | block _ ih =>
      refine ⟨?_, fun holds => by cases holds⟩
      rw [Node.trace, Node.gather, Node.gatherAll_eq_flatMap, Node.emit, Node.emitAll_eq_concat]
      apply Traced.Tells.concat
      intro child member
      exact (ih child member).1
  | @tag opening children written built ih =>
      have standing := fun child member => (ih child member).1
      have holding := fun child member => (ih child member).2
      constructor
      · rw [Node.trace, Node.gather, Node.emit]
        exact emitTag_tells standing holding expand_tells written directiveNames_standing
          (fun _ _ done => expand_left opening Spelling.apart_default done) built
      · intro holds
        obtain ⟨slot, found⟩ := Option.isSome_iff_exists.mp holds
        have begins : slot.begins "v-slot" = true := @Opening.begins_of_slot? {} opening slot found
        rw [Node.gatherHolder, Node.emitHolder, found]
        exact emitTag_tells standing holding (expandSlot_tells found) written
          (directiveNames_holding begins)
          (fun _ _ done => expandSlot_left Spelling.apart_default found done) built
  | text _ => exact ⟨.lift _, fun holds => by cases holds⟩
  | foreign _ =>
      refine ⟨fun text succeeded => ?_, fun holds => by cases holds⟩
      cases succeeded

/-- A tree that is emitted has told exactly its trace: each directive that is resolved and each name
that is merged, once, in the order of emission. -/
theorem emit_events_eq_trace {node : Node} (written : node.Written) {text : Text}
    (succeeded : (node.emit {}).outcome = .ok text) : (node.emit {}).events = node.trace :=
  (emit_tells written).1 text succeeded

theorem emit_events_of_repeated_directives :
    let cell : Node := .tag
      { name := .str "template"
        attrs := [⟨.str "id", .str "'a'", {}⟩, ⟨.str "v-for", .str "\"c in r\"", {}⟩,
          ⟨.str "v-slot:cell", .bool true, {}⟩, ⟨.str "v-if", .str "\"c\"", {}⟩,
          ⟨.str "id", .str "'b'", {}⟩] } []
    let tree : Node := .block [.tag
      { name := .str "x-table"
        attrs := [⟨.str "v-for", .str "\"r in rows\"", {}⟩, ⟨.str "class", .str "'a'", {}⟩,
          ⟨.str "v-if", .str "\"ok\"", {}⟩, ⟨.str "v-if", .bool true, {}⟩,
          ⟨.str "class", .str "'b'", {}⟩, ⟨.str "v-for", .bool false, {}⟩] }
      [.tag { name := .str "p", attrs := [⟨.str "v-if", .str "\"p\"", {}⟩] } [], cell]] {}
    (tree.emit {}).events =
      [.resolving (.str "v-if") (.str "x-table"), .resolving (.str "v-for") (.str "x-table"),
        .merging 2 "class", .resolving (.str "v-slot:cell") (.str "template"),
        .resolving (.str "v-if") (.str "template"), .merging 2 "id",
        .resolving (.str "v-if") (.str "p")] := by
  intro cell tree
  have writtenCell : cell.Written := by
    refine .tag ⟨⟨_, rfl⟩, ?_⟩ nofun
    simp only [List.forall_mem_cons]
    exact ⟨.raw, .raw, .flag, .raw, .raw, nofun⟩
  have written : tree.Written := by
    refine .block (List.forall_mem_singleton.mpr (.tag ⟨⟨_, rfl⟩, ?_⟩ ?_))
    · simp only [List.forall_mem_cons]
      exact ⟨.raw, .raw, .raw, .flag, .raw, .flag, nofun⟩
    · simp only [List.forall_mem_cons]
      exact ⟨.tag ⟨⟨_, rfl⟩, List.forall_mem_singleton.mpr .raw⟩ nofun, writtenCell, nofun⟩
  have succeeds : (tree.emit {}).outcome.isOk = true := by decide +kernel
  cases emitted : (tree.emit {}).outcome with
  | error fault =>
      rw [emitted] at succeeds
      cases succeeds
  | ok text =>
      rw [emit_events_eq_trace written emitted]
      decide +kernel

end TemplateJsx
