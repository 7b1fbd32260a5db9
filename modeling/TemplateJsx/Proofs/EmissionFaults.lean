import TemplateJsx.Proofs.TagFaults

/-!
# Faults of a tree

All that stops the emission of a tree, in the order in which emission comes to it: past the first
fault, and at all depths.
-/

set_option autoImplicit false

namespace TemplateJsx

open Text

namespace Node

def leadFaults : Node → List Fault
  | .tag opening _ => Attr.leadFaults opening.attrs
  | _ => []

mutual

/-- The faults of a tree where it stands on its own, or where it holds a slot. -/
def faults (holds : Bool) : Node → List Fault
  | .block children _ => faultsOfAll children
  | .tag opening children =>
      opening.faults holds ++
        (children.flatMap leadFaults ++ (faultsAmong true children ++ faultsAmong false children))
  | .text value _ => value.textFaults
  | .foreign content => [.complain (.malformedTree content.kind none) content.place]

def faultsOfAll : List Node → List Fault
  | [] => []
  | node :: nodes => faults false node ++ faultsOfAll nodes

def faultsAmong (holders : Bool) : List Node → List Fault
  | [] => []
  | node :: nodes =>
      if node.isHolder {} = holders then faults holders node ++ faultsAmong holders nodes
      else faultsAmong holders nodes

end

theorem faultsOfAll_eq_flatMap (nodes : List Node) :
    faultsOfAll nodes = nodes.flatMap (faults false) := by
  induction nodes with
  | nil => rfl
  | cons node nodes ih => rw [faultsOfAll, ih, List.flatMap_cons]

theorem faultsAmong_eq_flatMap (holders : Bool) (nodes : List Node) :
    faultsAmong holders nodes =
      (nodes.filter fun node => node.isHolder {} = holders).flatMap (faults holders) := by
  induction nodes with
  | nil => rfl
  | cons node nodes ih =>
      rw [faultsAmong]
      split
      · next same => rw [List.filter_cons_of_pos (by simpa using same), List.flatMap_cons, ih]
      · next other => rw [List.filter_cons_of_neg (by simpa using other), ih]

end Node

/-! ## Emission -/

section Trees

private theorem elementNameOf_stops (name : Json) :
    StopsAt (elementNameOf name) name.tagNameFaults := by
  cases name with
  | str name => exact ⟨_, rfl⟩
  | arr items =>
      simp only [elementNameOf, Json.tagNameFaults]
      split
      · rfl
      · exact ⟨_, rfl⟩
  | obj members =>
      simp only [elementNameOf, Json.tagNameFaults]
      split
      · rfl
      · exact ⟨_, rfl⟩
  | _ => rfl

theorem findLead?_stops (attrs : List Attr) :
    StopsAt (Attr.findLead? "v-slot" attrs) (Attr.leadFaults attrs) := by
  induction attrs with
  | nil => exact .ok none
  | cons attr attrs ih =>
      rw [Attr.findLead?, Attr.nameAfter?, Attr.leadFaults]
      cases attr.name with
      | str name =>
          cases rest : after? (Text.ofString "v-slot").toList name.toList with
          | none =>
              simp only [startsWith, rest, Option.map_none]
              exact ih
          | some rest' =>
              simp only [startsWith, rest, Option.map_some]
              exact ⟨_, rfl⟩
      | _ => rfl

private theorem holdsSlot_stops (node : Node) : StopsAt (node.holdsSlot {}) node.leadFaults := by
  cases node with
  | tag opening children =>
      have told : (Node.tag opening children).holdsSlot {} =
          opening.slotAttr? {} >>= fun attr => .ok attr.isSome := by
        rw [Node.holdsSlot]
        cases opening.slotAttr? {} <;> rfl
      rw [told]
      exact (findLead?_stops opening.attrs).map fun attr => ⟨_, rfl⟩
  | _ => exact .ok false

private theorem ofChildren_stops (children : List Node) :
    StopsAt (Family.ofChildren {} children) (children.flatMap Node.leadFaults) := by
  induction children with
  | nil => exact .ok _
  | cons child children ih =>
      have told : Family.ofChildren {} (child :: children) = (do
          let holds ← child.holdsSlot {}
          let family ← Family.ofChildren {} children
          return if holds then { family with slots := true } else { family with others := true }) := by
        rw [Family.ofChildren]
        cases child.holdsSlot {} with
        | error fault => rfl
        | ok holds =>
            cases Family.ofChildren {} children with
            | error fault => rfl
            | ok family => cases holds <;> rfl
      rw [told, List.flatMap_cons]
      apply (holdsSlot_stops child).bind
      intro holds _
      exact ih.map fun family => ⟨_, rfl⟩

variable {opening : Opening} {children : List Node}

private theorem emitElement_stops {names : List Json}
    (standing : ∀ child ∈ children, StopsAt (child.emit {}).outcome (child.faults false))
    (holding : ∀ child ∈ children, child.isHolder {} = true →
      StopsAt (child.emitHolder {}).outcome (child.faults true)) :
    StopsAt (emitElement {} (opening.without names) children (Node.emitSlots {} children)
        (Node.emitOthers {} children)).outcome
      (opening.name.tagNameFaults ++ opening.attrsFaults names ++
        (children.flatMap Node.leadFaults ++
          (Node.faultsAmong true children ++ Node.faultsAmong false children))) := by
  have holders : StopsAt (Traced.concat ((children.filter (·.isHolder {})).map
      (Node.emitHolder {}))).outcome (Node.faultsAmong true children) := by
    simp only [Node.faultsAmong_eq_flatMap, Bool.decide_eq_true]
    apply StopsAt.concat
    intro child member
    obtain ⟨among, holds⟩ := List.mem_filter.mp member
    exact holding child among holds
  have others : StopsAt (Traced.concat ((children.filter fun child => !child.isHolder {}).map
      (Node.emit {}))).outcome (Node.faultsAmong false children) := by
    simp only [Node.faultsAmong_eq_flatMap, Bool.decide_eq_false]
    apply StopsAt.concat
    intro child member
    exact standing child (List.mem_filter.mp member).1
  rw [emitElement_outcome_of_any, List.append_assoc]
  apply (elementNameOf_stops opening.name).bind
  intro name _
  apply (emitAttrs_stops (opening.without names).attrs opening.origin.place).bind
  intro attrs _
  apply (ofChildren_stops children).bind
  intro family _
  apply holders.bind
  intro entries _
  exact others.map fun body => ⟨_, rfl⟩

private theorem emitTag_stops {expansion : Traced (List Wrapper × Opening)} {earlier : List Fault}
    (expanded : StopsAt expansion.outcome earlier) {names : List Json}
    (left : ∀ wrappers remaining, expansion.outcome = .ok (wrappers, remaining) →
      remaining = opening.without names)
    (standing : ∀ child ∈ children, StopsAt (child.emit {}).outcome (child.faults false))
    (holding : ∀ child ∈ children, child.isHolder {} = true →
      StopsAt (child.emitHolder {}).outcome (child.faults true)) :
    StopsAt (emitTag {} expansion children (Node.emitSlots {} children)
        (Node.emitOthers {} children)).outcome
      (earlier ++ (opening.name.tagNameFaults ++ opening.attrsFaults names) ++
        (children.flatMap Node.leadFaults ++
          (Node.faultsAmong true children ++ Node.faultsAmong false children))) := by
  rw [emitTag_outcome, List.append_assoc]
  apply expanded.bind
  rintro ⟨wrappers, remaining⟩ done
  rw [left wrappers remaining done]
  exact (emitElement_stops standing holding).map fun body => ⟨_, rfl⟩

/-- Both ways to emit a node stop at its first fault: where it stands on its own, and where it holds a
slot of the tag around it. -/
theorem emit_stops (node : Node) :
    StopsAt (node.emit {}).outcome (node.faults false) ∧
      (node.isHolder {} = true → StopsAt (node.emitHolder {}).outcome (node.faults true)) := by
  induction node.arbitrary with
  | block _ ih =>
      refine ⟨?_, fun holds => by cases holds⟩
      rw [Node.emit, Node.emitAll_eq_concat, Node.faults, Node.faultsOfAll_eq_flatMap]
      exact .concat fun child member => (ih child member).1
  | @tag opening children _ _ ih =>
      have standing := fun child member => (ih child member).1
      have holding := fun child member => (ih child member).2
      constructor
      · rw [Node.emit, Node.faults]
        exact emitTag_stops (expand_stops opening)
          (fun _ _ done => expand_left opening Spelling.apart_default done) standing holding
      · intro holds
        obtain ⟨slot, found⟩ := Option.isSome_iff_exists.mp holds
        rw [Node.emitHolder, found, Node.faults, Opening.faults, found]
        exact emitTag_stops (expandSlot_stops found)
          (fun _ _ done => expandSlot_left Spelling.apart_default found done) standing holding
  | @text value _ _ =>
      refine ⟨?_, fun holds => by cases holds⟩
      cases value <;> first | rfl | exact ⟨_, rfl⟩
  | foreign _ => exact ⟨rfl, fun holds => by cases holds⟩

end Trees

/-! ## Kinds of faults -/

inductive Fault.OfEmission : Fault → Prop where
  | diagnosed {diagnostic : Diagnostic} : OfEmission (.diagnosed diagnostic)
  | mismatch {cause : Mismatch} : OfEmission (.mismatch cause)

section Kinds

private theorem ofEmission_of_violations (violations : List Diagnostic) :
    ∀ fault ∈ violations.map Fault.diagnosed, fault.OfEmission := by
  intro fault member
  obtain ⟨diagnostic, _, rfl⟩ := List.mem_map.mp member
  exact .diagnosed

private theorem ofEmission_of_textFaults (value : Json) :
    ∀ fault ∈ value.textFaults, fault.OfEmission := by
  cases value with
  | str => nofun
  | _ => exact List.forall_mem_singleton.mpr .mismatch

private theorem ofEmission_of_kindFaults (attr : Attr) :
    ∀ fault ∈ attr.kindFaults, fault.OfEmission := by
  unfold Attr.kindFaults
  split
  · nofun
  · exact ofEmission_of_textFaults _

private theorem ofEmission_of_flatMap {α : Type} {items : List α} {faults : α → List Fault}
    (each : ∀ item ∈ items, ∀ fault ∈ faults item, fault.OfEmission) :
    ∀ fault ∈ items.flatMap faults, fault.OfEmission := by
  intro fault member
  obtain ⟨item, among, here⟩ := List.mem_flatMap.mp member
  exact each item among fault here

private theorem ofEmission_of_tagNameFaults (name : Json) :
    ∀ fault ∈ name.tagNameFaults, fault.OfEmission := by
  unfold Json.tagNameFaults
  split
  · nofun
  · split
    · exact List.forall_mem_singleton.mpr .mismatch
    · nofun
  · split
    · exact List.forall_mem_singleton.mpr .mismatch
    · nofun
  · exact List.forall_mem_singleton.mpr .mismatch

private theorem ofEmission_of_leadFaults (attrs : List Attr) :
    ∀ fault ∈ Attr.leadFaults attrs, fault.OfEmission := by
  induction attrs with
  | nil => nofun
  | cons attr attrs ih =>
      rw [Attr.leadFaults]
      split
      · split
        · nofun
        · exact ih
      · exact List.forall_mem_singleton.mpr .mismatch

private theorem ofEmission_of_attrsFaults (names : List Json) (opening : Opening) :
    ∀ fault ∈ opening.attrsFaults names, fault.OfEmission := by
  simp only [Opening.attrsFaults, List.forall_mem_append]
  refine ⟨ofEmission_of_flatMap fun attr _ => ?_, ofEmission_of_flatMap fun attr _ => ?_,
    ofEmission_of_flatMap fun attr _ => ?_⟩
  · unfold Attr.sortingFaults
    split
    · nofun
    · split
      · nofun
      · exact ofEmission_of_kindFaults attr
    · exact List.forall_mem_singleton.mpr .mismatch
  · unfold Attr.emissionFaults
    split
    · nofun
    · exact List.forall_mem_append.mpr
        ⟨ofEmission_of_kindFaults attr, ofEmission_of_violations _⟩
    · exact List.forall_mem_singleton.mpr .mismatch
  · unfold Attr.bareFaults
    split
    · nofun
    · exact List.forall_mem_singleton.mpr .mismatch
    · nofun

private theorem ofEmission_of_opening (opening : Opening) (holds : Bool) :
    ∀ fault ∈ opening.faults holds, fault.OfEmission := by
  have kinds : ∀ found : Option Attr, ∀ fault ∈ found.toList.flatMap Attr.kindFaults,
      fault.OfEmission :=
    fun found => ofEmission_of_flatMap fun attr _ => ofEmission_of_kindFaults attr
  cases holds with
  | false =>
      simp only [Opening.faults, Opening.conditionFaults, Opening.loopFaults, List.forall_mem_append]
      exact ⟨⟨⟨ofEmission_of_violations _, kinds _⟩, ofEmission_of_violations _, kinds _⟩,
        ofEmission_of_tagNameFaults _, ofEmission_of_attrsFaults _ _⟩
  | true =>
      simp only [Opening.faults, Opening.conditionFaults, Opening.loopFaults, Opening.slotFaults,
        List.forall_mem_append]
      exact ⟨⟨⟨⟨ofEmission_of_violations _, kinds _⟩, ofEmission_of_violations _, kinds _⟩,
        ofEmission_of_violations _, kinds _⟩,
        ofEmission_of_tagNameFaults _, ofEmission_of_attrsFaults _ _⟩

theorem ofEmission_of_faults (node : Node) (holds : Bool) :
    ∀ fault ∈ node.faults holds, fault.OfEmission := by
  induction node.arbitrary generalizing holds with
  | block _ ih =>
      rw [Node.faults, Node.faultsOfAll_eq_flatMap]
      exact ofEmission_of_flatMap fun child member => ih child member false
  | @tag opening children _ _ ih =>
      have among : ∀ holders, ∀ fault ∈ Node.faultsAmong holders children, fault.OfEmission := by
        intro holders
        rw [Node.faultsAmong_eq_flatMap]
        exact ofEmission_of_flatMap fun child member =>
          ih child (List.mem_filter.mp member).1 holders
      have leads : ∀ fault ∈ children.flatMap Node.leadFaults, fault.OfEmission := by
        refine ofEmission_of_flatMap fun child _ => ?_
        cases child with
        | tag opening _ => exact ofEmission_of_leadFaults opening.attrs
        | _ => nofun
      rw [Node.faults]
      simp only [List.forall_mem_append]
      exact ⟨ofEmission_of_opening opening holds, leads, among true, among false⟩
  | text _ => exact ofEmission_of_textFaults _
  | foreign _ => exact List.forall_mem_singleton.mpr .diagnosed

end Kinds

end TemplateJsx
