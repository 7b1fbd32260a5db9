import Mathlib.Data.List.Basic
import TemplateJsx.Proofs.EmissionFaults
import TemplateJsx.Proofs.EmissionOrder

/-!
# Violations

The rules that a tree can break, as the list of all complaints about it, and the outcome of emission in
terms of that list. In a written tree there is nothing else that could stop emission.
-/

set_option autoImplicit false

namespace TemplateJsx

open Text

/-! ## Rules of a tree -/

def complaints : Contributions Diagnostic where
  tag opening :=
    opening.conditionViolations ++ opening.loopViolations ++ opening.bindingViolations
  holder opening :=
    opening.slotViolations ++ opening.loopViolations ++ opening.conditionViolations ++
      opening.bindingViolations
  text _ := []
  foreign content := [⟨.malformedTree content.kind none, content.place⟩]

/-- All complaints about a tree in the usual spelling, in the order of emission. -/
def Node.violations (node : Node) : List Diagnostic := node.gather {} complaints

/-! ## Written tags -/

section Written

variable {opening : Opening}

private theorem kindFaults_of_written {attr : Attr} (written : attr.Written) :
    attr.kindFaults = [] := by
  cases written <;> rfl

private theorem sortingFaults_of_written {attr : Attr} (written : attr.Written) :
    attr.sortingFaults = [] := by
  cases written with
  | flag => rfl
  | raw =>
      simp only [Attr.sortingFaults, kindFaults_of_written .raw]
      split <;> rfl

private theorem emissionFaults_of_written {attr : Attr} (written : attr.Written) (place : Json) :
    attr.emissionFaults place = (attr.bindingViolations place).map .diagnosed := by
  cases written <;> rfl

private theorem bareFaults_of_written {attr : Attr} (written : attr.Written) :
    attr.bareFaults = [] := by
  cases written with
  | raw => rfl
  | @flag name value origin => cases value <;> rfl

private theorem kindFaults_of_found {found : Option Attr}
    (written : ∀ attr, found = some attr → attr.Written) :
    found.toList.flatMap Attr.kindFaults = [] := by
  cases found with
  | none => rfl
  | some attr => simp [kindFaults_of_written (written attr rfl)]

private theorem conditionFaults_of_written (written : opening.Written) :
    opening.conditionFaults = opening.conditionViolations.map .diagnosed := by
  rw [Opening.conditionFaults, kindFaults_of_found, List.append_nil]
  exact fun attr found => written.attrs attr (Opening.mem_of_first? found)

private theorem loopFaults_of_written (written : opening.Written) :
    opening.loopFaults = opening.loopViolations.map .diagnosed := by
  rw [Opening.loopFaults, kindFaults_of_found, List.append_nil]
  exact fun attr found => written.attrs attr (Opening.mem_of_first? found)

private theorem slotFaults_of_written (written : opening.Written) :
    opening.slotFaults = opening.slotViolations.map .diagnosed := by
  rw [Opening.slotFaults, kindFaults_of_found, List.append_nil]
  exact fun attr found => written.attrs attr (List.mem_of_find?_eq_some found)

private theorem leadFaults_of_written {attrs : List Attr} (written : ∀ attr ∈ attrs, attr.Written) :
    Attr.leadFaults attrs = [] := by
  have found := findLead?_stops attrs
  rw [Attr.findLead?_eq written] at found
  exact found.isOk_iff.mp ⟨_, rfl⟩

private theorem tagNameFaults_of_written (written : opening.Written) :
    opening.name.tagNameFaults = [] := by
  obtain ⟨name, named⟩ := written.name
  rw [named]
  rfl

/-- A directive that an expansion takes away is not bound: its name begins with a mark that no
binding begins with. -/
private theorem bindingViolations_of_begins {attr : Attr} {mark : Text}
    (begins : attr.begins mark = true) (directive : mark = "v-if" ∨ mark = "v-for" ∨ mark = "v-slot")
    (place : Json) : attr.bindingViolations place = [] := by
  unfold Attr.begins at begins
  unfold Attr.bindingViolations
  split
  · next name raw named valued =>
      simp only [named] at begins
      obtain ⟨rest, whole⟩ := startsWith_iff.mp begins
      rw [if_neg]
      rintro ⟨short | long, _⟩
      · obtain ⟨following, same⟩ := startsWith_iff.mp short
        rw [whole] at same
        rcases directive with rfl | rfl | rfl <;> simp at same
      · obtain ⟨following, same⟩ := startsWith_iff.mp long
        rw [whole] at same
        rcases directive with rfl | rfl | rfl <;> simp at same
  · rfl

private theorem standing_unbound (attr : Attr)
    (taken : [Json.str "v-if", .str "v-for"].any attr.name.agrees = true) (place : Json) :
    attr.bindingViolations place = [] := by
  simp only [List.any_cons, List.any_nil, Bool.or_false, Bool.or_eq_true,
    Json.agrees_str_iff] at taken
  rcases taken with condition | loop
  · exact bindingViolations_of_begins (by rw [Attr.begins, condition]; decide) (.inl rfl) place
  · exact bindingViolations_of_begins (by rw [Attr.begins, loop]; decide) (.inr (.inl rfl)) place

private theorem holding_unbound {slot : Attr} (begins : slot.begins "v-slot" = true) (attr : Attr)
    (taken : [slot.name, .str "v-if", .str "v-for"].any attr.name.agrees = true) (place : Json) :
    attr.bindingViolations place = [] := by
  rw [List.any_cons, Bool.or_eq_true] at taken
  rcases taken with named | directive
  · have same : attr.name = slot.name := by
      cases name : slot.name with
      | str content => rwa [name, Json.agrees_str_iff] at named
      | _ => simp [Attr.begins, name] at begins
    refine bindingViolations_of_begins ?_ (.inr (.inr rfl)) place
    rw [Attr.begins, same]
    exact begins
  · exact standing_unbound attr directive place

/-- Among the attributes of a tag only bindings can break a rule, and the attributes that an
expansion takes away are none. -/
private theorem attrsFaults_of_written (written : opening.Written) {names : List Json}
    (unbound : ∀ attr : Attr, names.any attr.name.agrees = true →
      ∀ place, attr.bindingViolations place = []) :
    opening.attrsFaults names = opening.bindingViolations.map .diagnosed := by
  have left := (written.without names).attrs
  have sorted : (opening.without names).attrs.flatMap Attr.sortingFaults = [] :=
    List.flatMap_eq_nil_iff.mpr fun attr member => sortingFaults_of_written (left attr member)
  have bare : (opening.without names).attrs.flatMap Attr.bareFaults = [] :=
    List.flatMap_eq_nil_iff.mpr fun attr member => bareFaults_of_written (left attr member)
  have bound : (opening.without names).attrs.flatMap
      (Attr.bindingViolations opening.origin.place) = opening.bindingViolations := by
    apply flatMap_filter_of_nil
    intro attr _ taken
    exact unbound attr (by simpa using taken) _
  rw [Opening.attrsFaults, sorted, bare, List.nil_append, List.append_nil, ← bound,
    List.map_flatMap]
  exact List.flatMap_congr fun attr member => emissionFaults_of_written (left attr member) _

private theorem standingFaults_of_written (written : opening.Written) :
    opening.faults false = (complaints.tag opening).map .diagnosed := by
  rw [Opening.faults, conditionFaults_of_written written, loopFaults_of_written written,
    tagNameFaults_of_written written, attrsFaults_of_written written standing_unbound, complaints]
  simp only [List.map_append, List.nil_append]

private theorem holdingFaults_of_written (written : opening.Written) {slot : Attr}
    (found : opening.slot? {} = some slot) :
    opening.faults true = (complaints.holder opening).map .diagnosed := by
  have begins : slot.begins "v-slot" = true := @Opening.begins_of_slot? {} opening slot found
  have attrs : opening.attrsFaults ((opening.slot? {}).toList.map (·.name) ++
      [.str "v-if", .str "v-for"]) = opening.bindingViolations.map .diagnosed := by
    rw [found]
    exact attrsFaults_of_written written (holding_unbound begins)
  rw [Opening.faults, slotFaults_of_written written, conditionFaults_of_written written,
    loopFaults_of_written written, tagNameFaults_of_written written, attrs, complaints]
  simp only [List.map_append, List.nil_append]

end Written

/-! ## Written trees -/

section Trees

private theorem among_of_written {nodes : List Node} {holders : Bool}
    {parts : Node → List Diagnostic} (each : ∀ node ∈ nodes, node.isHolder {} = holders →
      node.faults holders = (parts node).map .diagnosed) :
    Node.faultsAmong holders nodes =
      ((nodes.filter fun node => node.isHolder {} = holders).flatMap parts).map .diagnosed := by
  rw [Node.faultsAmong_eq_flatMap, List.map_flatMap]
  apply List.flatMap_congr
  intro node member
  obtain ⟨among, holds⟩ := List.mem_filter.mp member
  exact each node among (by simpa using holds)

private theorem leadFaults_of_child {node : Node} (written : node.Written) :
    node.leadFaults = [] := by
  cases written with
  | tag written _ => exact leadFaults_of_written written.attrs
  | _ => rfl

theorem faults_of_written {node : Node} (written : node.Written) :
    node.faults false = node.violations.map .diagnosed ∧
      (node.isHolder {} = true →
        node.faults true = (node.gatherHolder {} complaints).map .diagnosed) := by
  induction written with
  | block _ ih =>
      refine ⟨?_, fun holds => by cases holds⟩
      rw [Node.faults, Node.faultsOfAll_eq_flatMap, Node.violations, Node.gather,
        Node.gatherAll_eq_flatMap, List.map_flatMap]
      exact List.flatMap_congr fun child member => (ih child member).1
  | @tag opening children written built ih =>
      have leads : children.flatMap Node.leadFaults = [] :=
        List.flatMap_eq_nil_iff.mpr fun child member => leadFaults_of_child (built child member)
      have holders : Node.faultsAmong true children =
          (Node.gatherHolders {} complaints children).map .diagnosed := by
        rw [Node.gatherHolders_eq_flatMap, among_of_written fun child member => (ih child member).2]
        simp only [Bool.decide_eq_true]
      have others : Node.faultsAmong false children =
          (Node.gatherOthers {} complaints children).map .diagnosed := by
        rw [Node.gatherOthers_eq_flatMap, among_of_written fun child member _ => (ih child member).1]
        simp only [Bool.decide_eq_false]
        rfl
      constructor
      · rw [Node.faults, leads, holders, others, standingFaults_of_written written, Node.violations,
          Node.gather, List.nil_append, List.map_append, List.map_append]
      · intro holds
        obtain ⟨slot, found⟩ := Option.isSome_iff_exists.mp holds
        rw [Node.faults, leads, holders, others, holdingFaults_of_written written found,
          Node.gatherHolder, List.nil_append, List.map_append, List.map_append]
  | text isText =>
      obtain ⟨content, rfl⟩ := isText
      exact ⟨rfl, fun holds => by cases holds⟩
  | foreign _ => exact ⟨rfl, fun holds => by cases holds⟩

end Trees

/-! ## Reports -/

/-- An outcome reports a list of complaints when it is the first of them, or a success where there is
none. -/
def Reports {α : Type} (outcome : Except Fault α) : List Diagnostic → Prop
  | [] => ∃ value, outcome = .ok value
  | violation :: _ => outcome = .error (.diagnosed violation)

private theorem reports_iff {α : Type} {outcome : Except Fault α} {violations : List Diagnostic} :
    Reports outcome violations ↔ StopsAt outcome (violations.map .diagnosed) := by
  cases violations <;> rfl

theorem emit_reports {node : Node} (written : node.Written) :
    Reports (node.emit {}).outcome node.violations ∧
      (node.isHolder {} = true →
        Reports (node.emitHolder {}).outcome (node.gatherHolder {} complaints)) := by
  obtain ⟨standing, holding⟩ := faults_of_written written
  rw [reports_iff, ← standing]
  refine ⟨(emit_stops node).1, fun holds => ?_⟩
  rw [reports_iff, ← holding holds]
  exact (emit_stops node).2 holds

/-- Emission succeeds exactly on the trees that break no rule. On any other it stops with the first
complaint, with its wording, its values and its place. -/
theorem emit_stops_at_first_violation (node : Node) (written : node.Written) :
    ((∃ text, (node.emit {}).outcome = .ok text) ↔ node.violations = []) ∧
      ∀ fault, (node.emit {}).outcome = .error fault ↔
        ∃ first rest, node.violations = first :: rest ∧ fault = .diagnosed first := by
  have reported := (emit_reports written).1
  cases violations : node.violations with
  | nil =>
      rw [violations] at reported
      obtain ⟨text, succeeded⟩ := reported
      rw [succeeded]
      exact ⟨⟨fun _ => rfl, fun _ => ⟨text, rfl⟩⟩, fun fault => ⟨nofun, nofun⟩⟩
  | cons first rest =>
      rw [violations] at reported
      have failed : (node.emit {}).outcome = .error (.diagnosed first) := reported
      rw [failed]
      refine ⟨⟨nofun, nofun⟩, fun fault => ⟨?_, ?_⟩⟩
      · intro same
        cases same
        exact ⟨first, rest, rfl, rfl⟩
      · rintro ⟨other, others, same, rfl⟩
        cases same
        rfl

theorem emit_stops_at_loop_of_holder :
    let holder : Node := .tag
      { name := .str "template"
        attrs := [⟨.str "v-if", .bool true, {}⟩, ⟨.str "v-slot:row", .str "\"r\"", {}⟩,
          ⟨.str "v-for", .str "\"r of rows\"", {}⟩]
        origin := { filename := .str "table" } } []
    let tree : Node := .block [.tag { name := .str "x-table" } [.foreign (.value .null), holder]] {}
    tree.Written ∧ (tree.emit {}).outcome = .error (.diagnosed
      ⟨.invalidDirective (.str "v-for") (.str "\"r of rows\"") (some loopHint),
        .str "table"⟩) := by
  intro holder tree
  have writtenHolder : holder.Written :=
    .tag ⟨⟨_, rfl⟩, List.forall_mem_cons.mpr ⟨.flag, List.forall_mem_cons.mpr
      ⟨.raw, List.forall_mem_singleton.mpr .raw⟩⟩⟩ nofun
  have written : tree.Written :=
    .block (List.forall_mem_singleton.mpr (.tag ⟨⟨_, rfl⟩, nofun⟩
      (List.forall_mem_cons.mpr ⟨.foreign trivial, List.forall_mem_singleton.mpr writtenHolder⟩)))
  exact ⟨written, ((emit_stops_at_first_violation tree written).2 _).mpr ⟨_, _, rfl, rfl⟩⟩

end TemplateJsx
