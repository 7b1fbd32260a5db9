import TemplateJsx.Proofs.AttributeProperties
import TemplateJsx.Proofs.ExpansionProperties
import TemplateJsx.Proofs.FirstFault

/-!
# Faults of a tag

All that stops the work on a tag by itself, whatever values stand in it, in the order in which emission
comes to it. Beside the complaints about the rules of templates there are the mismatches: names and
values of kinds that emission cannot use. The rules look at a tag as it is written; emission looks at
copies of it from which directives are gone.
-/

set_option autoImplicit false

namespace TemplateJsx

open Text

/-! ## Rules of a single tag -/

namespace Opening

/-- The first condition needs an expression. -/
def conditionViolations (opening : Opening) : List Diagnostic :=
  match opening.first? "v-if" with
  | some ⟨_, .bool flag, _⟩ =>
      [⟨.invalidDirective (.str "v-if") (.bool flag) none, opening.origin.place⟩]
  | _ => []

/-- The first loop needs an expression of the form of a loop. -/
def loopViolations (opening : Opening) : List Diagnostic :=
  match opening.first? "v-for" with
  | some ⟨_, .bool flag, _⟩ =>
      [⟨.invalidDirective (.str "v-for") (.bool flag) none, opening.origin.place⟩]
  | some ⟨_, .str raw, _⟩ =>
      if IsLoopExpression (unquote raw) then []
      else [⟨.invalidDirective (.str "v-for") (.str raw) (some loopHint), opening.origin.place⟩]
  | _ => []

/-- The first attribute of a holder that begins like a slot needs to name one. -/
def slotViolations (opening : Opening) : List Diagnostic :=
  match opening.slot? {} with
  | some attr =>
      if attr.begins "v-slot:" then [] else [⟨.unknownDirective attr.name, opening.origin.place⟩]
  | none => []

end Opening

/-- A bound attribute with a written value needs a quoted expression. -/
def Attr.bindingViolations (place : Json) (attr : Attr) : List Diagnostic :=
  match attr.name, attr.value with
  | .str name, .str raw =>
      if (startsWith ":" name ∨ startsWith "v-bind:" name) ∧ ¬ IsFullQuotation raw then
        [⟨.invalidBinding (.str name) (.str raw), place⟩]
      else []
  | _, _ => []

def Opening.bindingViolations (opening : Opening) : List Diagnostic :=
  opening.attrs.flatMap (Attr.bindingViolations opening.origin.place)

/-! ## Values of the wrong kinds -/

def Json.textFaults : Json → List Fault
  | .str _ => []
  | _ => [.mismatch .textWanted]

/-- The name of a tag needs to be a string; a collection passes if no item of it is a hyphen. -/
def Json.tagNameFaults : Json → List Fault
  | .str _ => []
  | .arr items => if .str "-" ∈ items then [.mismatch .hyphenatedNameWanted] else []
  | .obj members =>
      if Text.ofString "-" ∈ members.map (·.1) then [.mismatch .hyphenatedNameWanted] else []
  | _ => [.mismatch .tagNameWanted]

namespace Attr

def kindFaults (attr : Attr) : List Fault :=
  match attr.value with
  | .bool _ => []
  | value => value.textFaults

/-- Telling plain attributes from others needs names, and the values of plain ones. -/
def sortingFaults (attr : Attr) : List Fault :=
  match attr.value, attr.name with
  | .bool _, _ => []
  | _, .str name =>
      if ([":", "@", "v-"] : List Text).any (startsWith · name) then [] else attr.kindFaults
  | _, _ => [.mismatch .attrNameWanted]

def emissionFaults (place : Json) (attr : Attr) : List Fault :=
  match attr.value, attr.name with
  | .bool _, _ => []
  | _, .str _ => attr.kindFaults ++ (attr.bindingViolations place).map .diagnosed
  | _, _ => [.mismatch .attrNameWanted]

/-- A flag that is set is its name, which needs to be a string. -/
def bareFaults (attr : Attr) : List Fault :=
  match attr.value, attr.name with
  | .bool true, .str _ => []
  | .bool true, _ => [.mismatch .bareNameWanted]
  | _, _ => []

/-- The search for the attribute that names a slot needs the names that it passes. -/
def leadFaults : List Attr → List Fault
  | [] => []
  | attr :: attrs =>
      match attr.name with
      | .str name => if startsWith "v-slot" name then [] else leadFaults attrs
      | _ => [.mismatch .attrNameWanted]

end Attr

/-! ## All faults of a tag -/

namespace Opening

def conditionFaults (opening : Opening) : List Fault :=
  opening.conditionViolations.map .diagnosed ++ (opening.first? "v-if").toList.flatMap Attr.kindFaults

def loopFaults (opening : Opening) : List Fault :=
  opening.loopViolations.map .diagnosed ++ (opening.first? "v-for").toList.flatMap Attr.kindFaults

def slotFaults (opening : Opening) : List Fault :=
  opening.slotViolations.map .diagnosed ++ (opening.slot? {}).toList.flatMap Attr.kindFaults

def attrsFaults (names : List Json) (opening : Opening) : List Fault :=
  let attrs := (opening.without names).attrs
  attrs.flatMap Attr.sortingFaults ++
    (attrs.flatMap (Attr.emissionFaults opening.origin.place) ++ attrs.flatMap Attr.bareFaults)

def faults (opening : Opening) : Bool → List Fault
  | false =>
      opening.conditionFaults ++ opening.loopFaults ++
        (opening.name.tagNameFaults ++ opening.attrsFaults [.str "v-if", .str "v-for"])
  | true =>
      opening.slotFaults ++ opening.loopFaults ++ opening.conditionFaults ++
        (opening.name.tagNameFaults ++ opening.attrsFaults
          ((opening.slot? {}).toList.map (·.name) ++ [.str "v-if", .str "v-for"]))

end Opening

/-! ## Directives -/

section Directives

variable {opening : Opening}

private theorem condition_stops (opening : Opening) :
    StopsAt (opening.condition {}) opening.conditionFaults := by
  unfold Opening.condition Opening.conditionFaults Opening.conditionViolations
  cases found : opening.first? "v-if" with
  | none => exact .ok []
  | some attr =>
      obtain ⟨name, value, origin⟩ := attr
      cases Opening.name_of_first? found
      cases value <;> first | rfl | exact ⟨_, rfl⟩

private theorem loop_stops (opening : Opening) : StopsAt (opening.loop? {}) opening.loopFaults := by
  unfold Opening.loop? Opening.loopFaults Opening.loopViolations
  cases found : opening.first? "v-for" with
  | none => exact .ok none
  | some attr =>
      obtain ⟨name, value, origin⟩ := attr
      cases Opening.name_of_first? found
      cases value with
      | str raw =>
          have accepted := @Loop.ofExpression?_isSome_iff (unquote raw)
          simp only [Attr.loop, Attr.expression, Json.unquoted]
          cases parsed : Loop.ofExpression? (unquote raw) with
          | some loop =>
              rw [if_pos (accepted.mp (by simp [parsed]))]
              exact ⟨_, rfl⟩
          | none =>
              rw [if_neg fun isLoop => by simpa [parsed] using accepted.mpr isLoop]
              rfl
      | _ => rfl

private theorem slotName_stops {attr : Attr} (slot : opening.slot? {} = some attr) :
    StopsAt (attr.slotName {} opening.origin.place) (opening.slotViolations.map .diagnosed) := by
  have begins : attr.begins "v-slot" = true := @Opening.begins_of_slot? {} opening attr slot
  simp only [Opening.slotViolations, slot, Attr.slotName]
  cases named : attr.name with
  | str name =>
      have spelled : ({} : Spelling).slotDirective ++ ":" = "v-slot:" := rfl
      simp only [spelled, Attr.nameAfter?, Attr.begins, named, startsWith]
      cases after? (Text.ofString "v-slot:").toList name.toList with
      | none => rfl
      | some rest => exact ⟨_, rfl⟩
  | _ => simp [Attr.begins, named] at begins

private theorem slotArguments_stops (attr : Attr) : StopsAt attr.slotArguments attr.kindFaults := by
  obtain ⟨name, value, origin⟩ := attr
  cases value <;> first | rfl | exact ⟨_, rfl⟩

theorem expand_stops (opening : Opening) :
    StopsAt (expand {} opening).outcome (opening.conditionFaults ++ opening.loopFaults) := by
  rw [expand_outcome opening Spelling.apart_default]
  apply (condition_stops opening).bind
  intro conditions _
  exact (loop_stops opening).map fun loop => ⟨_, rfl⟩

theorem expandSlot_stops {attr : Attr} (slot : opening.slot? {} = some attr) :
    StopsAt (expandSlot {} opening attr).outcome
      (opening.slotFaults ++ opening.loopFaults ++ opening.conditionFaults) := by
  have arguments : (opening.slot? {}).toList.flatMap Attr.kindFaults = attr.kindFaults := by
    rw [slot]
    exact List.flatMap_singleton ..
  rw [expandSlot_outcome Spelling.apart_default slot, Opening.slotFaults, arguments,
    List.append_assoc, List.append_assoc]
  apply (slotName_stops slot).bind
  intro name _
  apply (slotArguments_stops attr).bind
  intro given _
  apply (loop_stops opening).bind
  intro loop _
  exact (condition_stops opening).map fun conditions => ⟨_, rfl⟩

end Directives

/-! ## Attributes -/

section Attributes

theorem flatMap_filter_of_nil {α β : Type} {items : List α} {kept : α → Bool} {parts : α → List β}
    (silent : ∀ item ∈ items, kept item = false → parts item = []) :
    (items.filter kept).flatMap parts = items.flatMap parts := by
  induction items with
  | nil => rfl
  | cons item items ih =>
      have later := ih fun item member => silent item (List.mem_cons_of_mem _ member)
      cases keeps : kept item with
      | true => simp [keeps, later]
      | false => simp [keeps, later, silent item List.mem_cons_self keeps]

private theorem bindingViolations_of_plain {attr : Attr} {pair : Text × Text}
    (plain : attr.plainPair? {} = some pair) (place : Json) : attr.bindingViolations place = [] := by
  unfold Attr.plainPair? at plain
  split at plain
  · next name raw named valued =>
      have marks : ({} : Spelling).unmergeableMarks = ([":", "@", "v-"] : List Text) := rfl
      simp only [Attr.bindingViolations, named, valued]
      rw [if_neg]
      rintro ⟨begins, _⟩
      have marked : ([":", "@", "v-"] : List Text).any (startsWith · name) = true := by
        rcases begins with short | long
        · simp [short]
        · obtain ⟨rest, whole⟩ := startsWith_iff.mp long
          have directive : startsWith "v-" name = true :=
            startsWith_iff.mpr ⟨(Text.ofString "bind:").toList ++ rest, whole⟩
          simp [directive]
      rw [marks, if_pos marked] at plain
      cases plain
  · cases plain

private theorem text_stops {attr : Attr} (written : attr.Written) (place : Json) :
    StopsAt (attr.text {} (some place)) ((attr.bindingViolations place).map .diagnosed) := by
  cases written with
  | @flag name value origin => cases value <;> exact ⟨_, rfl⟩
  | @raw name raw origin =>
      simp only [Attr.text, Attr.bindingViolations, emitWritten]
      have marks : ({} : Spelling).bindMarks = ([":", "v-bind:"] : List Text) := rfl
      have bound := afterLongest?_isSome [":", "v-bind:"] name
      simp only [List.any_cons, List.any_nil, Bool.or_false] at bound
      rw [marks]
      by_cases model : name = "v-model"
      · subst model
        rw [if_pos rfl, if_neg fun violated => absurd violated.1 (by decide)]
        exact ⟨_, rfl⟩
      · rw [if_neg model]
        cases rest : afterLongest? [":", "v-bind:"] name.toList with
        | some following =>
            have begins : startsWith ":" name ∨ startsWith "v-bind:" name := by
              simpa [rest] using bound.symm
            simp only [emitBinding, begins, true_and, isFullQuotation_iff, Decidable.not_not]
            split
            · rfl
            · exact ⟨_, rfl⟩
        | none =>
            have different : ¬ (startsWith ":" name ∨ startsWith "v-bind:" name) := by
              simpa [rest] using bound.symm
            rw [if_neg fun violated => different violated.1]
            dsimp only
            split <;> exact ⟨_, rfl⟩

private theorem plain?_stops (attr : Attr) : StopsAt (attr.plain? {}) attr.sortingFaults := by
  obtain ⟨name, value, origin⟩ := attr
  have marks : ({} : Spelling).unmergeableMarks = ([":", "@", "v-"] : List Text) := rfl
  cases value with
  | bool flag => exact .ok none
  | _ =>
      cases name with
      | str name =>
          simp only [Attr.plain?, Attr.sortingFaults, marks]
          split
          · exact .ok none
          · first | rfl | exact ⟨_, rfl⟩
      | _ => rfl

private theorem plainPair?_of_plain? {spelling : Spelling} {attr : Attr}
    {pair : Option (Text × Text)}
    (told : attr.plain? spelling = .ok pair) : attr.plainPair? spelling = pair := by
  obtain ⟨name, value, origin⟩ := attr
  cases value with
  | bool flag =>
      cases told
      cases name <;> rfl
  | _ =>
      cases name with
      | str name =>
          simp only [Attr.plain?, Json.unquoted] at told
          simp only [Attr.plainPair?]
          split at told
          · next marked =>
              cases told
              first | rfl | rw [if_pos marked]
          · next plain =>
              cases told
              try rw [if_neg plain]
      | _ => cases told

theorem partitionAttrs_cons (spelling : Spelling) (attr : Attr) (attrs : List Attr) :
    partitionAttrs spelling (attr :: attrs) = (do
      let pair ← attr.plain? spelling
      let (others, pairs) ← partitionAttrs spelling attrs
      return if pair.isNone then (attr :: others, pairs) else (others, pair.toList ++ pairs)) := by
  rw [partitionAttrs]
  cases attr.plain? spelling with
  | error fault => rfl
  | ok pair =>
      cases partitionAttrs spelling attrs with
      | error fault => rfl
      | ok parts => cases pair <;> rfl

private theorem partitionAttrs_stops (attrs : List Attr) :
    StopsAt (partitionAttrs {} attrs) (attrs.flatMap Attr.sortingFaults) := by
  induction attrs with
  | nil => exact .ok _
  | cons attr attrs ih =>
      rw [partitionAttrs_cons, List.flatMap_cons]
      apply (plain?_stops attr).bind
      intro pair _
      exact ih.map fun parts => ⟨_, rfl⟩

private theorem others_of_partitionAttrs {spelling : Spelling} {attrs others : List Attr}
    {pairs : List (Text × Text)} (done : partitionAttrs spelling attrs = .ok (others, pairs)) :
    others = attrs.filter fun attr => (attr.plainPair? spelling).isNone := by
  induction attrs generalizing others pairs with
  | nil =>
      cases done
      rfl
  | cons attr attrs ih =>
      rw [partitionAttrs_cons] at done
      obtain ⟨pair, told, done⟩ := bind_eq_ok done
      obtain ⟨⟨rest, restPairs⟩, later, done⟩ := bind_eq_ok done
      rw [List.filter_cons, plainPair?_of_plain? told, ← ih later]
      cases pair <;> cases done <;> rfl

private theorem emit_eq_bind {attr : Attr} (written : attr.Written) (owner : Option Json) :
    attr.emit {} owner = attr.text {} owner >>= fun text => .ok (.str text) := by
  rw [Attr.emit_eq written]
  cases attr.text {} owner <;> rfl

private theorem emit_stops_of_attr (attr : Attr) (place : Json) :
    StopsAt (attr.emit {} (some place)) (attr.emissionFaults place) := by
  obtain ⟨name, value, origin⟩ := attr
  cases value with
  | bool flag => cases flag <;> exact ⟨_, rfl⟩
  | str raw =>
      cases name with
      | str name =>
          have written : Attr.Written ⟨.str name, .str raw, origin⟩ := .raw
          rw [emit_eq_bind written]
          exact (text_stops written place).map fun text => ⟨_, rfl⟩
      | _ => rfl
  | _ => cases name <;> rfl

theorem emitEach_eq_mapM (spelling : Spelling) (owner : Option Json) (attrs : List Attr) :
    emitEach spelling owner attrs = attrs.mapM (Attr.emit spelling · owner) := by
  induction attrs with
  | nil => rfl
  | cons attr attrs ih =>
      rw [emitEach, List.mapM_cons, ih]
      cases attr.emit spelling owner with
      | error fault => rfl
      | ok value => cases attrs.mapM (Attr.emit spelling · owner) <;> rfl

def Json.joinFaults : Json → List Fault
  | .str _ => []
  | _ => [.mismatch .bareNameWanted]

private theorem joinable_stops (values : List Json) :
    StopsAt (joinable values) (values.flatMap Json.joinFaults) := by
  induction values with
  | nil => exact .ok []
  | cons value values ih =>
      cases value with
      | str text =>
          have joined : joinable (.str text :: values) =
              joinable values >>= fun texts => .ok (text :: texts) := by
            rw [joinable]
            cases joinable values <;> rfl
          rw [joined]
          exact ih.map fun texts => ⟨_, rfl⟩
      | _ => rfl

private theorem joinFaults_of_emit {attr : Attr} {owner : Option Json} {value : Json}
    (emitted : attr.emit {} owner = .ok value) : value.joinFaults = attr.bareFaults := by
  obtain ⟨name, held, origin⟩ := attr
  cases held with
  | bool flag =>
      cases flag <;> cases emitted
      · rfl
      · cases name <;> rfl
  | str raw =>
      cases name with
      | str name =>
          rw [emit_eq_bind .raw] at emitted
          obtain ⟨text, _, made⟩ := bind_eq_ok emitted
          cases made
          rfl
      | _ => cases emitted
  | _ => cases name <;> cases emitted

private theorem flatMap_of_mapM {α β γ : Type} {step : α → Except Fault β} {after : β → List γ}
    {before : α → List γ} (each : ∀ item result, step item = .ok result → after result = before item)
    {items : List α} {results : List β} (done : items.mapM step = .ok results) :
    results.flatMap after = items.flatMap before := by
  induction items generalizing results with
  | nil =>
      cases done
      rfl
  | cons item items ih =>
      rw [List.mapM_cons] at done
      obtain ⟨first, here, done⟩ := bind_eq_ok done
      obtain ⟨rest, later, done⟩ := bind_eq_ok done
      cases done
      rw [List.flatMap_cons, List.flatMap_cons, each item first here, ih later]

section Plain

variable {attr : Attr} (plain : (attr.plainPair? {}).isNone = false)
include plain

private theorem written_of_plain : ∃ name raw, attr.name = .str name ∧ attr.value = .str raw := by
  unfold Attr.plainPair? at plain
  split at plain
  · next name raw named valued => exact ⟨name, raw, named, valued⟩
  · cases plain

private theorem emissionFaults_of_plain (place : Json) : attr.emissionFaults place = [] := by
  obtain ⟨name, raw, named, valued⟩ := written_of_plain plain
  obtain ⟨pair, isPlain⟩ := Option.isSome_iff_exists.mp (by simpa using plain)
  simp [Attr.emissionFaults, Attr.kindFaults, Json.textFaults, named, valued,
    bindingViolations_of_plain isPlain]

private theorem bareFaults_of_plain : attr.bareFaults = [] := by
  obtain ⟨name, raw, named, valued⟩ := written_of_plain plain
  simp only [Attr.bareFaults, named, valued]

end Plain

theorem mergeAttrs_outcome (spelling : Spelling) (attrs : List Attr) :
    (mergeAttrs spelling attrs).outcome = (do
      let (others, pairs) ← partitionAttrs spelling attrs
      return (others, (groupByName pairs).map fun (name, values) =>
        (name, Text.intercalate " " values))) := by
  unfold mergeAttrs
  cases partitionAttrs spelling attrs <;> rfl

theorem emitAttrs_stops (attrs : List Attr) (place : Json) :
    StopsAt (emitAttrs {} attrs (some place)).outcome
      (attrs.flatMap Attr.sortingFaults ++
        (attrs.flatMap (Attr.emissionFaults place) ++ attrs.flatMap Attr.bareFaults)) := by
  -- Only the attributes that are not plain are emitted one by one; plain ones add nothing to the lists.
  have emissions : (attrs.filter fun attr => (attr.plainPair? {}).isNone).flatMap
      (Attr.emissionFaults place) = attrs.flatMap (Attr.emissionFaults place) :=
    flatMap_filter_of_nil fun attr _ plain => emissionFaults_of_plain plain place
  have bares : (attrs.filter fun attr => (attr.plainPair? {}).isNone).flatMap Attr.bareFaults =
      attrs.flatMap Attr.bareFaults :=
    flatMap_filter_of_nil fun attr _ plain => bareFaults_of_plain plain
  have merged : StopsAt (mergeAttrs {} attrs).outcome (attrs.flatMap Attr.sortingFaults) := by
    rw [mergeAttrs_outcome]
    exact (partitionAttrs_stops attrs).map fun parts => ⟨_, rfl⟩
  rw [emitAttrs, Traced.outcome_bind]
  apply merged.bind
  rintro ⟨others, plains⟩ done
  rw [mergeAttrs_outcome] at done
  obtain ⟨⟨kept, pairs⟩, parted, same⟩ := bind_eq_ok done
  cases same
  rw [← emissions, ← bares, ← others_of_partitionAttrs parted]
  simp only [Traced.outcome_bind, Traced.outcome_lift, Traced.outcome_pure, emitEach_eq_mapM]
  apply (StopsAt.mapM fun attr _ => emit_stops_of_attr attr place).bind
  intro values emitted
  rw [← flatMap_of_mapM (fun _ _ => joinFaults_of_emit) emitted]
  exact (joinable_stops values).map fun texts => ⟨_, rfl⟩

end Attributes

end TemplateJsx
