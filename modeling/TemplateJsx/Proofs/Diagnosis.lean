import TemplateJsx.Proofs.CommandContract
import TemplateJsx.Proofs.EmissionFaults

/-!
# Diagnosed failures

Which failures of the command end with a message. The first thing that is wrong with a source decides:
text that is no JSON and complaints about the tree are handled; mismatches are not, and neither is a
result that cannot be printed. No other fault arises from a text.
-/

set_option autoImplicit false

namespace TemplateJsx

namespace Source

def loadFaults (text : String) : List Fault :=
  match Json.read text with
  | .error cause => [.notJson cause]
  | .ok value => value.treeFaults

/-- What is wrong with the text that a tree is emitted as: the output takes no surrogates. -/
def printFaults (tree : Node) : List Fault :=
  match (tree.emit {}).outcome with
  | .ok output => if output.HoldsSurrogate then [.unprintable] else []
  | .error _ => []

/-- All that is wrong with a text, up to the printing of what the tree of the text is emitted as. -/
def faults (text : String) : List Fault :=
  loadFaults text ++
    match Node.ofText text with
    | .ok tree => tree.faults false ++ printFaults tree
    | .error _ => []

private theorem ofText_stops (text : String) : StopsAt (Node.ofText text) (loadFaults text) := by
  unfold Node.ofText loadFaults
  cases Json.read text with
  | error cause => rfl
  | ok value => exact Node.ofJson_stops value

private theorem ofEmission_of_emit_error {tree : Node} {fault : Fault}
    (failed : (tree.emit {}).outcome = .error fault) : fault.OfEmission :=
  ofEmission_of_faults tree false fault
    (List.mem_of_mem_head? ((emit_stops tree).1.error_iff.mp failed))

inductive OfText : Fault → Prop where
  | notJson {cause : Json.ReadError} : OfText (.notJson cause)
  | loading {fault : Fault} : fault.OfLoading → OfText fault

private theorem ofText_of_loadFaults (text : String) : ∀ fault ∈ loadFaults text, OfText fault := by
  unfold loadFaults
  cases Json.read text with
  | error cause => exact List.forall_mem_singleton.mpr .notJson
  | ok value => exact fun fault member => .loading (ofLoading_of_treeFaults value fault member)

section Cases

variable {text : String}

private theorem faults_of_error {fault : Fault} (failed : Node.ofText text = .error fault) :
    (faults text).head? = some fault := by
  have first := (ofText_stops text).error_iff.mp failed
  simp only [faults, failed, List.append_nil]
  exact first

section Loaded

variable {tree : Node} (loaded : Node.ofText text = .ok tree)
include loaded

private theorem faults_of_ok : faults text = tree.faults false ++ printFaults tree := by
  have fine : loadFaults text = [] := (ofText_stops text).isOk_iff.mp ⟨tree, loaded⟩
  simp only [faults, loaded, fine, List.nil_append]

private theorem first_of_emit_error {fault : Fault}
    (failed : (tree.emit {}).outcome = .error fault) : (faults text).head? = some fault := by
  rw [faults_of_ok loaded, List.head?_append, (emit_stops tree).1.error_iff.mp failed]
  rfl

private theorem faults_of_emit_ok {output : Text} (emitted : (tree.emit {}).outcome = .ok output) :
    faults text = if output.HoldsSurrogate then [.unprintable] else [] := by
  have fine : tree.faults false = [] := (emit_stops tree).1.isOk_iff.mp ⟨output, emitted⟩
  rw [faults_of_ok loaded, fine, List.nil_append, printFaults, emitted]

/-- Printing is the last step, so its fault comes first exactly where nothing else is wrong. -/
theorem first_eq_unprintable_iff : (faults text).head? = some .unprintable ↔
    ∃ output, (tree.emit {}).outcome = .ok output ∧ output.HoldsSurrogate := by
  cases emitted : (tree.emit {}).outcome with
  | error fault =>
      have fits := ofEmission_of_emit_error emitted
      rw [first_of_emit_error loaded emitted]
      constructor
      · rintro ⟨⟩
        cases fits
      · rintro ⟨_, ⟨⟩, _⟩
  | ok output =>
      rw [faults_of_emit_ok loaded emitted]
      by_cases holds : output.HoldsSurrogate
      · simp [holds]
      · simp [holds]

end Loaded

end Cases

theorem first_cases (text : String) :
    (faults text).head? = none ∨
      (∃ diagnostic, (faults text).head? = some (.diagnosed diagnostic)) ∨
      (∃ cause, (faults text).head? = some (.notJson cause)) ∨
      (∃ cause, (faults text).head? = some (.mismatch cause)) ∨
      (faults text).head? = some .unprintable := by
  cases made : Node.ofText text with
  | error fault =>
      have among := List.mem_of_mem_head? ((ofText_stops text).error_iff.mp made)
      rw [faults_of_error made]
      cases ofText_of_loadFaults text fault among with
      | notJson => exact .inr (.inr (.inl ⟨_, rfl⟩))
      | loading fits =>
          cases fits with
          | malformed => exact .inr (.inl ⟨_, rfl⟩)
          | mismatch => exact .inr (.inr (.inr (.inl ⟨_, rfl⟩)))
  | ok tree =>
      cases emitted : (tree.emit {}).outcome with
      | error fault =>
          rw [first_of_emit_error made emitted]
          cases ofEmission_of_emit_error emitted with
          | diagnosed => exact .inr (.inl ⟨_, rfl⟩)
          | mismatch => exact .inr (.inr (.inr (.inl ⟨_, rfl⟩)))
      | ok output =>
          rw [faults_of_emit_ok made emitted]
          by_cases holds : output.HoldsSurrogate
          · rw [if_pos holds]
            exact .inr (.inr (.inr (.inr rfl)))
          · rw [if_neg holds]
            exact .inl rfl

end Source

namespace Command

def endingAt : Option Fault → Ending
  | none => .exit 0
  | some (.notJson _) => .exit 2
  | some fault => endingOf fault

private theorem endingAt_of_emission {fault : Fault} (fits : fault.OfEmission) :
    endingAt (some fault) = endingOf fault := by
  cases fits <;> rfl

private theorem endingAt_of_loading {fault : Fault} (fits : fault.OfLoading) :
    endingAt (some fault) = endingOf fault := by
  cases fits <;> rfl

theorem endingAt_iff (text : String) :
    let first := (Source.faults text).head?
    ((∃ code ∈ [0, 1, 2], endingAt first = .exit code) ↔
        first ≠ some .unprintable ∧ ∀ cause, first ≠ some (.mismatch cause)) ∧
      (endingAt first = .exit 0 ↔ first = none) ∧
      (endingAt first = .exit 1 ↔ ∃ diagnostic, first = some (.diagnosed diagnostic)) ∧
      (endingAt first = .exit 2 ↔ ∃ cause, first = some (.notJson cause)) ∧
      ∀ fault, endingAt first = .escaped fault ↔
        (fault = .unprintable ∨ ∃ cause, fault = .mismatch cause) ∧ first = some fault := by
  rcases Source.first_cases text with fine | ⟨_, found⟩ | ⟨_, found⟩ | ⟨_, found⟩ | found
  · simp [fine, endingAt]
  · simp [found, endingAt, endingOf]
  · simp [found, endingAt]
  · simp [found, endingAt, endingOf]
  · simp [found, endingAt, endingOf]

theorem Verdict.ending_eq {text : String} {result : Ending × String}
    (verdict : Verdict (.ok text) result) : result.1 = endingAt (Source.faults text).head? := by
  have made {value : Json} (valid : Json.read text = .ok value) :
      Node.ofText text = Node.ofJson value := by
    rw [Node.ofText, valid]
  cases verdict with
  | @notJson _ cause invalid =>
      have failed : Node.ofText text = .error (.notJson cause) := by rw [Node.ofText, invalid]
      rw [Source.faults_of_error failed]
      rfl
  | notLoaded valid failed =>
      rw [Source.faults_of_error ((made valid).trans failed),
        endingAt_of_loading (Node.ofLoading_of_ofJson failed)]
  | notEmitted valid loaded failed =>
      rw [Source.first_of_emit_error ((made valid).trans loaded) failed,
        endingAt_of_emission (Source.ofEmission_of_emit_error failed)]
  | @emitted _ _ _ output valid loaded succeeded =>
      rw [Source.faults_of_emit_ok ((made valid).trans loaded) succeeded,
        if_neg (Text.not_holdsSurrogate_ofString output)]
      rfl
  | unprintable valid loaded succeeded holds =>
      rw [Source.faults_of_emit_ok ((made valid).trans loaded) succeeded, if_pos holds]
      rfl

private theorem ending_of_input {surroundings : Surroundings} {ending : Ending} {output : String}
    (verdict : Verdict (.ok (Text.withNewlines surroundings.input)) (ending, output)) :
    (run surroundings ["-"]).ending = ending := by
  have asked : Asks ["-"] (some "-") := .source (.inl rfl) .nothing
  have same : (run surroundings ["-"]).result = (ending, output) := asked.result_eq verdict
  exact congrArg Prod.fst same

/-- The command ends with an exit code unless the first thing that is wrong with its source is a
mismatch or that the result cannot be printed, which then escapes. Loading stops at its first fault and
so does emission; nothing but bad JSON, complaints and mismatches can be wrong up to there, and the
result cannot be printed exactly where it holds a surrogate. -/
theorem run_diagnoses_iff (surroundings : Surroundings) :
    let text := Text.withNewlines surroundings.input
    let first := (Source.faults text).head?
    let ending := (run surroundings ["-"]).ending
    ((∃ code ∈ [0, 1, 2], ending = .exit code) ↔
        first ≠ some .unprintable ∧ ∀ cause, first ≠ some (.mismatch cause)) ∧
      (ending = .exit 0 ↔ first = none) ∧
      (ending = .exit 1 ↔ ∃ diagnostic, first = some (.diagnosed diagnostic)) ∧
      (ending = .exit 2 ↔ ∃ cause, first = some (.notJson cause)) ∧
      (∀ fault, ending = .escaped fault ↔
        (fault = .unprintable ∨ ∃ cause, fault = .mismatch cause) ∧ first = some fault) ∧
      (∀ fault, Node.ofText text = .error fault ↔ (Source.loadFaults text).head? = some fault) ∧
      (∀ fault ∈ Source.loadFaults text, Source.OfText fault) ∧
      ∀ tree, Node.ofText text = .ok tree →
        (∀ fault, (tree.emit {}).outcome = .error fault ↔ (tree.faults false).head? = some fault) ∧
          (∀ fault ∈ tree.faults false, fault.OfEmission) ∧
          (first = some .unprintable ↔
            ∃ output, (tree.emit {}).outcome = .ok output ∧ output.HoldsSurrogate) := by
  intro text first ending
  have asked : Asks ["-"] (some "-") := .source (.inl rfl) .nothing
  have verdict : Verdict (.ok text) (run surroundings ["-"]).result := asked.verdict surroundings
  have ends : ending = endingAt first := verdict.ending_eq
  obtain ⟨exits, none, complained, notJson, escapes⟩ := endingAt_iff text
  rw [ends]
  refine ⟨exits, none, complained, notJson, escapes, fun fault => (Source.ofText_stops text).error_iff,
    Source.ofText_of_loadFaults text, fun tree loaded => ⟨fun fault => ?_, ?_, ?_⟩⟩
  · exact (emit_stops tree).1.error_iff
  · exact ofEmission_of_faults tree false
  · exact Source.first_eq_unprintable_iff loaded

/-- Null in place of nodes stops loading without a message, and null in place of a text stops emission
without one. -/
theorem run_escapes_on_null :
    let noNodes := "\x7b\"type\":\"Block\",\"nodes\":null\x7d"
    let noText := "\x7b\"type\":\"Block\",\"nodes\":[\x7b\"type\":\"Text\",\"val\":null\x7d]\x7d"
    let typed (input : String) : Surroundings := { input, read := fun _ => .error .missing }
    (run (typed noNodes) ["-"]).ending = .escaped (.mismatch .itemsWanted) ∧
      (run (typed noText) ["-"]).ending = .escaped (.mismatch .textWanted) := by
  intro noNodes noText typed
  constructor
  · have valid : Json.read (Text.withNewlines noNodes) =
        .ok (.obj [("type", .str "Block"), ("nodes", .null)]) := by decide +kernel
    have failed : Node.ofJson (.obj [("type", .str "Block"), ("nodes", .null)]) =
        .error (.mismatch .itemsWanted) := rfl
    have escapes : Verdict (.ok (Text.withNewlines (typed noNodes).input))
        (.escaped (.mismatch .itemsWanted), "") := .notLoaded valid failed
    exact ending_of_input escapes
  · have valid : Json.read (Text.withNewlines noText) = .ok (.obj [("type", .str "Block"),
        ("nodes", .arr [.obj [("type", .str "Text"), ("val", .null)]])]) := by decide +kernel
    have loaded : Node.ofJson (.obj [("type", .str "Block"),
        ("nodes", .arr [.obj [("type", .str "Text"), ("val", .null)]])]) =
        .ok (.block [.text .null {}] {}) := rfl
    have failed : (Node.emit {} (.block [.text .null {}] {})).outcome =
        .error (.mismatch .textWanted) := rfl
    have escapes : Verdict (.ok (Text.withNewlines (typed noText).input))
        (.escaped (.mismatch .textWanted), "") := .notEmitted valid loaded failed
    exact ending_of_input escapes

end Command

end TemplateJsx
