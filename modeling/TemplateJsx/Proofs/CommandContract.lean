import Mathlib.Control.Monad.Basic
import TemplateJsx.Command.Run
import TemplateJsx.Proofs.LoadFaults

/-!
# The contract of the command

What the exit and the output of the command depend on: the text of its source, and nothing else. The
output is the whole result or nothing at all, whatever flags are given and wherever the text comes
from.
-/

set_option autoImplicit false

namespace TemplateJsx.Command

/-! ## Arguments -/

/-- A hyphen, or a text that does not begin with one. -/
def IsOperand (text : String) : Prop := text = "-" ∨ text.toList.head? ≠ some '-'

/-- Arguments that are flags in their whole spellings and at most one source, in any order. -/
inductive Asks : List String → Option String → Prop where
  | nothing : Asks [] none
  | flag {flag : String} {arguments : List String} {source : Option String} :
      flag ∈ ["--dump-ast", "-v", "--verbose"] → Asks arguments source →
      Asks (flag :: arguments) source
  | source {operand : String} {arguments : List String} :
      IsOperand operand → Asks arguments none → Asks (operand :: arguments) (some operand)

private theorem ofArgument_of_operand {text : String} (operand : IsOperand text) :
    Item.ofArgument text = .ok (.operand text) := by
  rcases operand with rfl | plain
  · rfl
  · unfold Item.ofArgument
    split
    · next begins => simp [begins] at plain
    · rfl

private theorem operand_ne_terminator {text : String} (operand : IsOperand text) : text ≠ "--" := by
  rintro rfl
  rcases operand with same | plain
  · exact absurd same (by decide)
  · exact plain rfl

private theorem follow_flag {flag : String} (among : flag ∈ ["--dump-ast", "-v", "--verbose"]) :
    flag ≠ "--" ∧ ∃ item, Item.ofArgument flag = .ok item ∧ ∀ progress swallow items,
      ∃ options : Options, options.source = progress.options.source ∧
        follow progress swallow (item :: items) = follow { progress with options } false items := by
  simp only [List.mem_cons, List.not_mem_nil, or_false] at among
  rcases among with rfl | rfl | rfl
  · exact ⟨by decide, .option .dumpTree false none, rfl, fun progress _ _ =>
      ⟨{ progress.options with dumpTree := true }, rfl, rfl⟩⟩
  · exact ⟨by decide, .option .verbose true none, rfl, fun progress _ _ =>
      ⟨{ progress.options with verbose := true }, rfl, rfl⟩⟩
  · exact ⟨by decide, .option .verbose false none, rfl, fun progress _ _ =>
      ⟨{ progress.options with verbose := true }, rfl, rfl⟩⟩

private theorem itemsOf_cons {text : String} {texts : List String} {item : Item} {items : List Item}
    (goesOn : text ≠ "--") (here : Item.ofArgument text = .ok item)
    (later : itemsOf texts = .ok items) : itemsOf (text :: texts) = .ok (item :: items) := by
  simp only [itemsOf, if_neg goesOn, here, later]

/-- Ordinary arguments run the command on their source, or on the one that is read so far. -/
private theorem Asks.follow {arguments : List String} {source : Option String}
    (asked : Asks arguments source) :
    ∃ items, itemsOf arguments = .ok items ∧ ∀ progress swallow, progress.extras = [] →
      (source.isSome = true → progress.taken = false) →
      ∃ options, Command.follow progress swallow items = .run options ∧
        options.source = source.getD progress.options.source := by
  induction asked with
  | nothing =>
      refine ⟨[], rfl, fun progress swallow none _ => ⟨progress.options, ?_, rfl⟩⟩
      simp [Command.follow, none]
  | flag among _ ih =>
      obtain ⟨items, understood, runs⟩ := ih
      obtain ⟨goesOn, item, here, turns⟩ := follow_flag among
      refine ⟨item :: items, itemsOf_cons goesOn here understood, ?_⟩
      intro progress swallow none free
      obtain ⟨options, kept, turned⟩ := turns progress swallow items
      rw [turned, ← kept]
      exact runs { progress with options } false none free
  | @source operand _ isOperand _ ih =>
      obtain ⟨items, understood, runs⟩ := ih
      refine ⟨.operand operand :: items,
        itemsOf_cons (operand_ne_terminator isOperand) (ofArgument_of_operand isOperand) understood, ?_⟩
      intro progress swallow none free
      obtain ⟨options, ran, kept⟩ := runs (progress.take operand) true none nofun
      refine ⟨options, ?_, kept⟩
      simpa [Command.follow, free rfl] using ran

theorem Asks.ofArguments {arguments : List String} {source : Option String}
    (asked : Asks arguments source) :
    ∃ options, Invocation.ofArguments arguments = .run options ∧
      options.source = source.getD "target.json" := by
  obtain ⟨items, understood, runs⟩ := asked.follow
  obtain ⟨options, ran, kept⟩ := runs {} false rfl fun _ => rfl
  exact ⟨options, by rw [Invocation.ofArguments, understood]; exact ran, kept⟩

/-! ## Sources -/

def Surroundings.text (surroundings : Surroundings) (source : String) : Except FileFault String :=
  if source = "-" then .ok (Text.withNewlines surroundings.input)
  else do
    let bytes ← surroundings.read (Source.Path.ofString source)
    let text ← Source.decodeUtf8 bytes
    return Text.withNewlines text

def loadReading : Except FileFault String → Except Fault Node
  | .error cause => .error (.file cause)
  | .ok text => Node.ofText text

private theorem loadSource_outcome (surroundings : Surroundings) (source : String) :
    (loadSource surroundings source).outcome = loadReading (surroundings.text source) := by
  unfold loadSource Surroundings.text
  split
  · rfl
  · simp only [Source.loadFile, Source.loadBytes, Source.Encoding.decode, Traced.outcome_bind,
      Traced.outcome_tell, Traced.outcome_lift, ok_bind]
    cases surroundings.read (Source.Path.ofString source) with
    | error cause => rfl
    | ok bytes =>
        simp only [ok_bind]
        cases Source.decodeUtf8 bytes <;> rfl

private theorem decodeUtf8_toUTF8 (text : String) : Source.decodeUtf8 text.toUTF8 = .ok text := by
  have valid : text.toUTF8.IsValidUTF8 := text.isValidUTF8
  unfold Source.decodeUtf8 String.fromUTF8?
  rw [dif_pos valid]
  rfl

/-! ## Verdicts -/

/-- All of an outcome but what goes to the error output. -/
def Outcome.result (outcome : Outcome) : Ending × String := (outcome.ending, outcome.output)

/-- How the command ends with a fault of a tree: complaints are handled, and nothing else is. -/
def endingOf : Fault → Ending
  | .diagnosed _ => .exit 1
  | fault => .escaped fault

/-- What a text comes to, as far as it could be read: how the command ends, and what it prints. -/
inductive Verdict : Except FileFault String → Ending × String → Prop where
  | missing : Verdict (.error .missing) (.exit 2, "")
  | unreadable {cause : FileFault} :
      cause ≠ .missing → Verdict (.error cause) (.escaped (.file cause), "")
  | notJson {text : String} {cause : Json.ReadError} :
      Json.read text = .error cause → Verdict (.ok text) (.exit 2, "")
  | notLoaded {text : String} {value : Json} {fault : Fault} :
      Json.read text = .ok value → Node.ofJson value = .error fault →
      Verdict (.ok text) (endingOf fault, "")
  | notEmitted {text : String} {value : Json} {tree : Node} {fault : Fault} :
      Json.read text = .ok value → Node.ofJson value = .ok tree →
      (tree.emit {}).outcome = .error fault → Verdict (.ok text) (endingOf fault, "")
  | emitted {text : String} {value : Json} {tree : Node} {output : String} :
      Json.read text = .ok value → Node.ofJson value = .ok tree →
      (tree.emit {}).outcome = .ok output → Verdict (.ok text) (.exit 0, output ++ "\n")
  | unprintable {text : String} {value : Json} {tree : Node} {output : Text} :
      Json.read text = .ok value → Node.ofJson value = .ok tree →
      (tree.emit {}).outcome = .ok output → output.HoldsSurrogate →
      Verdict (.ok text) (.escaped .unprintable, "")

private theorem Verdict.unique {reading : Except FileFault String} {result other : Ending × String}
    (first : Verdict reading result) (second : Verdict reading other) : result = other := by
  -- Reading, loading and emission are functions, so two verdicts on a text go the same way.
  cases first <;> cases second <;> simp_all
  -- What is emitted is a string by one verdict and holds a surrogate by the other.
  all_goals grind [Text.not_holdsSurrogate_ofString]

private theorem Verdict.output_eq {reading : Except FileFault String} {result : Ending × String}
    (verdict : Verdict reading result) (failed : result.1 ≠ .exit 0) : result.2 = "" := by
  cases verdict with
  | emitted => exact absurd rfl failed
  | _ => rfl

section Verdicts

variable (options : Options) (colours : Bool)

/-- A tree that has been loaded can always be shown, so showing it changes nothing. -/
theorem treeText_isOk {value : Json} {tree : Node} (loaded : Node.ofJson value = .ok tree)
    (show? : Bool) : ∃ shown, treeText show? tree = .ok shown := by
  cases show? with
  | false => exact ⟨_, rfl⟩
  | true =>
      obtain ⟨text, dumped⟩ := (Node.native_of_ofJson loaded).dump_isOk (.blanks 2)
      exact ⟨text ++ "\n", by simp only [treeText, dumped, if_true]⟩

private theorem compile_verdict {text : String} {value : Json} (valid : Json.read text = .ok value)
    {tree : Node} (loaded : Node.ofJson value = .ok tree) (told : Text) :
    Verdict (.ok text) (compile options colours told tree).result := by
  obtain ⟨shown, isShown⟩ := treeText_isOk loaded options.dumpTree
  simp only [compile, isShown]
  cases emitted : (tree.emit {}).outcome with
  | ok output =>
      rcases output.holdsSurrogate_or with holds | ⟨printed, rfl⟩
      · simp only [(holds.append _).strict?_eq_none]
        exact .unprintable valid loaded emitted holds
      · simp only [← Text.ofString_append, Text.strict?_ofString]
        exact .emitted valid loaded emitted
  | error fault =>
      have verdict := Verdict.notEmitted valid loaded emitted
      cases fault <;> exact verdict

private theorem loadFailure_ending {fault : Fault} (fits : fault.OfLoading) (source : String) :
    (loadFailure colours source fault).2 = endingOf fault := by
  cases fits <;> rfl

theorem execute_verdict {reading : Except FileFault String} {loaded : Traced Node}
    (same : loaded.outcome = loadReading reading) :
    Verdict reading (execute options colours loaded).result := by
  simp only [execute, same]
  cases reading with
  | error cause =>
      by_cases missing : cause = .missing
      · subst missing
        exact .missing
      · have verdict := Verdict.unreadable missing
        cases cause <;> first | exact absurd rfl missing | exact verdict
  | ok text =>
      simp only [loadReading, Node.ofText]
      cases valid : Json.read text with
      | error cause => exact .notJson valid
      | ok value =>
          dsimp only
          cases made : Node.ofJson value with
          | ok tree => exact compile_verdict options colours valid made _
          | error fault =>
              have ends := loadFailure_ending colours (Node.ofLoading_of_ofJson made) options.source
              have verdict := Verdict.notLoaded valid made
              rw [← ends] at verdict
              exact verdict

end Verdicts

theorem Asks.verdict {arguments : List String} {operand : Option String}
    (asked : Asks arguments operand) (surroundings : Surroundings) :
    Verdict (surroundings.text (operand.getD "target.json")) (run surroundings arguments).result := by
  obtain ⟨options, understood, source⟩ := asked.ofArguments
  rw [run, understood, Invocation.perform, ← source]
  exact execute_verdict options surroundings.colours (loadSource_outcome surroundings options.source)

theorem Asks.result_eq {arguments : List String} {operand : Option String}
    (asked : Asks arguments operand) {surroundings : Surroundings} {result : Ending × String}
    (verdict : Verdict (surroundings.text (operand.getD "target.json")) result) :
    (run surroundings arguments).result = result :=
  (asked.verdict surroundings).unique verdict

/-- On ordinary arguments the exit and the output are what the text of the source comes to: the output
is what the tree is emitted as, unless that holds a surrogate, and there is none where the command
fails. Flags make no difference, and neither does it whether a text comes from the standard input or
from a file. -/
theorem run_all_or_nothing {arguments : List String} {operand : Option String}
    (asked : Asks arguments operand) (surroundings : Surroundings) :
    (∀ result, Verdict (surroundings.text (operand.getD "target.json")) result ↔
      (run surroundings arguments).result = result) ∧
    ((run surroundings arguments).ending ≠ .exit 0 → (run surroundings arguments).output = "") ∧
    (∀ others, Asks others operand →
      (run surroundings others).result = (run surroundings arguments).result) ∧
    ∀ (others : List String) (path : String) (files : Surroundings), operand = some "-" →
      Asks others (some path) → path ≠ "-" →
      files.read (Source.Path.ofString path) = .ok surroundings.input.toUTF8 →
      (run files others).result = (run surroundings arguments).result := by
  have verdict := asked.verdict surroundings
  refine ⟨fun result => ⟨asked.result_eq, ?_⟩, verdict.output_eq, ?_, ?_⟩
  · rintro rfl
    exact verdict
  · intro others sameSource
    exact sameSource.result_eq verdict
  · rintro others path files rfl fromFile isPath held
    have same : files.text path = surroundings.text "-" := by
      simp only [Surroundings.text, if_neg isPath, held, ok_bind, decodeUtf8_toUTF8]
      rfl
    apply fromFile.result_eq
    rw [Option.getD_some, same]
    exact verdict

theorem run_all_or_nothing_of_flags :
    let document :=
      "\x7b\"type\":\"Block\",\"nodes\":[\x7b\"type\":\"Tag\",\"name\":\"hr\"\x7d]\x7d"
    let typed : Surroundings := { input := document, read := fun _ => .error .missing }
    let filed : Surroundings :=
      { read := fun path => if path.text = "a.json" then .ok document.toUTF8 else .error .missing }
    (run typed ["-v", "-", "--dump-ast"]).result = (.exit 0, "<hr />\n") ∧
      (run filed ["--verbose", "a.json"]).result = (.exit 0, "<hr />\n") ∧
      (run filed ["--dump-ast"]).result = (.exit 2, "") := by
  intro document typed filed
  have flagged : Asks ["-v", "-", "--dump-ast"] (some "-") :=
    .flag (by decide) (.source (.inl rfl) (.flag (by decide) .nothing))
  have named : Asks ["--verbose", "a.json"] (some "a.json") :=
    .flag (by decide) (.source (.inr (by decide)) .nothing)
  have unnamed : Asks ["--dump-ast"] none := .flag (by decide) .nothing
  have valid : Json.read (Text.withNewlines document) = .ok (.obj [("type", .str "Block"),
      ("nodes", .arr [.obj [("type", .str "Tag"), ("name", .str "hr")]])]) := by decide +kernel
  have loaded : Node.ofJson (.obj [("type", .str "Block"),
      ("nodes", .arr [.obj [("type", .str "Tag"), ("name", .str "hr")]])]) =
      .ok (.block [.tag { name := .str "hr" } []] {}) := rfl
  have emits : Verdict (typed.text "-") (.exit 0, "<hr />" ++ "\n") := .emitted valid loaded rfl
  have printed := ((run_all_or_nothing flagged typed).1 _).mp emits
  refine ⟨printed, ?_, ((run_all_or_nothing unnamed filed).1 _).mp .missing⟩
  rw [(run_all_or_nothing flagged typed).2.2.2 _ "a.json" filed rfl named (by decide) rfl]
  exact printed

/-- A path below a file names nothing and is not reported as missing, and a surrogate that the tree
holds is emitted but cannot be printed. -/
theorem run_escapes_below_file_or_on_surrogate :
    let files : Source.FileTree := Source.FileTree.add "a.json" (.file "\x7b\x7d".toUTF8) {}
    let filed : Surroundings := { read := files.read }
    let document :=
      "\x7b\"type\":\"Block\",\"nodes\":[\x7b\"type\":\"Text\",\"val\":\"\\ud800\"\x7d]\x7d"
    let typed : Surroundings := { input := document, read := fun _ => .error .missing }
    (files.entry? ["a.json", "x"]).isNone ∧
      (run filed ["a.json/x"]).result = (.escaped (.file .notDirectory), "") ∧
      (∃ tree, Node.ofText document = .ok tree ∧
        (tree.emit {}).outcome = .ok (.ofList [.surrogate 0])) ∧
      (run typed ["-"]).result = (.escaped .unprintable, "") := by
  intro files filed document typed
  have named : Asks ["a.json/x"] (some "a.json/x") := .source (.inr (by decide)) .nothing
  have asked : Asks ["-"] (some "-") := .source (.inl rfl) .nothing
  have unread : Verdict (filed.text "a.json/x") (.escaped (.file .notDirectory), "") :=
    .unreadable (by decide)
  let value : Json := .obj [("type", .str "Block"),
    ("nodes", .arr [.obj [("type", .str "Text"), ("val", .str (.ofList [.surrogate 0]))]])]
  have valid : Json.read document = .ok value := by decide +kernel
  have typedIn : typed.text "-" = .ok document := congrArg Except.ok (by decide +kernel)
  have loaded : Node.ofJson value =
      .ok (.block [.text (.str (.ofList [.surrogate 0])) {}] {}) := rfl
  have emitted : (Node.emit {} (.block [.text (.str (.ofList [.surrogate 0])) {}] {})).outcome =
      .ok (.ofList [.surrogate 0]) := rfl
  have unprinted : Verdict (typed.text "-") (.escaped .unprintable, "") := by
    rw [typedIn]
    exact .unprintable valid loaded emitted ⟨0, List.mem_singleton_self _⟩
  refine ⟨by decide, named.result_eq unread, ⟨_, ?_, emitted⟩, asked.result_eq unprinted⟩
  rw [Node.ofText, valid]
  exact loaded

end TemplateJsx.Command
