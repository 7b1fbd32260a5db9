import Mathlib.Data.List.Forall2
import Mathlib.Data.List.Induction
import TemplateJsx.Proofs.AttributeOrder

/-!
# Merged attributes

What merging makes of the attributes of a tag, for any spelling. Every attribute either stays as it
is or goes into the group of its name, and the emitted text is the texts of the former followed by
one text for each group. An attribute by itself takes the same two ways, and they part only where a
two-way binding is spelled like a plain attribute.
-/

set_option autoImplicit false

namespace TemplateJsx

open Text

/-! ## Plain attributes of any spelling -/

/-- A flag, or an attribute that is named like a binding, an event or a directive. -/
def Attr.isUnmergeable (spelling : Spelling) (attr : Attr) : Bool :=
  attr.isFlag || attr.begins spelling.bindMark || attr.begins spelling.eventMark ||
    attr.begins spelling.directiveMark

def Attr.nameText (attr : Attr) : Text :=
  match attr.name with
  | .str name => name
  | _ => ""

def plainAmong (spelling : Spelling) (attrs : List Attr) : List Attr :=
  attrs.filter fun attr => !attr.isUnmergeable spelling

def plainNamed (spelling : Spelling) (name : Text) (attrs : List Attr) : List Attr :=
  (plainAmong spelling attrs).filter fun attr => decide (attr.nameText = name)

section Plain

variable (spelling : Spelling) {attr : Attr} {attrs : List Attr}

private theorem isUnmergeable_raw (name raw : Text) (origin : Origin) :
    Attr.isUnmergeable spelling ⟨.str name, .str raw, origin⟩ =
      spelling.unmergeableMarks.any (startsWith · name) := by
  simp [Attr.isUnmergeable, Attr.isFlag, Attr.begins, Spelling.unmergeableMarks, Bool.or_assoc]

private theorem plainPair?_eq_ite (written : attr.Written) :
    attr.plainPair? spelling =
      if attr.isUnmergeable spelling then none else some (attr.nameText, attr.unquoted) := by
  cases written with
  | raw =>
      rw [isUnmergeable_raw]
      rfl
  | flag => rfl

private theorem filter_unmergeable (written : ∀ attr ∈ attrs, attr.Written) :
    (attrs.filter fun attr => (attr.plainPair? spelling).isNone) =
      attrs.filter (·.isUnmergeable spelling) := by
  apply List.filter_congr
  intro attr member
  rw [plainPair?_eq_ite spelling (written attr member)]
  cases attr.isUnmergeable spelling <;> rfl

private theorem filterMap_plainPair?_eq (written : ∀ attr ∈ attrs, attr.Written) :
    attrs.filterMap (·.plainPair? spelling) =
      (plainAmong spelling attrs).map fun attr => (attr.nameText, attr.unquoted) := by
  rw [plainAmong, ← List.filterMap_eq_map, List.filterMap_filter]
  apply List.filterMap_congr
  intro attr member
  rw [plainPair?_eq_ite spelling (written attr member)]
  cases attr.isUnmergeable spelling <;> rfl

private theorem valuesOf_plainNamed (name : Text) :
    valuesOf name ((plainAmong spelling attrs).map fun attr => (attr.nameText, attr.unquoted)) =
      (plainNamed spelling name attrs).map Attr.unquoted := by
  rw [valuesOf, List.filter_map, List.map_map]
  rfl

end Plain

/-! ## Groups -/

/-- The distinct items of a list, in the order in which they first appear. -/
structure FirstAppearances {α : Type} [DecidableEq α] (distinct items : List α) : Prop where
  mem : ∀ item, item ∈ distinct ↔ item ∈ items
  ordered : distinct.Pairwise fun first second => items.idxOf first < items.idxOf second

private theorem FirstAppearances.nodup {α : Type} [DecidableEq α] {distinct items : List α}
    (appear : FirstAppearances distinct items) : distinct.Nodup := by
  apply appear.ordered.imp
  intro first second earlier same
  rw [same] at earlier
  exact Nat.lt_irrefl _ earlier

private theorem FirstAppearances.eraseDups {α : Type} [DecidableEq α] (items : List α) :
    FirstAppearances items.eraseDups items := by
  refine ⟨fun _ => List.mem_eraseDups, ?_⟩
  -- An item at the end changes no first place, and if it is new it comes last.
  induction items using List.reverseRecOn with
  | nil => exact List.Pairwise.nil
  | append_singleton items item ih =>
      have kept : items.eraseDups.Pairwise fun first second =>
          (items ++ [item]).idxOf first < (items ++ [item]).idxOf second := by
        refine ih.imp_of_mem fun {first second} among among' earlier => ?_
        rwa [List.idxOf_append_of_mem (List.mem_eraseDups.mp among),
          List.idxOf_append_of_mem (List.mem_eraseDups.mp among')]
      rw [List.eraseDups_append, List.pairwise_append]
      by_cases known : item ∈ items
      · have none : [item].removeAll items = [] := by simp [List.removeAll, known]
        rw [none]
        exact ⟨kept, List.Pairwise.nil, nofun⟩
      · have new : [item].removeAll items = [item] := by simp [List.removeAll, known]
        rw [new]
        refine ⟨kept, List.pairwise_singleton _ _, ?_⟩
        intro first among last member
        have earlier := List.mem_eraseDups.mp among
        rw [List.mem_singleton.mp (List.mem_eraseDups.mp member), List.idxOf_append_of_mem earlier,
          List.idxOf_append_of_notMem known]
        exact Nat.lt_add_right _ (List.idxOf_lt_length_iff.mpr earlier)

section Keys

variable {α κ : Type} [DecidableEq κ] (key : α → κ)

private theorem filter_key_of_ne {k k' : κ} (different : k' ≠ k) (items : List α) :
    ((items.filter fun item => !decide (key item = k)).filter fun item => decide (key item = k')) =
      items.filter fun item => decide (key item = k') := by
  rw [List.filter_filter]
  apply List.filter_congr
  intro item _
  by_cases called : key item = k'
  · simp [called, different]
  · simp [called]

private theorem flatMap_filter_perm {keys : List κ} (distinct : keys.Nodup) {items : List α}
    (covered : ∀ item ∈ items, key item ∈ keys) :
    (keys.flatMap fun k => items.filter fun item => decide (key item = k)).Perm items := by
  induction keys generalizing items with
  | nil =>
      cases items with
      | nil => exact .nil
      | cons item items => exact absurd (covered item List.mem_cons_self) List.not_mem_nil
  | cons k keys ih =>
      obtain ⟨new, distinct⟩ := List.nodup_cons.mp distinct
      have left : ∀ item ∈ items.filter fun item => !decide (key item = k), key item ∈ keys := by
        intro item member
        obtain ⟨member, other⟩ := List.mem_filter.mp member
        exact (List.mem_cons.mp (covered item member)).resolve_left (by simpa using other)
      have same := List.flatMap_congr fun k' member =>
        filter_key_of_ne key (ne_of_mem_of_not_mem member new) items
      have others := ih distinct left
      rw [same] at others
      rw [List.flatMap_cons]
      exact (others.append_left _).trans (List.filter_append_perm _ _)

end Keys

/-! ## Merging -/

/-- What merging makes of attributes: the ones that stay as they are, and each plain name with its
value. -/
structure Merges (spelling : Spelling) (attrs others : List Attr)
    (merged : List (Text × Text)) : Prop where
  kept : others = attrs.filter (·.isUnmergeable spelling)
  names : FirstAppearances (merged.map Prod.fst) ((plainAmong spelling attrs).map Attr.nameText)
  values : ∀ entry ∈ merged,
    entry.2 = Text.intercalate " " ((plainNamed spelling entry.1 attrs).map Attr.unquoted)
  /-- No attribute is lost, and none is taken twice. -/
  accounted : (others ++ merged.flatMap fun entry => plainNamed spelling entry.1 attrs).Perm attrs

/-- The text of attributes of which some stay as they are and the others are merged. The first one
that cannot be emitted stops the work. -/
inductive EmitsMerged (spelling : Spelling) (owner : Option Json) (others : List Attr)
    (merged : List (Text × Text)) : Except Fault Text → Prop where
  | joined {texts : List Text} :
      List.Forall₂ (fun attr text => Attr.emit spelling attr owner = .ok (.str text)) others texts →
      EmitsMerged spelling owner others merged
        (.ok (Text.intercalate " "
          (texts ++ merged.map fun entry : Text × Text => entry.1 ++ "=\"" ++ entry.2 ++ "\"")))
  | stopped {before after : List Attr} {attr : Attr} {fault : Fault} :
      others = before ++ attr :: after →
      (∀ earlier ∈ before, ∃ text, earlier.emit spelling owner = .ok (.str text)) →
      attr.emit spelling owner = .error fault →
      EmitsMerged spelling owner others merged (.error fault)

private theorem mapM_cases {ε α β : Type} (items : List α) (step : α → Except ε β) :
    (∃ results, items.mapM step = .ok results ∧
        List.Forall₂ (fun item result => step item = .ok result) items results) ∨
      ∃ before item after fault, items.mapM step = .error fault ∧
        items = before ++ item :: after ∧ (∀ earlier ∈ before, ∃ result, step earlier = .ok result) ∧
        step item = .error fault := by
  induction items with
  | nil => exact .inl ⟨[], rfl, .nil⟩
  | cons item items ih =>
      rw [List.mapM_cons]
      cases here : step item with
      | error fault => exact .inr ⟨[], item, items, fault, rfl, rfl, nofun, here⟩
      | ok result =>
          rcases ih with ⟨results, done, each⟩ | ⟨before, stop, after, fault, failed, parted, rest⟩
          · exact .inl ⟨result :: results, by rw [ok_bind, done]; rfl, .cons here each⟩
          · refine .inr ⟨item :: before, stop, after, fault, by rw [ok_bind, failed]; rfl, ?_, ?_,
              rest.2⟩
            · rw [parted, List.cons_append]
            · exact List.forall_mem_cons.mpr ⟨⟨result, here⟩, rest.1⟩

section Merging

variable {attrs : List Attr} (spelling : Spelling)

def mergedPairs (attrs : List Attr) : List (Text × Text) :=
  ((plainAmong spelling attrs).map Attr.nameText).eraseDups.map fun name =>
    (name, Text.intercalate " " ((plainNamed spelling name attrs).map Attr.unquoted))

private theorem joined_plain (written : ∀ attr ∈ attrs, attr.Written) :
    joined (groupByName (attrs.filterMap (·.plainPair? spelling))) = mergedPairs spelling attrs := by
  rw [filterMap_plainPair?_eq spelling written, groupByName_eq, joined, List.map_map, List.map_map,
    mergedPairs]
  apply List.map_congr_left
  intro name _
  simp only [Function.comp_apply, valuesOf_plainNamed]

private theorem mergeAttrs_eq (written : ∀ attr ∈ attrs, attr.Written) :
    (mergeAttrs spelling attrs).outcome =
      .ok (attrs.filter (·.isUnmergeable spelling), mergedPairs spelling attrs) := by
  rw [← joined_plain spelling written, ← filter_unmergeable spelling written]
  simp only [mergeAttrs, partitionAttrs_eq spelling written]
  rfl

theorem merges_mergedPairs (attrs : List Attr) :
    Merges spelling attrs (attrs.filter (·.isUnmergeable spelling)) (mergedPairs spelling attrs) := by
  have names : (mergedPairs spelling attrs).map Prod.fst =
      ((plainAmong spelling attrs).map Attr.nameText).eraseDups := by
    rw [mergedPairs, List.map_map]
    exact List.map_id _
  have appear := FirstAppearances.eraseDups ((plainAmong spelling attrs).map Attr.nameText)
  refine ⟨rfl, names ▸ appear, ?_, ?_⟩
  · intro entry member
    obtain ⟨name, _, rfl⟩ := List.mem_map.mp member
    rfl
  · have groups : ((mergedPairs spelling attrs).flatMap fun entry =>
        plainNamed spelling entry.1 attrs).Perm (plainAmong spelling attrs) := by
      rw [mergedPairs, List.flatMap_map]
      apply flatMap_filter_perm Attr.nameText appear.nodup
      intro attr member
      exact List.mem_eraseDups.mpr (List.mem_map_of_mem member)
    exact (groups.append_left _).trans (List.filter_append_perm _ _)

theorem emitsMerged_of_written (written : ∀ attr ∈ attrs, attr.Written) (owner : Option Json) :
    EmitsMerged spelling owner (attrs.filter (·.isUnmergeable spelling)) (mergedPairs spelling attrs)
      (emitAttrs spelling attrs owner).outcome := by
  have each : ∀ attr ∈ attrs.filter (·.isUnmergeable spelling),
      attr.emit spelling owner = (attr.text spelling owner).map Json.str := by
    intro attr member
    exact Attr.emit_eq (written attr (List.mem_filter.mp member).1) spelling owner
  rw [emitAttrs_outcome spelling written owner, filter_unmergeable spelling written, mergedTexts_eq,
    joined_plain spelling written]
  rcases mapM_cases (attrs.filter (·.isUnmergeable spelling)) (Attr.text spelling owner) with
    ⟨texts, done, emitted⟩ | ⟨before, attr, after, fault, failed, parted, earlier, here⟩
  · rw [done, ok_bind]
    refine .joined (((List.forall₂_and_left _ _).mpr ⟨each, emitted⟩).imp ?_)
    intro attr text emission
    rw [emission.1, emission.2]
    rfl
  · rw [failed, error_bind]
    refine .stopped parted ?_ ?_
    · intro attr member
      obtain ⟨text, emitted⟩ := earlier attr member
      exact ⟨text, by rw [each attr (by simp [parted, member]), emitted]; rfl⟩
    · rw [each attr (by simp [parted]), here]
      rfl

end Merging

/-- Merging keeps or groups every attribute once, and the emitted text is made of what it yields. -/
theorem emitAttrs_joins_merged {attrs : List Attr} (written : ∀ attr ∈ attrs, attr.Written)
    (spelling : Spelling) (owner : Option Json) :
    ∃ others merged, (mergeAttrs spelling attrs).outcome = .ok (others, merged) ∧
      Merges spelling attrs others merged ∧
      EmitsMerged spelling owner others merged (emitAttrs spelling attrs owner).outcome :=
  ⟨_, _, mergeAttrs_eq spelling written, merges_mergedPairs spelling attrs,
    emitsMerged_of_written spelling written owner⟩

def overlappingSpelling : Spelling := { bindMark := "o", eventMark := "on" }

def interleavedAttrs : List Attr :=
  [⟨.str "class", .str "'a'", {}⟩, ⟨.str "onclick", .str "\"f\"", {}⟩, ⟨.str "id", .str "p", {}⟩,
    ⟨.str "id", .bool false, {}⟩, ⟨.str "class", .str "\"b c\"\n", {}⟩]

theorem emitAttrs_joins_interleaved :
    Merges overlappingSpelling interleavedAttrs
        [⟨.str "onclick", .str "\"f\"", {}⟩, ⟨.str "id", .bool false, {}⟩]
        [("class", "a b c"), ("id", "p")] ∧
      EmitsMerged overlappingSpelling none
        [⟨.str "onclick", .str "\"f\"", {}⟩, ⟨.str "id", .bool false, {}⟩]
        [("class", "a b c"), ("id", "p")]
        (.ok "nclick=\x7bf\x7d id=\x7bfalse\x7d class=\"a b c\" id=\"p\"") := by
  have written : ∀ attr ∈ interleavedAttrs, attr.Written := by
    simp only [interleavedAttrs, List.forall_mem_cons]
    exact ⟨.raw, .raw, .raw, .flag, .raw, List.forall_mem_nil _⟩
  have parts : (mergeAttrs overlappingSpelling interleavedAttrs).outcome =
      .ok ([⟨.str "onclick", .str "\"f\"", {}⟩, ⟨.str "id", .bool false, {}⟩],
        [("class", "a b c"), ("id", "p")]) := by decide +kernel
  have text : (emitAttrs overlappingSpelling interleavedAttrs none).outcome =
      .ok "nclick=\x7bf\x7d id=\x7bfalse\x7d class=\"a b c\" id=\"p\"" := by decide +kernel
  obtain ⟨others, merged, done, merges, emits⟩ :=
    emitAttrs_joins_merged written overlappingSpelling none
  rw [parts] at done
  cases done
  rw [text] at emits
  exact ⟨merges, emits⟩

/-! ## One attribute by itself -/

section Single

variable (spelling : Spelling) {name : Text}

private theorem marks_of_mergeable
    (unmarked : spelling.unmergeableMarks.any (startsWith · name) = false) :
    spelling.bindMarks.any (startsWith · name) = false ∧
      spelling.eventMarks.any (startsWith · name) = false := by
  simp only [Spelling.unmergeableMarks, List.any_cons, List.any_nil, Bool.or_false,
    Bool.or_eq_false_iff] at unmarked
  obtain ⟨binding, event, directive⟩ := unmarked
  have long : ∀ more, startsWith (spelling.directiveMark ++ more) name = false := by
    intro more
    rw [Bool.eq_false_iff]
    intro begins
    exact absurd (startsWith_of_append begins) (by simp [directive])
  constructor
  · unfold Spelling.bindMarks
    split <;> simp [binding, long]
  · unfold Spelling.eventMarks
    split <;> simp [event, long]

private theorem emitWritten_of_mergeable
    (unmarked : spelling.unmergeableMarks.any (startsWith · name) = false)
    (other : name ≠ spelling.modelDirective) (raw : Text) (place : Json) :
    emitWritten spelling name raw place = .ok (name ++ "=\"" ++ unquote raw ++ "\"") := by
  obtain ⟨binding, event⟩ := marks_of_mergeable spelling unmarked
  rw [← afterLongest?_isSome, Option.isSome_eq_false_iff, Option.isNone_iff_eq_none] at binding event
  rw [emitWritten, if_neg other, binding, event]

/-- A two-way binding ends in a brace, a plain attribute in a quote. -/
theorem emittedModel_ne_plain (name target : Text) :
    emittedModel target ≠ name ++ "=\"" ++ target ++ "\"" := by
  intro same
  have ends := congrArg (·.toList.getLast?) same
  simp only [emittedModel, braced, ← Text.append_assoc, Text.toList_append,
    List.getLast?_append] at ends
  simp at ends

theorem emitAttrs_singleton {attr : Attr} (written : attr.Written) (owner : Option Json) :
    (emitAttrs spelling [attr] owner).outcome =
      if attr.isUnmergeable spelling then attr.text spelling owner
      else .ok (attr.nameText ++ "=\"" ++ attr.unquoted ++ "\"") := by
  rw [emitAttrs_outcome spelling (List.forall_mem_singleton.mpr written)]
  have pair := plainPair?_eq_ite spelling written
  cases unmergeable : attr.isUnmergeable spelling with
  | true =>
      rw [unmergeable, if_pos rfl] at pair
      have kept : ([attr].filter fun attr => (attr.plainPair? spelling).isNone) = [attr] := by
        simp [pair]
      have merged : mergedTexts spelling [attr] = [] := by simp [mergedTexts, pair, groupByName]
      rw [kept, merged, if_pos rfl, List.mapM_cons, List.mapM_nil]
      cases attr.text spelling owner with
      | error fault => rfl
      | ok text => exact congrArg Except.ok Text.intercalate_singleton
  | false =>
      rw [unmergeable, if_neg Bool.false_ne_true] at pair
      have kept : ([attr].filter fun attr => (attr.plainPair? spelling).isNone) = [] := by
        simp [pair]
      have merged : mergedTexts spelling [attr] =
          [attr.nameText ++ "=\"" ++ attr.unquoted ++ "\""] := by
        simp [mergedTexts, pair, groupByName, addToGroups]
      rw [kept, merged, if_neg Bool.false_ne_true, List.mapM_nil]
      exact congrArg Except.ok Text.intercalate_singleton

/-- The two ways part exactly at a two-way binding that is spelled like a plain attribute. -/
theorem emit_eq_emitAttrs_iff {attr : Attr} (written : attr.Written) (owner : Option Json) :
    attr.emit spelling owner = (emitAttrs spelling [attr] owner).outcome.map Json.str ↔
      (attr.name = .str spelling.modelDirective → attr.isUnmergeable spelling = true) := by
  rw [Attr.emit_eq written, emitAttrs_singleton spelling written]
  cases unmergeable : attr.isUnmergeable spelling with
  | true => simp
  | false =>
      cases written with
      | flag => cases unmergeable
      | @raw name raw origin =>
          rw [isUnmergeable_raw] at unmergeable
          simp only [Attr.text, Attr.nameText, Attr.unquoted, Bool.false_eq_true, if_false, imp_false,
            Json.str.injEq]
          constructor
          · intro same model
            rw [emitWritten, if_pos model] at same
            simp only [Except.map, Except.ok.injEq, Json.str.injEq] at same
            exact emittedModel_ne_plain _ _ same
          · intro other
            rw [emitWritten_of_mergeable spelling unmergeable other]

/-- Two-way bindings are spelled like a binding, an event or a directive. -/
def Spelling.MarksModel (spelling : Spelling) : Prop :=
  startsWith spelling.bindMark spelling.modelDirective = true ∨
    startsWith spelling.eventMark spelling.modelDirective = true ∨
    startsWith spelling.directiveMark spelling.modelDirective = true

private theorem isUnmergeable_model_iff (raw : Text) (origin : Origin) :
    Attr.isUnmergeable spelling ⟨.str spelling.modelDirective, .str raw, origin⟩ = true ↔
      spelling.MarksModel := by
  simp [isUnmergeable_raw, Spelling.unmergeableMarks, Spelling.MarksModel]

private theorem emit_eq_emitAttrs_of_marksModel (marked : spelling.MarksModel) {attr : Attr}
    (written : attr.Written) (owner : Option Json) :
    attr.emit spelling owner = (emitAttrs spelling [attr] owner).outcome.map Json.str := by
  rw [emit_eq_emitAttrs_iff spelling written]
  intro called
  cases written with
  | flag => rfl
  | raw =>
      cases called
      exact (isUnmergeable_model_iff spelling _ _).mpr marked

end Single

/-- Every attribute is emitted by itself as in a list exactly when two-way bindings are marked, as
they are by default. Where they are not, a list takes a two-way binding for a plain attribute. -/
theorem emit_eq_emitAttrs_singleton_iff (spelling : Spelling) (owner : Option Json) :
    ((∀ attr : Attr, attr.Written →
          attr.emit spelling owner = (emitAttrs spelling [attr] owner).outcome.map Json.str) ↔
        spelling.MarksModel) ∧
      (∀ attr : Attr, attr.Written →
        attr.emit {} owner = (emitAttrs {} [attr] owner).outcome.map Json.str) ∧
      (¬ spelling.MarksModel → ∀ raw origin,
        (emitAttrs spelling [⟨.str spelling.modelDirective, .str raw, origin⟩] owner).outcome =
          .ok (spelling.modelDirective ++ "=\"" ++ unquote raw ++ "\"")) := by
  refine ⟨⟨?_, ?_⟩, ?_, ?_⟩
  · intro same
    have written : Attr.Written ⟨.str spelling.modelDirective, .str "", {}⟩ := .raw
    have forced := (emit_eq_emitAttrs_iff spelling written owner).mp (same _ written)
    exact (isUnmergeable_model_iff spelling "" {}).mp (forced rfl)
  · intro marked attr written
    exact emit_eq_emitAttrs_of_marksModel spelling marked written owner
  · intro attr written
    have marked : Spelling.MarksModel {} := Or.inr (Or.inr (by decide))
    exact emit_eq_emitAttrs_of_marksModel {} marked written owner
  · intro unmarked raw origin
    rw [emitAttrs_singleton spelling .raw, if_neg]
    · rfl
    · rwa [isUnmergeable_model_iff]

end TemplateJsx
