import Mathlib.Data.List.Basic
import TemplateJsx.Proofs.AttributeProperties
import TemplateJsx.Proofs.ExpansionProperties

/-!
# Order of attributes

The attributes of a tag are of four roles, and only their order within a role counts. Plain
attributes of one name may as well be written as one. What emission makes of the attributes rests on
the conditions, the loops, the special attributes and the merged texts, each taken by itself.
-/

set_option autoImplicit false

namespace TemplateJsx

open Text

/-! ## Roles -/

inductive Role where
  | condition
  | loop
  | special
  | plain
deriving DecidableEq

def Attr.isFlag (attr : Attr) : Bool :=
  match attr.value with
  | .bool _ => true
  | _ => false

/-- The role of an attribute. Flags and all that begins like a binding, an event or a directive are
special, unless they are named as a condition or a loop. -/
def Attr.role (attr : Attr) : Role :=
  if attr.name = .str "v-if" then .condition
  else if attr.name = .str "v-for" then .loop
  else if attr.isFlag || attr.begins ":" || attr.begins "@" || attr.begins "v-" then .special
  else .plain

def Attr.isPlainNamed (name : Text) (attr : Attr) : Bool :=
  attr.role = .plain && attr.name = .str name

def Attr.unquoted (attr : Attr) : Text :=
  match attr.value with
  | .str raw => unquote raw
  | _ => ""

/-- The attribute that stands for several ones of a name, with their values in a row. -/
def Attr.mergedAs (name : Text) (origin : Origin) (attrs : List Attr) : Attr where
  name := .str name
  value := .str ("\"" ++ Text.intercalate " " (attrs.map Attr.unquoted) ++ "\"")
  origin := origin

inductive AttrsRearranged : List Attr → List Attr → Prop where
  /-- The attributes of each role stay in their order. -/
  | reorder {attrs attrs' : List Attr} :
      (∀ role, attrs.filter (·.role = role) = attrs'.filter (·.role = role)) →
      AttrsRearranged attrs attrs'
  /-- All plain attributes of a name become one, where the first of them stands. -/
  | merge {name : Text} {before after : List Attr} {first : Attr} (origin : Origin) :
      (∀ attr ∈ before, attr.isPlainNamed name = false) → first.isPlainNamed name = true →
      AttrsRearranged (before ++ first :: after)
        (before ++ Attr.mergedAs name origin (first :: after.filter (·.isPlainNamed name)) ::
          after.filter fun attr => !attr.isPlainNamed name)

theorem mem_of_filter_eq {α κ : Type} [DecidableEq κ] {items items' : List α} {key : α → κ}
    (same : ∀ k, items.filter (key · = k) = items'.filter (key · = k)) {item : α}
    (member : item ∈ items') : item ∈ items := by
  have kept : item ∈ items'.filter (key · = key item) := List.mem_filter.mpr ⟨member, by simp⟩
  rw [← same] at kept
  exact (List.mem_filter.mp kept).1

private theorem written_mergedAs (name : Text) (origin : Origin) (attrs : List Attr) :
    (Attr.mergedAs name origin attrs).Written := .raw

theorem AttrsRearranged.written {attrs attrs' : List Attr}
    (rearranged : AttrsRearranged attrs attrs') (written : ∀ attr ∈ attrs, attr.Written) :
    ∀ attr ∈ attrs', attr.Written := by
  intro attr member
  cases rearranged with
  | reorder same => exact written attr (mem_of_filter_eq same member)
  | @merge name _ _ _ origin _ _ =>
      rcases List.mem_append.mp member with earlier | member
      · exact written attr (List.mem_append_left _ earlier)
      rcases List.mem_cons.mp member with rfl | later
      · exact written_mergedAs name origin _
      · exact written attr
          (List.mem_append_right _ (List.mem_cons_of_mem _ (List.mem_filter.mp later).1))

section Roles

variable {attr : Attr}

theorem role_of_condition (named : attr.name = .str "v-if") : attr.role = .condition := by
  simp [Attr.role, named]

theorem role_of_loop (named : attr.name = .str "v-for") : attr.role = .loop := by
  simp [Attr.role, named]

theorem role_of_other (condition : attr.name ≠ .str "v-if") (loop : attr.name ≠ .str "v-for") :
    attr.role = .special ∨ attr.role = .plain := by
  rw [Attr.role, if_neg condition, if_neg loop]
  split
  · exact .inl rfl
  · exact .inr rfl

private theorem Attr.begins_of_append {mark rest : Text}
    (begins : attr.begins (mark ++ rest) = true) : attr.begins mark = true := by
  unfold Attr.begins at begins ⊢
  split at begins
  · exact startsWith_of_append begins
  · cases begins

theorem role_of_slot (begins : attr.begins "v-slot" = true) : attr.role = .special := by
  have begins' : attr.begins (Spelling.slotDirective {}) = true := begins
  have condition : attr.name ≠ .str "v-if" :=
    Attr.name_ne_of_begins begins' Spelling.apart_default.condition
  have loop : attr.name ≠ .str "v-for" :=
    Attr.name_ne_of_begins begins' Spelling.apart_default.loop
  have whole : attr.begins ("v-" ++ "slot") = true := begins
  rw [Attr.role, if_neg condition, if_neg loop, Attr.begins_of_append whole, Bool.or_true,
    if_pos rfl]

end Roles

/-! ## Plain attributes -/

section Plain

variable {attr : Attr} {attrs : List Attr} {name : Text}

private theorem role_raw_eq_plain_iff {value : Text} {origin : Origin} :
    Attr.role ⟨.str name, .str value, origin⟩ = .plain ↔
      (Spelling.unmergeableMarks {}).any (startsWith · name) = false := by
  by_cases condition : name = "v-if"
  · have marked : (Spelling.unmergeableMarks {}).any (startsWith · "v-if") = true := by decide
    simp [Attr.role, condition, marked]
  by_cases loop : name = "v-for"
  · have marked : (Spelling.unmergeableMarks {}).any (startsWith · "v-for") = true := by decide
    simp [Attr.role, loop, marked]
  simp [Attr.role, Attr.isFlag, Attr.begins, Spelling.unmergeableMarks, condition, loop, and_assoc]

theorem plainPair?_of_plain (written : attr.Written) (plain : attr.role = .plain) :
    ∃ name, attr.name = .str name ∧ attr.plainPair? {} = some (name, attr.unquoted) := by
  cases written with
  | @raw name value origin =>
      refine ⟨name, rfl, ?_⟩
      simp [Attr.plainPair?, Attr.unquoted, role_raw_eq_plain_iff.mp plain]
  | flag =>
      simp only [Attr.role, Attr.isFlag, Bool.true_or, if_true] at plain
      split at plain
      · cases plain
      · split at plain <;> cases plain

theorem plainPair?_of_ne_plain (written : attr.Written) (other : attr.role ≠ .plain) :
    attr.plainPair? {} = none := by
  cases written with
  | raw =>
      rw [Ne, role_raw_eq_plain_iff, Bool.not_eq_false] at other
      simp [Attr.plainPair?, other]
  | flag => rfl

private theorem isPlainNamed_iff :
    attr.isPlainNamed name = true ↔ attr.role = .plain ∧ attr.name = .str name := by
  simp [Attr.isPlainNamed]

private theorem plainPair?_of_isPlainNamed (written : attr.Written)
    (named : attr.isPlainNamed name = true) :
    attr.plainPair? {} = some (name, attr.unquoted) := by
  obtain ⟨plain, called⟩ := isPlainNamed_iff.mp named
  obtain ⟨name', called', pair⟩ := plainPair?_of_plain written plain
  obtain rfl : name = name' := Json.str.inj (called.symm.trans called')
  exact pair

private theorem isPlainNamed_of_plainPair? (written : attr.Written) {pair : Text × Text}
    (plain : attr.plainPair? {} = some pair) : attr.isPlainNamed pair.1 = true := by
  by_cases role : attr.role = .plain
  · obtain ⟨name, called, pair'⟩ := plainPair?_of_plain written role
    cases plain.symm.trans pair'
    exact isPlainNamed_iff.mpr ⟨role, called⟩
  · cases plain.symm.trans (plainPair?_of_ne_plain written role)

private theorem isPlainNamed_eq (written : attr.Written) :
    attr.isPlainNamed name = (attr.plainPair? {}).any fun pair => decide (pair.1 = name) := by
  rw [Bool.eq_iff_iff, Option.any_eq_true]
  constructor
  · intro named
    exact ⟨_, plainPair?_of_isPlainNamed written named, by simp⟩
  · rintro ⟨pair, plain, same⟩
    exact of_decide_eq_true same ▸ isPlainNamed_of_plainPair? written plain

theorem filterMap_plainPair?_of_kept (written : ∀ attr ∈ attrs, attr.Written) {kept : Attr → Bool}
    (plain : ∀ attr, attr.role = .plain → kept attr = true) :
    (attrs.filter kept).filterMap (·.plainPair? {}) = attrs.filterMap (·.plainPair? {}) := by
  rw [List.filterMap_filter]
  apply List.filterMap_congr
  intro attr member
  by_cases role : attr.role = .plain
  · rw [plain attr role, if_pos rfl]
  · rw [plainPair?_of_ne_plain (written attr member) role, ite_self]

private theorem filterMap_plainPair?_except (written : ∀ attr ∈ attrs, attr.Written) :
    (attrs.filter fun attr => !attr.isPlainNamed name).filterMap (·.plainPair? {}) =
      pairsExcept name (attrs.filterMap (·.plainPair? {})) := by
  rw [pairsExcept, List.filterMap_filter, List.filter_filterMap]
  apply List.filterMap_congr
  intro attr member
  rw [isPlainNamed_eq (written attr member)]
  cases attr.plainPair? {} with
  | none => simp
  | some pair => by_cases same : pair.1 = name <;> simp [same, Option.filter]

private theorem valuesOf_plain (written : ∀ attr ∈ attrs, attr.Written) :
    valuesOf name (attrs.filterMap (·.plainPair? {})) =
      (attrs.filter (·.isPlainNamed name)).map Attr.unquoted := by
  induction attrs with
  | nil => rfl
  | cons attr attrs ih =>
      obtain ⟨here, later⟩ := List.forall_mem_cons.mp written
      cases named : attr.isPlainNamed name with
      | true =>
          rw [List.filterMap_cons_some (plainPair?_of_isPlainNamed here named),
            List.filter_cons_of_pos named, List.map_cons, ← ih later]
          simp [valuesOf]
      | false =>
          rw [List.filter_cons_of_neg (by simp [named]), ← ih later]
          cases plain : attr.plainPair? {} with
          | none => rw [List.filterMap_cons_none plain]
          | some pair =>
              have other : pair.1 ≠ name := by
                rintro rfl
                exact Bool.false_ne_true (named.symm.trans (isPlainNamed_of_plainPair? here plain))
              rw [List.filterMap_cons_some plain, valuesOf_cons_of_ne other]

private theorem isPlainNamed_mergedAs (written : attr.Written)
    (named : attr.isPlainNamed name = true) (origin : Origin) (attrs : List Attr) :
    (Attr.mergedAs name origin attrs).isPlainNamed name = true := by
  cases written with
  | raw =>
      obtain ⟨plain, called⟩ := isPlainNamed_iff.mp named
      cases called
      exact isPlainNamed_iff.mpr ⟨role_raw_eq_plain_iff.mpr (role_raw_eq_plain_iff.mp plain), rfl⟩
  | flag => cases plainPair?_of_isPlainNamed .flag named

private theorem unquoted_mergedAs (name : Text) (origin : Origin) (attrs : List Attr) :
    (Attr.mergedAs name origin attrs).unquoted = Text.intercalate " " (attrs.map Attr.unquoted) :=
  unquote_doubleQuoted _

private theorem mergedTexts_merge {before after : List Attr} {first : Attr} (origin : Origin)
    (written : ∀ attr ∈ before ++ first :: after, attr.Written)
    (absent : ∀ attr ∈ before, attr.isPlainNamed name = false)
    (named : first.isPlainNamed name = true) :
    mergedTexts {} (before ++ first :: after) =
      mergedTexts {} (before ++
        Attr.mergedAs name origin (first :: after.filter (·.isPlainNamed name)) ::
          after.filter fun attr => !attr.isPlainNamed name) := by
  obtain ⟨earlier, here, later⟩ : _ ∧ first.Written ∧ _ := by
    simpa only [List.forall_mem_append, List.forall_mem_cons] using written
  have new : ∀ pair ∈ before.filterMap (·.plainPair? {}), pair.1 ≠ name := by
    intro pair member same
    obtain ⟨attr, among, plain⟩ := List.mem_filterMap.mp member
    have found := isPlainNamed_of_plainPair? (earlier attr among) plain
    rw [same, absent attr among] at found
    cases found
  have merged := plainPair?_of_isPlainNamed (written_mergedAs name origin _)
    (isPlainNamed_mergedAs here named origin (first :: after.filter (·.isPlainNamed name)))
  rw [unquoted_mergedAs, List.map_cons, ← valuesOf_plain later] at merged
  rw [mergedTexts_eq, mergedTexts_eq, List.filterMap_append, List.filterMap_append,
    List.filterMap_cons_some (plainPair?_of_isPlainNamed here named),
    List.filterMap_cons_some merged, filterMap_plainPair?_except later,
    joined_groupByName_merge name first.unquoted new]

end Plain

/-! ## What counts of the attributes -/

/-- Attributes that agree in each role, except that of plain ones only the merged texts count. -/
structure AttrsAlike (attrs attrs' : List Attr) : Prop where
  roles : ∀ role, role ≠ .plain → attrs.filter (·.role = role) = attrs'.filter (·.role = role)
  merged : mergedTexts {} attrs = mergedTexts {} attrs'

theorem AttrsRearranged.alike {attrs attrs' : List Attr}
    (rearranged : AttrsRearranged attrs attrs') (written : ∀ attr ∈ attrs, attr.Written) :
    AttrsAlike attrs attrs' := by
  have written' := rearranged.written written
  cases rearranged with
  | reorder same =>
      refine ⟨fun role _ => same role, ?_⟩
      rw [mergedTexts, mergedTexts, ← filterMap_plainPair?_of_kept written fun _ => decide_eq_true,
        ← filterMap_plainPair?_of_kept written' fun _ => decide_eq_true, same]
  | @merge name before after first origin absent named =>
      refine ⟨?_, mergedTexts_merge origin written absent named⟩
      intro role other
      have firstPlain := (isPlainNamed_iff.mp named).1
      have mergedNamed := isPlainNamed_mergedAs (written first (by simp)) named origin
        (first :: after.filter (·.isPlainNamed name))
      have mergedPlain := (isPlainNamed_iff.mp mergedNamed).1
      have rest : (after.filter fun attr => !attr.isPlainNamed name).filter (·.role = role) =
          after.filter (·.role = role) := by
        rw [List.filter_filter]
        apply List.filter_congr
        intro attr _
        by_cases same : attr.role = role
        · simp [same, Attr.isPlainNamed, other]
        · simp [same]
      simp [firstPlain, mergedPlain, Ne.symm other, rest]

namespace AttrsAlike

variable {attrs attrs' : List Attr}

theorem find?_eq (alike : AttrsAlike attrs attrs') {role : Role} (other : role ≠ .plain)
    {kind : Attr → Bool} (within : ∀ attr, kind attr = true → attr.role = role) :
    attrs.find? kind = attrs'.find? kind := by
  have among : ∀ attrs : List Attr,
      attrs.find? kind = (attrs.filter (·.role = role)).find? kind := by
    intro attrs
    rw [List.find?_filter]
    congr 1
    funext attr
    cases found : kind attr with
    | true => simp [within attr found]
    | false => simp
  rw [among attrs, among attrs', alike.roles role other]

/-- Once the conditions and the loops are gone, and nothing plain with them, the special attributes
and the merged texts settle what is emitted. -/
theorem emitAttrs_eq (alike : AttrsAlike attrs attrs') (written : ∀ attr ∈ attrs, attr.Written)
    (written' : ∀ attr ∈ attrs', attr.Written) {kept : Attr → Bool}
    (plain : ∀ attr, attr.role = .plain → kept attr = true)
    (gone : ∀ attr, kept attr = true → attr.role = .special ∨ attr.role = .plain)
    (owner : Option Json) :
    (emitAttrs {} (attrs.filter kept) owner).outcome =
      (emitAttrs {} (attrs'.filter kept) owner).outcome := by
  have summary : ∀ {attrs : List Attr}, (∀ attr ∈ attrs, attr.Written) →
      (emitAttrs {} (attrs.filter kept) owner).outcome = (do
        let texts ← ((attrs.filter (·.role = .special)).filter kept).mapM (Attr.text {} owner)
        return Text.intercalate " " (texts ++ mergedTexts {} attrs)) := by
    intro attrs written
    have others : (attrs.filter kept).filter (fun attr => (attr.plainPair? {}).isNone) =
        (attrs.filter (·.role = .special)).filter kept := by
      rw [List.filter_filter, List.filter_filter]
      apply List.filter_congr
      intro attr member
      cases keep : kept attr with
      | false => simp
      | true =>
          rcases gone attr keep with special | plain
          · have none := plainPair?_of_ne_plain (written attr member) (by simp [special])
            simp [none, special]
          · obtain ⟨name, _, pair⟩ := plainPair?_of_plain (written attr member) plain
            simp [pair, plain]
    have merged : mergedTexts {} (attrs.filter kept) = mergedTexts {} attrs := by
      rw [mergedTexts, mergedTexts, filterMap_plainPair?_of_kept written plain]
    rw [emitAttrs_outcome {} fun attr member => written attr (List.mem_filter.mp member).1, others,
      merged]
  rw [summary written, summary written', alike.roles .special (by decide), alike.merged]

end AttrsAlike

end TemplateJsx
