import TemplateJsx.Proofs.EmissionProperties

/-!
# Properties of emitted attributes

On written attributes the split into plain attributes and others cannot fail, and every emitted
attribute is a text. What can fail is the text of one that is not plain.
-/

set_option autoImplicit false

namespace TemplateJsx

open Text

/-- The name and the unquoted value of a written attribute that is plain. -/
def Attr.plainPair? (spelling : Spelling) (attr : Attr) : Option (Text × Text) :=
  match attr.name, attr.value with
  | .str name, .str raw =>
      if spelling.unmergeableMarks.any (startsWith · name) then none else some (name, unquote raw)
  | _, _ => none

def Attr.text (spelling : Spelling) (owner : Option Json) (attr : Attr) : Except Fault Text :=
  match attr.name, attr.value with
  | .str name, .bool true => .ok name
  | .str name, .bool false => .ok (braced name "false")
  | .str name, .str raw => emitWritten spelling name raw (attr.blamed owner)
  | _, _ => .ok ""

private theorem shorter?_isSome (rest other : Option (List CodePoint)) :
    (shorter? rest other).isSome = (rest.isSome || other.isSome) := by
  cases rest <;> cases other <;> simp [shorter?]
  split <;> rfl

theorem afterLongest?_isSome (marks : List Text) (name : Text) :
    (afterLongest? marks name.toList).isSome = marks.any (startsWith · name) := by
  induction marks with
  | nil => rfl
  | cons mark marks ih => rw [afterLongest?, shorter?_isSome, ih, List.any_cons, startsWith]

private theorem shorter?_eq_some {rest other : Option (List CodePoint)} {result : List CodePoint}
    (found : shorter? rest other = some result) : rest = some result ∨ other = some result := by
  cases rest with
  | none => exact .inr found
  | some rest =>
      cases other with
      | none => exact .inl found
      | some other =>
          simp only [shorter?] at found
          split at found
          · exact .inr found
          · exact .inl found

theorem afterLongest?_eq_some {marks : List Text} {cs rest : List CodePoint}
    (found : afterLongest? marks cs = some rest) : ∃ mark ∈ marks, cs = mark.toList ++ rest := by
  induction marks with
  | nil => cases found
  | cons mark marks ih =>
      rcases shorter?_eq_some found with here | later
      · exact ⟨mark, List.mem_cons_self, after?_eq_some_iff.mp here⟩
      · obtain ⟨mark, member, whole⟩ := ih later
        exact ⟨mark, List.mem_cons_of_mem _ member, whole⟩

private theorem Attr.plain?_eq {attr : Attr} (written : attr.Written) (spelling : Spelling) :
    attr.plain? spelling = .ok (attr.plainPair? spelling) := by
  cases written with
  | flag => rfl
  | @raw name value origin =>
      by_cases marked : spelling.unmergeableMarks.any (startsWith · name) = true
      · simp only [Attr.plain?, Attr.plainPair?, marked, if_true]
      · simp only [Attr.plain?, Attr.plainPair?, marked, Json.unquoted, Bool.false_eq_true, if_false]

theorem Attr.emit_eq {attr : Attr} (written : attr.Written) (spelling : Spelling)
    (owner : Option Json) :
    attr.emit spelling owner = (attr.text spelling owner).map Json.str := by
  cases written with
  | @flag name value origin =>
      cases value with
      | true => rfl
      | false => simp only [Attr.emit, Attr.text, Json.display_str, Except.map]
  | @raw name value origin =>
      simp only [Attr.emit, Attr.text]
      cases emitWritten spelling name value (Attr.blamed ⟨.str name, .str value, origin⟩ owner) <;>
        rfl

section Lists

variable {attrs : List Attr} (spelling : Spelling)

theorem partitionAttrs_eq (written : ∀ attr ∈ attrs, attr.Written) :
    partitionAttrs spelling attrs =
      .ok (attrs.filter fun attr => (attr.plainPair? spelling).isNone,
        attrs.filterMap (·.plainPair? spelling)) := by
  induction attrs with
  | nil => rfl
  | cons attr attrs ih =>
      have later := ih fun attr member => written attr (List.mem_cons_of_mem _ member)
      have here := Attr.plain?_eq (written attr List.mem_cons_self) spelling
      cases pair : attr.plainPair? spelling with
      | none => simp [partitionAttrs, here, later, pair]
      | some pair' => simp [partitionAttrs, here, later, pair]

private theorem emitEach_joinable (written : ∀ attr ∈ attrs, attr.Written) (owner : Option Json) :
    (emitEach spelling owner attrs >>= joinable) = attrs.mapM (Attr.text spelling owner) := by
  induction attrs with
  | nil => rfl
  | cons attr attrs ih =>
      have later := ih fun attr member => written attr (List.mem_cons_of_mem _ member)
      have here := Attr.emit_eq (written attr List.mem_cons_self) spelling owner
      rw [List.mapM_cons, ← later, emitEach, here]
      cases attr.text spelling owner with
      | error fault => rfl
      | ok text =>
          simp only [Except.map, ok_bind]
          cases emitEach spelling owner attrs with
          | error fault => rfl
          | ok values =>
              simp only [ok_bind, joinable]
              cases joinable values <;> rfl

def addPairs (groups : List (Text × List Text)) (pairs : List (Text × Text)) :
    List (Text × List Text) :=
  pairs.foldl (fun groups (name, value) => addToGroups name value groups) groups

def valuesOf (name : Text) (pairs : List (Text × Text)) : List Text :=
  (pairs.filter fun pair => decide (pair.1 = name)).map Prod.snd

def pairsExcept (name : Text) (pairs : List (Text × Text)) : List (Text × Text) :=
  pairs.filter fun pair => !decide (pair.1 = name)

private theorem addPairs_append (groups : List (Text × List Text))
    (pairs later : List (Text × Text)) :
    addPairs groups (pairs ++ later) = addPairs (addPairs groups pairs) later :=
  List.foldl_append

/-- The first group takes the values of its name. The other names go to the groups behind it. -/
private theorem addPairs_cons (name : Text) (values : List Text) (groups : List (Text × List Text))
    (pairs : List (Text × Text)) :
    addPairs ((name, values) :: groups) pairs =
      (name, values ++ valuesOf name pairs) :: addPairs groups (pairsExcept name pairs) := by
  induction pairs generalizing values groups with
  | nil => simp [addPairs, valuesOf, pairsExcept]
  | cons pair pairs ih =>
      obtain ⟨key, value⟩ := pair
      have step : ∀ groups pairs, addPairs groups ((key, value) :: pairs) =
          addPairs (addToGroups key value groups) pairs := fun _ _ => rfl
      by_cases same : key = name
      · subst same
        simp [step, addToGroups, ih, valuesOf, pairsExcept]
      · simp [step, addToGroups, Ne.symm same, same, ih, valuesOf, pairsExcept]

private theorem groupByName_cons (name value : Text) (pairs : List (Text × Text)) :
    groupByName ((name, value) :: pairs) =
      (name, value :: valuesOf name pairs) :: groupByName (pairsExcept name pairs) :=
  addPairs_cons name [value] [] pairs

theorem valuesOf_cons_of_ne {name other value : Text} (different : other ≠ name)
    (pairs : List (Text × Text)) :
    valuesOf name ((other, value) :: pairs) = valuesOf name pairs := by
  simp [valuesOf, different]

private theorem valuesOf_pairsExcept (name : Text) (pairs : List (Text × Text)) :
    valuesOf name (pairsExcept name pairs) = [] := by
  simp [valuesOf, pairsExcept]

private theorem valuesOf_pairsExcept_of_ne {name other : Text} (different : other ≠ name)
    (pairs : List (Text × Text)) :
    valuesOf name (pairsExcept other pairs) = valuesOf name pairs := by
  rw [valuesOf, pairsExcept, List.filter_filter, valuesOf]
  congr 2
  funext pair
  grind

private theorem pairsExcept_cons_of_ne {name other value : Text} (different : other ≠ name)
    (pairs : List (Text × Text)) :
    pairsExcept name ((other, value) :: pairs) = (other, value) :: pairsExcept name pairs := by
  simp [pairsExcept, different]

private theorem pairsExcept_self (name : Text) (pairs : List (Text × Text)) :
    pairsExcept name (pairsExcept name pairs) = pairsExcept name pairs := by
  simp [pairsExcept]

private theorem pairsExcept_comm (name other : Text) (pairs : List (Text × Text)) :
    pairsExcept name (pairsExcept other pairs) = pairsExcept other (pairsExcept name pairs) := by
  simp only [pairsExcept, List.filter_filter, Bool.and_comm]

theorem groupByName_of_nodup {pairs : List (Text × Text)}
    (distinct : (pairs.map Prod.fst).Nodup) :
    groupByName pairs = pairs.map fun pair => (pair.1, [pair.2]) := by
  induction pairs with
  | nil => rfl
  | cons pair pairs ih =>
      obtain ⟨name, value⟩ := pair
      obtain ⟨new, distinct⟩ := List.nodup_cons.mp distinct
      have others : ∀ pair ∈ pairs, pair.1 ≠ name := by
        intro pair member same
        exact new (List.mem_map.mpr ⟨pair, member, same⟩)
      have none : valuesOf name pairs = [] := by
        simpa [valuesOf] using others
      have all : pairsExcept name pairs = pairs := by
        simpa [pairsExcept] using others
      rw [groupByName_cons, none, all, ih distinct]
      rfl

/-- The groups are the names in the order in which they first appear, each with all its values. -/
theorem groupByName_eq (pairs : List (Text × Text)) :
    groupByName pairs =
      (pairs.map Prod.fst).eraseDups.map fun name => (name, valuesOf name pairs) := by
  induction size : pairs.length using Nat.strongRecOn generalizing pairs with
  | ind _ ih =>
      cases pairs with
      | nil => rfl
      | cons pair pairs =>
          obtain ⟨name, value⟩ := pair
          have fewer : (pairsExcept name pairs).length < ((name, value) :: pairs).length :=
            Nat.lt_succ_of_le (List.length_filter_le ..)
          have others : ((pairs.map Prod.fst).filter fun other => !(other == name)) =
              (pairsExcept name pairs).map Prod.fst := by
            rw [List.filter_map]
            rfl
          have own : valuesOf name ((name, value) :: pairs) = value :: valuesOf name pairs := by
            simp [valuesOf]
          rw [groupByName_cons, ih _ (size ▸ fewer) _ rfl, List.map_cons, List.eraseDups_cons,
            List.map_cons, others, own]
          congr 1
          apply List.map_congr_left
          intro other member
          have among : other ∈ (pairsExcept name pairs).map Prod.fst := List.mem_eraseDups.mp member
          have different : name ≠ other := by
            rw [← others, List.mem_filter] at among
            rintro rfl
            simp at among
          rw [valuesOf_pairsExcept_of_ne different, valuesOf_cons_of_ne different]

theorem length_valuesOf (name : Text) (pairs : List (Text × Text)) :
    (valuesOf name pairs).length = (pairs.map Prod.fst).count name := by
  rw [valuesOf, List.length_map, List.count, List.countP_map, List.countP_eq_length_filter]
  rfl

/-- Groups in which every name comes with some values, all of which are allowed for it. -/
def Grouped (allowed : Text → Text → Prop) (groups : List (Text × List Text)) : Prop :=
  ∀ group ∈ groups, group.2 ≠ [] ∧ ∀ value ∈ group.2, allowed group.1 value

private theorem Grouped.add {allowed : Text → Text → Prop} {groups : List (Text × List Text)}
    (grouped : Grouped allowed groups) {name value : Text} (fits : allowed name value) :
    Grouped allowed (addToGroups name value groups) := by
  induction groups with
  | nil =>
      refine List.forall_mem_singleton.mpr ⟨List.cons_ne_nil _ _, ?_⟩
      exact List.forall_mem_singleton.mpr fits
  | cons group groups ih =>
      obtain ⟨key, values⟩ := group
      obtain ⟨here, later⟩ := List.forall_mem_cons.mp grouped
      rw [addToGroups]
      split
      · next same =>
        subst same
        refine List.forall_mem_cons.mpr ⟨⟨by simp, ?_⟩, later⟩
        intro other member
        rcases List.mem_append.mp member with earlier | last
        · exact here.2 other earlier
        · rw [List.mem_singleton.mp last]
          exact fits
      · exact List.forall_mem_cons.mpr ⟨here, ih later⟩

private theorem Grouped.addPairs {allowed : Text → Text → Prop} {groups : List (Text × List Text)}
    (grouped : Grouped allowed groups) {pairs : List (Text × Text)}
    (each : ∀ pair ∈ pairs, allowed pair.1 pair.2) : Grouped allowed (addPairs groups pairs) := by
  induction pairs generalizing groups with
  | nil => exact grouped
  | cons pair pairs ih =>
      obtain ⟨here, later⟩ := List.forall_mem_cons.mp each
      exact ih (grouped.add here) later

theorem groupByName_grouped {allowed : Text → Text → Prop} {pairs : List (Text × Text)}
    (each : ∀ pair ∈ pairs, allowed pair.1 pair.2) : Grouped allowed (groupByName pairs) := by
  have none : Grouped allowed [] := nofun
  exact none.addPairs each

def joined (groups : List (Text × List Text)) : List (Text × Text) :=
  groups.map fun group => (group.1, Text.intercalate " " group.2)

private theorem joined_cons (name : Text) (values : List Text) (groups : List (Text × List Text)) :
    joined ((name, values) :: groups) = (name, Text.intercalate " " values) :: joined groups := rfl

/-- Values of a name that has no group yet may be joined beforehand. -/
private theorem joined_addPairs (name value : Text) {groups : List (Text × List Text)}
    (new : ∀ group ∈ groups, group.1 ≠ name) (pairs : List (Text × Text)) :
    joined (addPairs groups ((name, value) :: pairs)) =
      joined (addPairs groups ((name, Text.intercalate " " (value :: valuesOf name pairs)) ::
        pairsExcept name pairs)) := by
  -- The groups that are there take the pairs of their names away, on both sides the same ones. What
  -- is left is the case without groups, where the name opens the first one.
  induction groups generalizing pairs with
  | nil =>
      change joined (groupByName _) = joined (groupByName _)
      rw [groupByName_cons, groupByName_cons, valuesOf_pairsExcept, pairsExcept_self, joined_cons,
        joined_cons, Text.intercalate_singleton]
  | cons group groups ih =>
      obtain ⟨key, values⟩ := group
      obtain ⟨different, later⟩ := List.forall_mem_cons.mp new
      have rest := ih later (pairsExcept key pairs)
      rw [valuesOf_pairsExcept_of_ne different, pairsExcept_comm] at rest
      rw [addPairs_cons, addPairs_cons, valuesOf_cons_of_ne (Ne.symm different),
        valuesOf_cons_of_ne (Ne.symm different), valuesOf_pairsExcept_of_ne (Ne.symm different),
        pairsExcept_cons_of_ne (Ne.symm different), pairsExcept_cons_of_ne (Ne.symm different),
        joined_cons, joined_cons, rest]

theorem joined_groupByName_merge (name value : Text) {before : List (Text × Text)}
    (new : ∀ pair ∈ before, pair.1 ≠ name) (after : List (Text × Text)) :
    joined (groupByName (before ++ (name, value) :: after)) =
      joined (groupByName (before ++ (name, Text.intercalate " " (value :: valuesOf name after)) ::
        pairsExcept name after)) := by
  have grouped : Grouped (fun key _ => key ≠ name) (groupByName before) := groupByName_grouped new
  have fresh : ∀ group ∈ groupByName before, group.1 ≠ name := by
    intro group member
    obtain ⟨nonempty, each⟩ := grouped group member
    obtain ⟨value, among⟩ := List.exists_mem_of_ne_nil _ nonempty
    exact each value among
  have split : ∀ pairs, groupByName (before ++ pairs) = addPairs (groupByName before) pairs :=
    addPairs_append [] before
  rw [split, split, joined_addPairs name value fresh]

/-- The texts of plain attributes: each name once, with its values in their order. -/
def mergedTexts (attrs : List Attr) : List Text :=
  (groupByName (attrs.filterMap (·.plainPair? spelling))).map fun (name, values) =>
    name ++ "=\"" ++ Text.intercalate " " values ++ "\""

theorem mergedTexts_eq (attrs : List Attr) :
    mergedTexts spelling attrs =
      (joined (groupByName (attrs.filterMap (·.plainPair? spelling)))).map fun pair : Text × Text =>
        pair.1 ++ "=\"" ++ pair.2 ++ "\"" := by
  rw [joined, List.map_map]
  rfl

theorem emitAttrs_outcome (written : ∀ attr ∈ attrs, attr.Written) (owner : Option Json) :
    (emitAttrs spelling attrs owner).outcome = (do
      let texts ← (attrs.filter fun attr => (attr.plainPair? spelling).isNone).mapM
        (Attr.text spelling owner)
      return Text.intercalate " " (texts ++ mergedTexts spelling attrs)) := by
  have others : ∀ attr ∈ attrs.filter fun attr => (attr.plainPair? spelling).isNone,
      attr.Written := fun attr member => written attr (List.mem_filter.mp member).1
  rw [← emitEach_joinable spelling others owner]
  simp only [emitAttrs, mergeAttrs, partitionAttrs_eq spelling written, Traced.outcome_bind,
    Traced.outcome_lift, Traced.outcome_pure, ok_bind, mergedTexts, List.map_map]
  cases emitEach spelling owner _ <;> rfl

end Lists

end TemplateJsx
