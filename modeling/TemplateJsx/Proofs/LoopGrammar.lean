import Mathlib.Control.Monad.Basic
import TemplateJsx.Proofs.ReadableTree

/-!
# The grammar of loops

Where the two sides of a loop are parted. The word between them may occur again in the iterable, and
then the last occurrence with something behind it counts: what stands before it, the first word and
all, becomes the binder.
-/

set_option autoImplicit false

namespace TemplateJsx

open Text

namespace Text

/-! ## The last occurrence of a mark -/

/-- A text has the mark in it, with something behind it. -/
def Splits (mark text : Text) : Prop :=
  ∃ before rest : Text, rest ≠ "" ∧ text = before ++ mark ++ rest

/-- The two sides of the last mark in a text that has something behind it. -/
structure LastSplit (mark text before rest : Text) : Prop where
  whole : text = before ++ mark ++ rest
  remaining : rest ≠ ""
  longest : ∀ other tail : Text, tail ≠ "" → text = other ++ mark ++ tail → other.length ≤ before.length

theorem splitAtLast?_longest {separator cs before rest other tail : List CodePoint}
    (found : splitAtLast? separator cs = some (before, rest)) (remaining : tail ≠ [])
    (whole : cs = other ++ separator ++ tail) : other.length ≤ before.length := by
  induction cs generalizing before other with
  | nil => simp [splitAtLast?] at found
  | cons c cs ih =>
      cases other with
      | nil => exact Nat.zero_le _
      | cons d other =>
          simp only [List.cons_append, List.cons.injEq] at whole
          obtain ⟨rfl, whole⟩ := whole
          obtain ⟨⟨left, right⟩, later⟩ := Option.isSome_iff_exists.mp
            (whole ▸ splitAtLast?_isSome separator other remaining)
          simp only [splitAtLast?, later, Option.some.injEq, Prod.mk.injEq] at found
          obtain ⟨rfl, rfl⟩ := found
          exact Nat.succ_le_succ (ih later whole)

private theorem LastSplit.of_splitAtLast? {mark text : Text} {before rest : List CodePoint}
    (found : splitAtLast? mark.toList text.toList = some (before, rest)) :
    LastSplit mark text (Text.ofList before) (Text.ofList rest) := by
  obtain ⟨whole, remaining⟩ := splitAtLast?_sound found
  refine ⟨?_, ?_, ?_⟩
  · simpa [← Text.toList_inj] using whole
  · simpa [← Text.toList_inj] using remaining
  · intro other tail nonempty same
    have longest := splitAtLast?_longest found (mt Text.toList_eq_nil_iff.mp nonempty)
      (by rw [same, Text.toList_append, Text.toList_append])
    simpa [Text.length_toList] using longest

private theorem Splits.exists_lastSplit {mark text : Text} (splits : Splits mark text) :
    ∃ before rest, LastSplit mark text before rest := by
  obtain ⟨before, rest, remaining, rfl⟩ := splits
  have found := splitAtLast?_isSome mark.toList before.toList
    (mt Text.toList_eq_nil_iff.mp remaining)
  rw [← Text.toList_append, ← Text.toList_append] at found
  obtain ⟨⟨left, right⟩, found⟩ := Option.isSome_iff_exists.mp found
  exact ⟨_, _, .of_splitAtLast? found⟩

private theorem LastSplit.unique {mark text before rest before' rest' : Text}
    (first : LastSplit mark text before rest) (second : LastSplit mark text before' rest') :
    before = before' ∧ rest = rest' := by
  have lengths : before.toList.length = before'.toList.length := by
    have upper := second.longest before rest first.remaining first.whole
    have lower := first.longest before' rest' second.remaining second.whole
    simpa [Text.length_toList] using Nat.le_antisymm upper lower
  have same := first.whole.symm.trans second.whole
  simp only [← Text.toList_inj, Text.toList_append, List.append_assoc] at same ⊢
  obtain ⟨left, right⟩ := List.append_inj same lengths
  exact ⟨left, List.append_cancel_left right⟩

/-- A split of a text behind its first mark is one of what the mark ends in and of what follows. -/
private theorem split_behind {binder iterable before rest : Text}
    (same : binder ++ " in " ++ iterable = before ++ " in " ++ rest)
    (behind : binder.length < before.length) :
    ∃ later, before = binder ++ " in" ++ later ∧ " " ++ iterable = later ++ " in " ++ rest := by
  simp only [← Text.toList_inj, Text.toList_append, List.append_assoc] at same
  simp only [← Text.length_toList] at behind
  rcases List.append_eq_append_iff.mp same with ⟨between, shape, tail⟩ | ⟨between, shape, _⟩
  · -- the first mark has blanks at its ends only, so a second one begins no earlier than its end
    match between with
    | [] => simp [shape] at behind
    | [_] | [_, _] => simp at tail
    | _ :: _ :: _ :: later =>
        simp only [Text.toList_ofString, String.reduceToList, List.map_cons, List.map_nil,
          List.cons_append, List.nil_append, List.cons.injEq] at tail
        obtain ⟨rfl, rfl, rfl, tail⟩ := tail
        refine ⟨Text.ofList later, ?_, ?_⟩
        · simp [← Text.toList_inj, shape]
        · simpa [← Text.toList_inj] using tail
  · simp only [shape, List.length_append] at behind
    omega

private theorem LastSplit.of_not_splits {binder iterable : Text} (remaining : iterable ≠ "")
    (none : ¬ Splits " in " (" " ++ iterable)) :
    LastSplit " in " (binder ++ " in " ++ iterable) binder iterable := by
  refine ⟨rfl, remaining, ?_⟩
  intro other tail nonempty same
  by_contra longer
  obtain ⟨later, _, split⟩ := split_behind same (Nat.lt_of_not_le longer)
  exact none ⟨later, tail, nonempty, split⟩

private theorem LastSplit.behind {binder iterable before rest : Text}
    (last : LastSplit " in " (" " ++ iterable) before rest) :
    LastSplit " in " (binder ++ " in " ++ iterable) (binder ++ " in" ++ before) rest := by
  refine ⟨?_, last.remaining, ?_⟩
  · have whole := last.whole
    simp only [← Text.toList_inj, Text.toList_append, List.append_assoc] at whole ⊢
    simpa using whole
  · intro other tail nonempty same
    rcases Nat.lt_or_ge binder.length other.length with behind | early
    · obtain ⟨later, rfl, split⟩ := split_behind same behind
      have longest := last.longest later tail nonempty split
      simp only [Text.length_append]
      omega
    · simp only [Text.length_append]
      omega

end Text

/-! ## Loops -/

theorem parenthesizedLoop?_eq_none {c : CodePoint} {cs : List CodePoint} (bare : c ≠ '(') :
    parenthesizedLoop? (c :: cs) = none := by
  unfold parenthesizedLoop?
  split
  · next opening => exact absurd (List.cons.inj opening).1 bare
  · rfl

private theorem Loop.ofExpression?_of_lastSplit {expression before rest : Text} {c : CodePoint}
    {cs : List CodePoint}
    (last : LastSplit " in " expression before rest) (shape : before.toList = c :: cs)
    (bare : c ≠ '(') : Loop.ofExpression? expression = some ⟨before, rest⟩ := by
  have written : expression.toList =
      c :: (cs ++ ([' ', 'i', 'n', ' '] : List CodePoint) ++ rest.toList) := by
    simp [last.whole, shape]
  obtain ⟨⟨left, right⟩, found⟩ := Option.isSome_iff_exists.mp
    (splitAtLast?_isSome [' ', 'i', 'n', ' '] cs (mt Text.toList_eq_nil_iff.mp last.remaining))
  have sides : splitAtLast? (Text.ofString " in ").toList expression.toList =
      some (c :: left, right) := by
    simp only [written, Text.toList_ofString, String.reduceToList, List.map_cons, List.map_nil,
      splitAtLast?, found]
  obtain ⟨sameBefore, sameRest⟩ := (LastSplit.of_splitAtLast? sides).unique last
  simp only [Loop.ofExpression?, loopSides?, written, parenthesizedLoop?_eq_none bare, plainLoop?,
    found, sameBefore, sameRest]

def isVariableChar (c : CodePoint) : Bool := isBinderChar c || c == '$'

def Attr.quotedLoop (name : Json) (origin : Origin) (binder iterable : Text) : Attr :=
  ⟨name, .str ("\"" ++ (binder ++ " in " ++ iterable) ++ "\""), origin⟩

private theorem Attr.quotedLoop_of_lastSplit {binder iterable before rest : Text}
    (named : Over isVariableChar binder)
    (last : LastSplit " in " (binder ++ " in " ++ iterable) before rest)
    (leads : ∃ more, before = binder ++ more) (name : Json) (origin : Origin) (owner : Option Json) :
    (Attr.quotedLoop name origin binder iterable).loop owner = .ok ⟨before, rest⟩ := by
  obtain ⟨more, rfl⟩ := leads
  obtain ⟨c, cs, shape⟩ := List.exists_cons_of_ne_nil (mt Text.toList_eq_nil_iff.mp named.nonempty)
  have bare : c ≠ '(' := by
    intro opening
    have allowed := named.within c (by simp [shape])
    rw [opening] at allowed
    exact absurd allowed (by decide)
  have begins : (binder ++ more).toList = c :: (cs ++ more.toList) := by simp [shape]
  simp only [Attr.quotedLoop, Attr.loop, Attr.expression, Json.unquoted, unquote_doubleQuoted,
    Loop.ofExpression?_of_lastSplit last begins bare]

private theorem Attr.quotedLoop_of_splits {binder iterable : Text}
    (named : Over isVariableChar binder)
    (splits : Splits " in " (" " ++ iterable)) (name : Json) (origin : Origin)
    (owner : Option Json) :
    ∃ before rest, LastSplit " in " (" " ++ iterable) before rest ∧
      (Attr.quotedLoop name origin binder iterable).loop owner =
        .ok ⟨binder ++ " in" ++ before, rest⟩ := by
  obtain ⟨before, rest, last⟩ := splits.exists_lastSplit
  exact ⟨before, rest, last, Attr.quotedLoop_of_lastSplit named last.behind
    ⟨" in" ++ before, Text.append_assoc⟩ name origin owner⟩

/-- A quoted loop over a variable is read as it is meant exactly when no further mark, with something
behind it, follows in its iterable. Otherwise the last one counts. -/
theorem loop_reads_variable_iff {binder iterable : Text} (named : Over isVariableChar binder)
    (remaining : iterable ≠ "") (name : Json) (origin : Origin) (owner : Option Json) :
    ((Attr.quotedLoop name origin binder iterable).loop owner = .ok ⟨binder, iterable⟩ ↔
        ¬ Splits " in " (" " ++ iterable)) ∧
      (Splits " in " (" " ++ iterable) → ∃ before rest,
        LastSplit " in " (" " ++ iterable) before rest ∧
          (Attr.quotedLoop name origin binder iterable).loop owner =
            .ok ⟨binder ++ " in" ++ before, rest⟩) := by
  refine ⟨⟨?_, ?_⟩, fun splits => Attr.quotedLoop_of_splits named splits name origin owner⟩
  · intro meant splits
    obtain ⟨before, rest, _, read⟩ := Attr.quotedLoop_of_splits named splits name origin owner
    rw [read, Except.ok.injEq, Loop.mk.injEq] at meant
    have lengths := congrArg Text.length meant.1
    have mark : (Text.ofString " in").length = 3 := rfl
    simp only [Text.length_append] at lengths
    omega
  · intro none
    exact Attr.quotedLoop_of_lastSplit named (.of_not_splits remaining none)
      ⟨"", Text.append_empty.symm⟩ name origin owner

theorem loop_reads_trailing_mark :
    (Attr.quotedLoop (.str "v-for") {} "$x_1" "bin(k)in in ").loop none =
        .ok ⟨"$x_1", "bin(k)in in "⟩ ∧
      ¬ Splits " in " " bin(k)in in " := by
  have named : Over isVariableChar "$x_1" :=
    ⟨by decide, List.all_eq_true.mp (by decide)⟩
  have read : (Attr.quotedLoop (.str "v-for") {} "$x_1" "bin(k)in in ").loop none =
      .ok ⟨"$x_1", "bin(k)in in "⟩ := by decide +kernel
  exact ⟨read, (loop_reads_variable_iff named (by decide) (.str "v-for") {} none).1.mp read⟩

/-- A test of membership in the iterable parts the loop in its place. -/
theorem loop_parted_at_membership_test :
    Over isVariableChar "x" ∧
      (⟨.str "v-for", .str "\"x in keys.filter(k => k in obj)\"", {}⟩ : Attr).loop none =
        .ok ⟨"x in keys.filter(k => k", "obj)"⟩ := by
  refine ⟨⟨by decide, List.all_eq_true.mp (by decide)⟩, ?_⟩
  decide +kernel

end TemplateJsx
