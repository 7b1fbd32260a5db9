import TemplateJsx.Proofs.LoopGrammar

/-!
# The forms of a loop

A loop is written plainly, or with its binders in parentheses. Either form is read in the same way:
there is something on both sides of its mark, and of all ways to part the expression the one with the
longest binder counts. Where both forms fit, the one with parentheses is read.
-/

set_option autoImplicit false

namespace TemplateJsx

open Text

/-- How a loop is written: what opens it, and the mark between its two sides. -/
structure LoopForm where
  opening : Text
  mark : Text

namespace LoopForm

def parenthesized : LoopForm := ⟨"(", ") in "⟩

def plain : LoopForm := ⟨"", " in "⟩

/-- The expression is the loop in this form, with something on both sides of the mark. -/
structure Spells (form : LoopForm) (expression : Text) (loop : Loop) : Prop where
  binder : loop.binder ≠ ""
  iterable : loop.iterable ≠ ""
  whole : expression = form.opening ++ loop.binder ++ form.mark ++ loop.iterable

def Fits (form : LoopForm) (expression : Text) : Prop := ∃ loop, form.Spells expression loop

/-- Of the loops that the expression is in this form, the one with the longest binder. -/
structure Reads (form : LoopForm) (expression : Text) (loop : Loop) : Prop where
  spells : form.Spells expression loop
  longest : ∀ other, form.Spells expression other → other ≠ loop →
    other.binder.length < loop.binder.length

/-! ## Reading one form -/

/-- The two sides of a loop in a form, with as long a left side as possible. -/
def sides? (form : LoopForm) (cs : List CodePoint) : Option (List CodePoint × List CodePoint) :=
  match after? form.opening.toList cs with
  | some (c :: following) =>
      match splitAtLast? form.mark.toList following with
      | some (left, right) => some (c :: left, right)
      | none => none
  | _ => none

private theorem sides?_eq_some {form : LoopForm} {cs left right : List CodePoint}
    (found : form.sides? cs = some (left, right)) :
    ∃ c following before, cs = form.opening.toList ++ c :: following ∧ left = c :: before ∧
      splitAtLast? form.mark.toList following = some (before, right) := by
  unfold sides? at found
  split at found
  · next c following opened =>
      cases parted : splitAtLast? form.mark.toList following with
      | none => simp [parted] at found
      | some pair =>
          obtain ⟨before, rest⟩ := pair
          simp only [parted, Option.some.injEq, Prod.mk.injEq] at found
          obtain ⟨rfl, rfl⟩ := found
          exact ⟨c, following, before, after?_eq_some_iff.mp opened, rfl, parted⟩
  · cases found

section Forms

variable {form : LoopForm} {expression : Text} {loop other : Loop}

private theorem Spells.toList_eq (spells : form.Spells expression loop) :
    expression.toList = form.opening.toList ++ (loop.binder.toList ++ form.mark.toList ++
      loop.iterable.toList) := by
  simp [spells.whole]

/-- The length of the binder tells the ways apart in which an expression is a loop. -/
private theorem Spells.eq_of_length (spells : form.Spells expression loop)
    (spells' : form.Spells expression other) (same : other.binder.length = loop.binder.length) :
    other = loop := by
  have whole := List.append_cancel_left (spells'.toList_eq.symm.trans spells.toList_eq)
  rw [List.append_assoc, List.append_assoc] at whole
  obtain ⟨binders, rests⟩ := List.append_inj whole (by simpa [Text.length_toList] using same)
  obtain ⟨binder, iterable⟩ := loop
  obtain ⟨binder', iterable'⟩ := other
  rw [Loop.mk.injEq]
  exact ⟨Text.toList_inj.mp binders, Text.toList_inj.mp (List.append_cancel_left rests)⟩

private theorem Spells.binder_length_le (spells : form.Spells expression other)
    {left right : List CodePoint} (found : form.sides? expression.toList = some (left, right)) :
    other.binder.length ≤ left.length := by
  obtain ⟨c, following, before, opened, rfl, parted⟩ := sides?_eq_some found
  -- The mark is searched for behind the first character, which no binder can do without.
  obtain ⟨d, more, shape⟩ := List.exists_cons_of_ne_nil
    (mt Text.toList_eq_nil_iff.mp spells.binder)
  have whole := List.append_cancel_left (opened.symm.trans spells.toList_eq)
  rw [shape, List.cons_append, List.cons_append, List.cons.injEq] at whole
  have longest := splitAtLast?_longest parted (mt Text.toList_eq_nil_iff.mp spells.iterable) whole.2
  rw [← Text.length_toList, shape]
  exact Nat.succ_le_succ longest

private theorem reads_of_sides? {left right : List CodePoint}
    (found : form.sides? expression.toList = some (left, right)) :
    form.Reads expression ⟨Text.ofList left, Text.ofList right⟩ := by
  have spells : form.Spells expression ⟨Text.ofList left, Text.ofList right⟩ := by
    obtain ⟨c, following, before, opened, rfl, parted⟩ := sides?_eq_some found
    obtain ⟨rfl, remaining⟩ := splitAtLast?_sound parted
    refine ⟨by simp [← Text.toList_inj], by simpa [← Text.toList_inj] using remaining, ?_⟩
    simpa [← Text.toList_inj] using opened
  refine ⟨spells, ?_⟩
  intro other spells' different
  have unequal : other.binder.length ≠ (Text.ofList left).length :=
    fun same => different (spells.eq_of_length spells' same)
  rw [Text.length_ofList] at unequal ⊢
  exact Nat.lt_of_le_of_ne (spells'.binder_length_le found) unequal

private theorem Fits.sides?_isSome (fits : form.Fits expression) :
    (form.sides? expression.toList).isSome = true := by
  obtain ⟨loop, spells⟩ := fits
  obtain ⟨c, before, shape⟩ := List.exists_cons_of_ne_nil
    (mt Text.toList_eq_nil_iff.mp spells.binder)
  have opened : after? form.opening.toList expression.toList =
      some (c :: (before ++ form.mark.toList ++ loop.iterable.toList)) := by
    rw [after?_eq_some_iff, spells.toList_eq, shape, List.cons_append, List.cons_append]
  obtain ⟨sides, parted⟩ := Option.isSome_iff_exists.mp
    (splitAtLast?_isSome form.mark.toList before (mt Text.toList_eq_nil_iff.mp spells.iterable))
  simp only [sides?, opened, parted, Option.isSome_some]

end Forms

end LoopForm

/-! ## Both forms -/

open LoopForm

private theorem parenthesizedLoop?_eq_sides? (cs : List CodePoint) :
    parenthesizedLoop? cs = parenthesized.sides? cs := by
  match cs with
  | [] => rfl
  | [d] => by_cases bare : '(' = d <;> simp [parenthesizedLoop?, sides?, parenthesized, after?, bare]
  | d :: c :: cs =>
      by_cases opening : '(' = d
      · subst opening
        rfl
      · rw [parenthesizedLoop?_eq_none (Ne.symm opening)]
        simp [sides?, parenthesized, after?, opening]

private theorem plainLoop?_eq_sides? (cs : List CodePoint) : plainLoop? cs = plain.sides? cs := by
  cases cs <;> rfl

private theorem Loop.ofExpression?_of_parenthesized {expression : Text}
    (fits : parenthesized.Fits expression) :
    ∃ loop, parenthesized.Reads expression loop ∧ Loop.ofExpression? expression = some loop := by
  obtain ⟨⟨left, right⟩, found⟩ := Option.isSome_iff_exists.mp fits.sides?_isSome
  refine ⟨_, reads_of_sides? found, ?_⟩
  simp only [Loop.ofExpression?, loopSides?, parenthesizedLoop?_eq_sides?, found]

private theorem Loop.ofExpression?_of_plain {expression : Text}
    (other : ¬ parenthesized.Fits expression) (fits : plain.Fits expression) :
    ∃ loop, plain.Reads expression loop ∧ Loop.ofExpression? expression = some loop := by
  obtain ⟨⟨left, right⟩, found⟩ := Option.isSome_iff_exists.mp fits.sides?_isSome
  have none : parenthesized.sides? expression.toList = none := by
    cases parted : parenthesized.sides? expression.toList with
    | none => rfl
    | some sides => exact absurd ⟨_, (reads_of_sides? parted).spells⟩ other
  refine ⟨_, reads_of_sides? found, ?_⟩
  simp only [Loop.ofExpression?, loopSides?, parenthesizedLoop?_eq_sides?, plainLoop?_eq_sides?, none,
    found]

theorem isLoopExpression_iff_fits {expression : Text} :
    IsLoopExpression expression ↔ plain.Fits expression := by
  constructor
  · intro isLoop
    obtain ⟨binder, iterable, named, remaining, whole⟩ := isLoop
    exact ⟨⟨binder, iterable⟩, named, remaining, by simpa [plain] using whole⟩
  · intro fits
    obtain ⟨⟨binder, iterable⟩, named, remaining, whole⟩ := fits
    exact ⟨binder, iterable, named, remaining, by simpa [plain] using whole⟩

private theorem Attr.loop_of_ofExpression? {raw : Text} {loop : Loop}
    (found : Loop.ofExpression? (unquote raw) = some loop) (name : Json) (origin : Origin)
    (owner : Option Json) : Attr.loop ⟨name, .str raw, origin⟩ owner = .ok loop := by
  simp only [Attr.loop, Attr.expression, Json.unquoted, found]

private theorem Attr.loop_of_not_fits {raw : Text} (unfit : ¬ plain.Fits (unquote raw))
    (name : Json) (origin : Origin) (owner : Option Json) :
    Attr.loop ⟨name, .str raw, origin⟩ owner =
      .error (.complain (.invalidDirective name (.str raw) (some loopHint))
        (Attr.blamed ⟨name, .str raw, origin⟩ owner)) := by
  rw [← isLoopExpression_iff_fits, ← Loop.ofExpression?_isSome_iff,
    Option.not_isSome_iff_eq_none] at unfit
  simp only [Attr.loop, Attr.expression, Json.unquoted, unfit]

/-- A written loop is read in the first form that fits, with the longest binder, and is refused
exactly when the plain form does not fit. -/
theorem loop_read_in_first_form (name : Json) (raw : Text) (origin : Origin)
    (owner : Option Json) :
    let attr : Attr := ⟨name, .str raw, origin⟩
    let expression := unquote raw
    (parenthesized.Fits expression →
        ∃ loop, parenthesized.Reads expression loop ∧ attr.loop owner = .ok loop) ∧
      (¬ parenthesized.Fits expression → plain.Fits expression →
        ∃ loop, plain.Reads expression loop ∧ attr.loop owner = .ok loop) ∧
      (¬ parenthesized.Fits expression → ¬ plain.Fits expression →
        attr.loop owner = .error (.complain (.invalidDirective name (.str raw) (some loopHint))
          (attr.blamed owner))) ∧
      ((∃ loop, attr.loop owner = .ok loop) ↔ plain.Fits expression) := by
  intro attr expression
  have enclosed : parenthesized.Fits expression →
      ∃ loop, parenthesized.Reads expression loop ∧ attr.loop owner = .ok loop := by
    intro fits
    obtain ⟨loop, reads, found⟩ := Loop.ofExpression?_of_parenthesized fits
    exact ⟨loop, reads, Attr.loop_of_ofExpression? found name origin owner⟩
  have bare : ¬ parenthesized.Fits expression → plain.Fits expression →
      ∃ loop, plain.Reads expression loop ∧ attr.loop owner = .ok loop := by
    intro unfit fits
    obtain ⟨loop, reads, found⟩ := Loop.ofExpression?_of_plain unfit fits
    exact ⟨loop, reads, Attr.loop_of_ofExpression? found name origin owner⟩
  refine ⟨enclosed, bare, ?_, ?_, ?_⟩
  · intro _ unfit
    exact Attr.loop_of_not_fits unfit name origin owner
  · intro understood
    obtain ⟨loop, read⟩ := understood
    by_contra unfit
    have refused := Attr.loop_of_not_fits unfit name origin owner
    exact absurd (read.symm.trans refused) (by simp)
  · intro fits
    by_cases first : parenthesized.Fits expression
    · obtain ⟨loop, _, read⟩ := enclosed first
      exact ⟨loop, read⟩
    · obtain ⟨loop, _, read⟩ := bare first fits
      exact ⟨loop, read⟩

example : (⟨.str "v-for", .str "'((a, b) in c) in d in e'\n", {}⟩ : Attr).loop none =
    .ok ⟨"(a, b) in c", "d in e"⟩ := by decide +kernel

end TemplateJsx
