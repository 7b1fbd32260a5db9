import TemplateJsx.Directive.Basic
import TemplateJsx.Emission.Text
import TemplateJsx.Text.Uppercase

/-!
# Properties of text operations

Leading pieces, separated pieces, quotes, loops and interpolations, each characterised by how the
characters can be taken apart. No statement here mentions how the search proceeds. For the upper case
of a character, the table that it is read from.
-/

set_option autoImplicit false

namespace TemplateJsx.Text

/-! ## Leading pieces -/

theorem after?_eq_some_iff {lead cs rest : List CodePoint} :
    after? lead cs = some rest ↔ cs = lead ++ rest := by
  induction lead generalizing cs with
  | nil => simp [after?]
  | cons l lead ih =>
      cases cs with
      | nil => simp [after?]
      | cons c cs =>
          by_cases same : l = c
          · simp [after?, same, ih]
          · simp [after?, same, Ne.symm same]

theorem startsWith_iff {lead s : Text} :
    startsWith lead s = true ↔ ∃ rest, s.toList = lead.toList ++ rest := by
  simp only [startsWith, Option.isSome_iff_exists, after?_eq_some_iff]

theorem startsWith_of_append {lead more s : Text} (begins : startsWith (lead ++ more) s = true) :
    startsWith lead s = true := by
  obtain ⟨rest, shape⟩ := startsWith_iff.mp begins
  rw [Text.toList_append, List.append_assoc] at shape
  exact startsWith_iff.mpr ⟨_, shape⟩

theorem startsWith_eq_false {lead s : Text} {c : CodePoint} (needed : c ∈ lead.toList)
    (absent : c ∉ s.toList) : startsWith lead s = false := by
  rw [Bool.eq_false_iff, ne_eq, startsWith_iff]
  rintro ⟨rest, shape⟩
  rw [shape] at absent
  exact absent (List.mem_append_left rest needed)

/-! ## Words -/

theorem words_eq {allowed : CodePoint → Bool} {word word' rest rest' : List CodePoint}
    (made : ∀ c ∈ word, allowed c = true) (made' : ∀ c ∈ word', allowed c = true)
    (stops : ∀ c ∈ rest.head?, allowed c = false) (stops' : ∀ c ∈ rest'.head?, allowed c = false)
    (same : word ++ rest = word' ++ rest') : word = word' ∧ rest = rest' := by
  have taken : ∀ {word rest : List CodePoint}, (∀ c ∈ word, allowed c = true) →
      (∀ c ∈ rest.head?, allowed c = false) → (word ++ rest).takeWhile allowed = word := by
    intro word rest made stops
    rw [List.takeWhile_append_of_pos made]
    cases rest with
    | nil => simp
    | cons c rest => simp [stops c rfl]
  have sameWord : word = word' := by rw [← taken made stops, same, taken made' stops']
  subst sameWord
  exact ⟨rfl, List.append_cancel_left same⟩

theorem bne_of_not_mem {c : CodePoint} {word : List CodePoint} (absent : c ∉ word) :
    ∀ d ∈ word, (d != c) = true := by
  intro d member
  rw [bne_iff_ne]
  rintro rfl
  exact absent member

/-! ## Separated pieces -/

theorem pieces_eq_splitOn (separator : CodePoint) (cs : List CodePoint) :
    pieces separator cs = cs.splitOn separator := by
  induction cs with
  | nil => rfl
  | cons c cs ih =>
      obtain ⟨piece, rest, shape⟩ := List.exists_cons_of_ne_nil (List.splitOn_ne_nil separator cs)
      by_cases same : c = separator
      · simp [pieces, List.splitOn_cons_eq_if_modifyHead, ih, same]
      · simp [pieces, List.splitOn_cons_eq_if_modifyHead, ih, same, shape]

theorem flatten_pieces (separator : CodePoint) (cs : List CodePoint) :
    (pieces separator cs).flatten = cs.filter (· != separator) := by
  induction cs with
  | nil => rfl
  | cons c cs ih =>
      by_cases same : c = separator
      · simp [pieces, same, ih]
      · simp only [pieces, if_neg same, List.filter_cons, bne_iff_ne.mpr same, if_true, ← ih]
        split
        · next none => simp [none]
        · next piece rest shape => simp [shape]

/-! ## Upper case -/

theorem CaseRun.covers_iff {run : CaseRun} {point : Nat} :
    run.covers point = true ↔
      run.first ≤ point ∧ point ≤ run.last ∧ (point - run.first) % run.step = 0 := by
  simp [CaseRun.covers, and_assoc]

theorem upper_cases (c : CodePoint) :
    (∃ run ∈ caseRuns, run.covers c.toNat = true ∧
        upper c = [.char (Char.ofNat (run.image + (c.toNat - run.first)))]) ∨
      (∃ points, (c.toNat, points) ∈ caseExpansions ∧
        upper c = points.map fun point => .char (Char.ofNat point)) ∨
      (∀ run ∈ caseRuns, run.covers c.toNat = false) ∧ upper c = [c] := by
  unfold upper
  cases found : caseRuns.find? (·.covers c.toNat) with
  | some run =>
      have covers := List.find?_some found
      exact .inl ⟨run, List.mem_of_find?_eq_some found, covers, rfl⟩
  | none =>
      cases expanded : caseExpansions.lookup c.toNat with
      | some points =>
          obtain ⟨before, after, table, _⟩ := List.lookup_eq_some_iff.mp expanded
          exact .inr (.inl ⟨points, by simp [table], rfl⟩)
      | none => exact .inr (.inr ⟨by simpa using found, rfl⟩)

/-! ## The last separator -/

theorem splitAtLast?_sound {separator cs before rest : List CodePoint}
    (found : splitAtLast? separator cs = some (before, rest)) :
    cs = before ++ separator ++ rest ∧ rest ≠ [] := by
  induction cs generalizing before with
  | nil => simp [splitAtLast?] at found
  | cons c cs ih =>
      simp only [splitAtLast?] at found
      cases later : splitAtLast? separator cs with
      | some sides =>
          obtain ⟨left, right⟩ := sides
          simp only [later, Option.some.injEq, Prod.mk.injEq] at found
          obtain ⟨rfl, rfl⟩ := found
          obtain ⟨rfl, remaining⟩ := ih later
          exact ⟨by simp, remaining⟩
      | none =>
          simp only [later] at found
          cases here : after? separator (c :: cs) with
          | none => simp [here] at found
          | some following =>
              cases following with
              | nil => simp [here] at found
              | cons d following =>
                  simp only [here, Option.some.injEq, Prod.mk.injEq] at found
                  obtain ⟨rfl, rfl⟩ := found
                  exact ⟨by simpa using after?_eq_some_iff.mp here, by simp⟩

theorem splitAtLast?_isSome (separator before : List CodePoint) {rest : List CodePoint}
    (remaining : rest ≠ []) : (splitAtLast? separator (before ++ separator ++ rest)).isSome := by
  induction before with
  | nil =>
      cases whole : separator ++ rest with
      | nil => simp [remaining] at whole
      | cons c cs =>
          have here := after?_eq_some_iff.mpr whole.symm
          obtain ⟨d, following, rfl⟩ := List.exists_cons_of_ne_nil remaining
          simp only [List.nil_append, whole, splitAtLast?, here]
          split <;> rfl
  | cons c before ih =>
      obtain ⟨sides, found⟩ := Option.isSome_iff_exists.mp ih
      simp only [List.cons_append, splitAtLast?, found, Option.isSome_some]

private theorem splitAtLast?_of_blankless {before rest : List CodePoint} (remaining : rest ≠ [])
    (whole : .char ' ' ∉ before) (whole' : .char ' ' ∉ rest) :
    splitAtLast? [' ', 'i', 'n', ' '] (before ++ ([' ', 'i', 'n', ' '] : List CodePoint) ++ rest) =
      some (before, rest) := by
  obtain ⟨⟨left, right⟩, found⟩ := Option.isSome_iff_exists.mp
    (splitAtLast?_isSome [' ', 'i', 'n', ' '] before remaining)
  obtain ⟨same, _⟩ := splitAtLast?_sound found
  have noBlank : .char ' ' ∉ left := by
    have blanks := congrArg (List.count (.char ' ')) same
    simp only [List.count_append, List.count_eq_zero_of_not_mem whole,
      List.count_eq_zero_of_not_mem whole'] at blanks
    rw [← List.count_eq_zero]
    omega
  rw [List.append_assoc, List.append_assoc] at same
  obtain ⟨rfl, sameRest⟩ := words_eq (bne_of_not_mem whole) (bne_of_not_mem noBlank) (by simp)
    (by simp) same
  rw [found, List.append_cancel_left sameRest]

/-! ## Quotes -/

private theorem beforeClosing?_eq_some_iff {quote : CodePoint} {cs inner : List CodePoint}
    (visible : quote ≠ '\n') : beforeClosing? quote cs = some inner ↔
      cs = inner ++ [quote] ∨ cs = inner ++ [quote, '\n'] := by
  obtain ⟨reversed, rfl⟩ : ∃ reversed, cs = reversed.reverse := ⟨cs.reverse, by simp⟩
  rw [List.reverse_eq_iff, List.reverse_eq_iff]
  unfold beforeClosing?
  rw [List.reverse_reverse]
  cases reversed with
  | nil => simp
  | cons last before =>
      by_cases closes : last = quote
      · subst last
        simp [visible, List.reverse_eq_iff]
      · by_cases newline : last = '\n'
        · subst last
          cases before with
          | nil => simp [closes]
          | cons c before =>
              by_cases closesBefore : c = quote
              · simp [closes, closesBefore, List.reverse_eq_iff]
              · simp [closes, closesBefore]
        · simp [closes, newline]

/-- A quotation is an inner text between two equal quotes, possibly with a line feed behind it. -/
def IsQuotation (raw inner : Text) : Prop :=
  ∃ quote : Text, (quote = "\"" ∨ quote = "'") ∧
    (raw = quote ++ inner ++ quote ∨ raw = quote ++ inner ++ quote ++ "\n")

private theorem quotation?_eq_some_iff {raw : Text} {inner : List CodePoint} :
    quotation? raw.toList = some inner ↔ IsQuotation raw (Text.ofList inner) := by
  simp only [IsQuotation, or_and_right, exists_or, exists_eq_left]
  simp only [← Text.toList_inj, Text.toList_append]
  generalize raw.toList = cs
  cases cs with
  | nil => simp [quotation?]
  | cons quote rest =>
      by_cases mark : quote = '\x22' ∨ quote = '\x27'
      · have visible : quote ≠ '\n' := by
          rcases mark with rfl | rfl <;> decide
        simp only [quotation?, mark, if_true, beforeClosing?_eq_some_iff visible]
        rcases mark with rfl | rfl <;> simp
      · simp only [quotation?, mark, if_false]
        simp only [not_or] at mark
        simp [mark]

theorem unquote_of_isQuotation {raw inner : Text} (quoted : IsQuotation raw inner) :
    unquote raw = inner := by
  have found : quotation? raw.toList = some inner.toList := by
    rw [quotation?_eq_some_iff, Text.ofList_toList]
    exact quoted
  simp only [unquote, found, Text.ofList_toList]

theorem unquote_doubleQuoted (inner : Text) : unquote ("\"" ++ inner ++ "\"") = inner :=
  unquote_of_isQuotation ⟨"\"", .inl rfl, .inl rfl⟩

private theorem unquote_of_not_isQuotation {raw : Text} (bare : ∀ inner, ¬ IsQuotation raw inner) :
    unquote raw = raw := by
  cases found : quotation? raw.toList with
  | none => simp only [unquote, found]
  | some inner => exact absurd (quotation?_eq_some_iff.mp found) (bare _)

private theorem IsQuotation.ne {raw inner : Text} (quoted : IsQuotation raw inner) :
    inner ≠ raw := by
  rintro rfl
  obtain ⟨quote, mark, plain | newline⟩ := quoted
  all_goals have single : quote.toList.length = 1 := by rcases mark with rfl | rfl <;> rfl
  · have lengths := congrArg (·.toList.length) plain
    simp only [Text.toList_append, List.length_append] at lengths
    omega
  · have lengths := congrArg (·.toList.length) newline
    simp only [Text.toList_append, List.length_append] at lengths
    omega

private theorem IsQuotation.unique {raw inner other : Text} (quoted : IsQuotation raw inner)
    (quoted' : IsQuotation raw other) : other = inner :=
  (unquote_of_isQuotation quoted').symm.trans (unquote_of_isQuotation quoted)

theorem unquote_eq_self_iff {raw : Text} :
    unquote raw = raw ↔ ∀ inner, ¬ IsQuotation raw inner := by
  constructor
  · intro same inner quoted
    exact quoted.ne ((unquote_of_isQuotation quoted).symm.trans same)
  · exact unquote_of_not_isQuotation

/-- Removing quotes yields the one inner text of a quotation, and changes nothing else. Any text can be
put between quotes and is found there again. -/
theorem unquote_exact_on_quotations (raw : Text) :
    (∀ inner, IsQuotation raw inner →
        unquote raw = inner ∧ ∀ other, IsQuotation raw other → other = inner) ∧
      (unquote raw = raw ↔ ∀ inner, ¬ IsQuotation raw inner) ∧
      ∀ quote : Text, quote = "\"" ∨ quote = "'" → unquote (quote ++ raw ++ quote) = raw := by
  refine ⟨?_, unquote_eq_self_iff, ?_⟩
  · intro inner quoted
    exact ⟨unquote_of_isQuotation quoted, fun _ => quoted.unique⟩
  · intro quote mark
    exact unquote_of_isQuotation ⟨quote, mark, .inl rfl⟩

-- A lone quote, different quotes, a quote inside, and line feeds inside and behind.
example : unquote "'\n" = "'\n" ∧ unquote "'a\"" = "'a\"" ∧ unquote "'''\n" = "'" ∧
    unquote "'\n'" = "\n" ∧ unquote "''\n\n" = "''\n\n" := by
  decide

def IsFullQuotation (raw : Text) : Prop := ∃ inner : Text, inner ≠ "" ∧ IsQuotation raw inner

theorem isFullQuotation_iff {raw : Text} :
    IsFullQuotation raw ↔ ¬ (unquote raw = raw ∨ unquote raw = "") := by
  by_cases quoted : ∃ inner, IsQuotation raw inner
  · obtain ⟨inner, quoted⟩ := quoted
    have stripped := unquote_of_isQuotation quoted
    simp only [stripped, quoted.ne, false_or]
    constructor
    · rintro ⟨other, nonempty, quotedOther⟩
      rwa [← stripped, unquote_of_isQuotation quotedOther]
    · intro nonempty
      exact ⟨inner, nonempty, quoted⟩
  · have bare := unquote_of_not_isQuotation (not_exists.mp quoted)
    simp only [bare, true_or, not_true_eq_false, iff_false]
    rintro ⟨inner, _, isQuotation⟩
    exact quoted ⟨inner, isQuotation⟩

instance (raw : Text) : Decidable (IsFullQuotation raw) := decidable_of_iff _ isFullQuotation_iff.symm

end TemplateJsx.Text

namespace TemplateJsx

open Text

/-! ## Loops -/

/-- An expression that can be taken apart around the word `in`, with something on both sides. -/
def IsLoopExpression (expression : Text) : Prop :=
  ∃ binder iterable : Text, binder ≠ "" ∧ iterable ≠ "" ∧ expression = binder ++ " in " ++ iterable

private theorem plainLoop?_isSome_iff {cs : List CodePoint} :
    (plainLoop? cs).isSome = true ↔
      ∃ binder iterable, binder ≠ [] ∧ iterable ≠ [] ∧
        cs = binder ++ ([' ', 'i', 'n', ' '] : List CodePoint) ++ iterable := by
  cases cs with
  | nil => simp [plainLoop?]
  | cons c cs =>
      constructor
      · intro found
        cases sides : splitAtLast? [' ', 'i', 'n', ' '] cs with
        | none => simp [plainLoop?, sides] at found
        | some pair =>
            obtain ⟨left, right⟩ := pair
            obtain ⟨rfl, remaining⟩ := splitAtLast?_sound sides
            exact ⟨c :: left, right, by simp, remaining, by simp⟩
      · rintro ⟨binder, iterable, nonempty, remaining, whole⟩
        obtain ⟨d, before, rfl⟩ := List.exists_cons_of_ne_nil nonempty
        simp only [List.cons_append, List.cons.injEq] at whole
        obtain ⟨rfl, rfl⟩ := whole
        obtain ⟨sides, found⟩ := Option.isSome_iff_exists.mp
          (splitAtLast?_isSome [' ', 'i', 'n', ' '] before remaining)
        simp only [plainLoop?, found, Option.isSome_some]

private theorem plainLoop?_isSome_of_parenthesized {cs left right : List CodePoint}
    (found : parenthesizedLoop? cs = some (left, right)) : (plainLoop? cs).isSome = true := by
  unfold parenthesizedLoop? at found
  split at found
  · next c rest =>
      cases sides : splitAtLast? [')', ' ', 'i', 'n', ' '] rest with
      | none => simp [sides] at found
      | some pair =>
          obtain ⟨before, after⟩ := pair
          obtain ⟨rfl, remaining⟩ := splitAtLast?_sound sides
          exact plainLoop?_isSome_iff.mpr
            ⟨.char '(' :: c :: before ++ [.char ')'], after, by simp, remaining, by simp⟩
  · cases found

theorem Loop.ofExpression?_isSome_iff {expression : Text} :
    (Loop.ofExpression? expression).isSome = true ↔ IsLoopExpression expression := by
  have sides : (Loop.ofExpression? expression).isSome = (plainLoop? expression.toList).isSome := by
    unfold Loop.ofExpression? loopSides?
    cases parenthesized : parenthesizedLoop? expression.toList with
    | some pair => simp [plainLoop?_isSome_of_parenthesized parenthesized]
    | none => cases plainLoop? expression.toList <;> rfl
  rw [sides, plainLoop?_isSome_iff, IsLoopExpression]
  constructor
  · rintro ⟨binder, iterable, nonempty, remaining, whole⟩
    refine ⟨Text.ofList binder, Text.ofList iterable, ?_, ?_, ?_⟩
    · simpa [← Text.toList_inj] using nonempty
    · simpa [← Text.toList_inj] using remaining
    · simpa [← Text.toList_inj] using whole
  · rintro ⟨binder, iterable, nonempty, remaining, rfl⟩
    exact ⟨binder.toList, iterable.toList, by simpa using nonempty, by simpa using remaining,
      by simp⟩

theorem Loop.ofExpression?_of_blankless {binder iterable : Text} (named : binder ≠ "")
    (remaining : iterable ≠ "") (bare : .char '(' ∉ binder.toList) (whole : .char ' ' ∉ binder.toList)
    (whole' : .char ' ' ∉ iterable.toList) :
    Loop.ofExpression? (binder ++ " in " ++ iterable) = some ⟨binder, iterable⟩ := by
  obtain ⟨c, cs, shape⟩ := List.exists_cons_of_ne_nil (mt Text.toList_eq_nil_iff.mp named)
  have written : (binder ++ " in " ++ iterable).toList =
      c :: (cs ++ ([' ', 'i', 'n', ' '] : List CodePoint) ++ iterable.toList) := by
    simp [shape]
  rw [shape] at bare whole
  have sides := splitAtLast?_of_blankless (mt Text.toList_eq_nil_iff.mp remaining)
    (fun member => whole (List.mem_cons_of_mem c member)) whole'
  have plain : plainLoop? (c :: (cs ++ ([' ', 'i', 'n', ' '] : List CodePoint) ++ iterable.toList)) =
      some (binder.toList, iterable.toList) := by
    simp only [plainLoop?, sides, shape]
  have notParenthesized :
      parenthesizedLoop? (c :: (cs ++ ([' ', 'i', 'n', ' '] : List CodePoint) ++ iterable.toList)) =
        none := by
    unfold parenthesizedLoop?
    split
    · next opening =>
        rw [(List.cons.inj opening).1] at bare
        exact absurd List.mem_cons_self bare
    · rfl
  simp only [Loop.ofExpression?, loopSides?, written, notParenthesized, plain, Text.ofList_toList]

instance (expression : Text) : Decidable (IsLoopExpression expression) :=
  decidable_of_iff _ Loop.ofExpression?_isSome_iff

/-! ## Interpolations -/

theorem interpolation?_eq_some_iff {cs inner : List CodePoint} :
    interpolation? cs = some inner ↔
      inner ≠ [] ∧ cs = .char '\x7b' :: .char '\x7b' :: (inner ++ [.char '\x7d', .char '\x7d']) := by
  constructor
  · intro found
    unfold interpolation? at found
    split at found
    · split at found
      · next c rest _ ending shape =>
          cases found
          refine ⟨List.cons_ne_nil _ _, ?_⟩
          rw [← List.reverse_reverse rest, shape]
          simp
      · cases found
    · cases found
  · rintro ⟨nonempty, rfl⟩
    cases inner with
    | nil => exact absurd rfl nonempty
    | cons c rest => simp [interpolation?]

theorem emittedText_of_not_mem {value : Text} (absent : .char '\x7b' ∉ value.toList) :
    emittedText value = value := by
  unfold emittedText
  split
  · next inner found =>
      rw [(interpolation?_eq_some_iff.mp found).2] at absent
      exact absurd List.mem_cons_self absent
  · rfl

end TemplateJsx
