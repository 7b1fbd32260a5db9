import TemplateJsx.Json.Printer
import TemplateJsx.Json.Reader

/-!
# Written JSON reads back

Reading what a layout of blanks has written yields the value again. The reader works on what is left of
the text, so every statement here carries the characters that follow. A number needs to know that they
cannot continue it; nothing else does.
-/

set_option autoImplicit false

namespace TemplateJsx

open Text

/-! ## Decimal numbers -/

namespace Number

private theorem digitValue_digitChar {value : Nat} (small : value < 10) :
    digitValue (digitChar value) = value ∧ isDigit (digitChar value) = true := by
  revert value
  decide

private theorem readDigits_append_digit (digits : List CodePoint) (last : CodePoint) :
    readDigits (digits ++ [last]) = readDigits digits * 10 + digitValue last := by
  simp [readDigits, readDigitsFrom]

private theorem readDigits_decimal (n : Nat) : readDigits (decimal n) = n := by
  induction n using Nat.strongRecOn with
  | ind n ih =>
      rw [decimal]
      split
      · next small =>
          simpa [readDigits, readDigitsFrom] using (digitValue_digitChar small).1
      · next large =>
          rw [readDigits_append_digit, ih (n / 10) (by omega),
            (digitValue_digitChar (Nat.mod_lt n (by decide))).1]
          omega

private theorem isDigit_of_mem_decimal (n : Nat) {c : CodePoint} (member : c ∈ decimal n) :
    isDigit c = true := by
  induction n using Nat.strongRecOn with
  | ind n ih =>
      rw [decimal] at member
      split at member
      · next small =>
          rw [List.mem_singleton] at member
          exact member ▸ (digitValue_digitChar small).2
      · next large =>
          rcases List.mem_append.mp member with earlier | last
          · exact ih (n / 10) (by omega) earlier
          · rw [List.mem_singleton] at last
            exact last ▸ (digitValue_digitChar (Nat.mod_lt n (by decide))).2

/-- Zero is a single digit, and no other number begins with one. -/
private theorem decimal_head (n : Nat) :
    ∃ c cs, decimal n = c :: cs ∧ (c = '0' → cs = []) := by
  induction n using Nat.strongRecOn with
  | ind n ih =>
      rw [decimal]
      split
      · exact ⟨_, [], rfl, fun _ => rfl⟩
      · next large =>
          obtain ⟨c, cs, shape, lone⟩ := ih (n / 10) (by omega)
          refine ⟨c, cs ++ [digitChar (n % 10)], by rw [shape, List.cons_append], ?_⟩
          intro zero
          have value := readDigits_decimal (n / 10)
          rw [shape, lone zero, zero] at value
          have none : readDigits ['0'] = 0 := by decide
          omega

end Number

namespace Json

open Number

def EndsNumber (rest : List CodePoint) : Prop :=
  ∀ c cs, rest = c :: cs → isDigit c = false ∧ c ≠ '.' ∧ c ≠ 'e' ∧ c ≠ 'E'

private theorem spanDigits_append {digits rest : List CodePoint}
    (all : ∀ c ∈ digits, isDigit c = true)
    (ends : EndsNumber rest) : spanDigits (digits ++ rest) = (digits, rest) := by
  have split : rest.takeWhile isDigit = [] ∧ rest.dropWhile isDigit = rest := by
    cases rest with
    | nil => exact ⟨rfl, rfl⟩
    | cons c cs => simp [(ends c cs rfl).1]
  rw [spanDigits, List.takeWhile_append_of_pos all, List.dropWhile_append_of_pos all, split.1,
    split.2, List.append_nil]

private theorem readWhole?_decimal (n : Nat) {rest : List CodePoint} (ends : EndsNumber rest) :
    readWhole? (decimal n ++ rest) = some (decimal n, rest) := by
  obtain ⟨c, cs, shape, lone⟩ := decimal_head n
  have digit : isDigit c = true := isDigit_of_mem_decimal n (by simp [shape])
  have span := spanDigits_append (fun _ => isDigit_of_mem_decimal n) ends
  rw [shape, List.cons_append] at span ⊢
  rw [readWhole?]
  by_cases zero : c = '0'
  · rw [if_pos zero, lone zero, List.nil_append]
  · rw [if_neg zero, if_pos digit, span]

private theorem readFraction_of_endsNumber {rest : List CodePoint} (ends : EndsNumber rest) :
    readFraction rest = ([], rest) := by
  unfold readFraction
  split
  · next c cs => exact absurd rfl (ends '.' (c :: cs) rfl).2.1
  · rfl

private theorem readExponent_of_endsNumber {rest : List CodePoint} (ends : EndsNumber rest) :
    readExponent rest = (none, rest) := by
  cases rest with
  | nil => rfl
  | cons c cs =>
      obtain ⟨_, _, lower, upper⟩ := ends c cs rfl
      simp [readExponent, lower, upper]

private theorem readMagnitude?_decimal (negative : Bool) (n : Nat) {rest : List CodePoint}
    (ends : EndsNumber rest) :
    readMagnitude? negative (decimal n ++ rest) =
      some (.int (if negative then -(n : Int) else n), rest) := by
  simp only [readMagnitude?, readWhole?_decimal n ends, readFraction_of_endsNumber ends,
    readExponent_of_endsNumber ends, readDigits_decimal]

private theorem readWord?_of_digit {c : CodePoint} {cs : List CodePoint}
    (digit : isDigit c = true) :
    readWord? (c :: cs) = none ∧ readWord? (.char '-' :: c :: cs) = none := by
  have noWord : c ≠ 'n' ∧ c ≠ 't' ∧ c ≠ 'f' ∧ c ≠ 'N' ∧ c ≠ 'I' ∧ c ≠ '-' := by
    refine ⟨?_, ?_, ?_, ?_, ?_, ?_⟩ <;> (rintro rfl; cases digit)
  constructor <;> simp [readWord?, words, after?, noWord, eq_comm]

private theorem readScalar_decimalInt (n : Int) {rest : List CodePoint} (ends : EndsNumber rest) :
    readScalar (decimalInt n ++ rest) = .ok (.int n, rest) := by
  cases n with
  | ofNat n =>
      obtain ⟨c, cs, shape, _⟩ := decimal_head n
      have digit : isDigit c = true := isDigit_of_mem_decimal n (by simp [shape])
      have magnitude := readMagnitude?_decimal false n ends
      simp only [decimalInt, shape, List.cons_append] at magnitude ⊢
      have number : readNumber? (c :: (cs ++ rest)) = readMagnitude? false (c :: (cs ++ rest)) := by
        unfold readNumber?
        split
        · next same => cases same; cases digit
        · rfl
      simp [readScalar, (readWord?_of_digit digit).1, number, magnitude]
  | negSucc n =>
      obtain ⟨c, cs, shape, _⟩ := decimal_head (n + 1)
      have digit : isDigit c = true := isDigit_of_mem_decimal (n + 1) (by simp [shape])
      have magnitude := readMagnitude?_decimal true (n + 1) ends
      simp only [decimalInt, shape, List.cons_append] at magnitude ⊢
      simp [readScalar, (readWord?_of_digit digit).2, readNumber?, magnitude]
      omega

/-! ## Strings -/

private theorem hexValue?_hexDigit {value : Nat} (small : value < 16) :
    hexValue? (hexDigit value) = some value := by
  revert value
  decide

private theorem hexQuad?_hexDigits {unit : Nat} (small : unit < 0x10000) :
    ∃ a b c d, hexDigits 4 unit = [a, b, c, d] ∧ hexQuad? a b c d = some unit := by
  refine ⟨_, _, _, _, rfl, ?_⟩
  have value : ((unit / 16 / 16 / 16 % 16 * 16 + unit / 16 / 16 % 16) * 16 + unit / 16 % 16) * 16 +
      unit % 16 = unit := by omega
  simp only [hexQuad?, hexValue?_hexDigit (Nat.mod_lt _ (by decide : 0 < 16)), Option.bind_eq_bind,
    Option.bind_some, value]
  rfl

/-- The parts that a written code point is read as. -/
inductive Spelled (c : CodePoint) : List StringPart → Prop where
  | plain : Spelled c [.plain c]
  | unit : c.toNat ≤ 0xFFFF → Spelled c [.unit c.toNat]
  | pair : 0xFFFF < c.toNat →
      Spelled c [.unit (0xD800 + (c.toNat - 0x10000) / 0x400),
        .unit (0xDC00 + (c.toNat - 0x10000) % 0x400)]

inductive Spells : List CodePoint → List StringPart → Prop where
  | nil : Spells [] []
  | cons {c : CodePoint} {cs : List CodePoint} {front parts : List StringPart} :
      Spelled c front → Spells cs parts → Spells (c :: cs) (front ++ parts)

/-- No two code points in a row are a surrogate pair. Such a pair is written as the character that it
encodes, and reads back as that character. -/
def pairFree : List CodePoint → Bool
  | c :: d :: cs => !(isHighSurrogate c.toNat && isLowSurrogate d.toNat) && pairFree (d :: cs)
  | _ => true

private theorem isHighSurrogate_char (c : Char) : isHighSurrogate c.toNat = false := by
  have bounds := CodePoint.char_bounds c
  simp only [isHighSurrogate, Bool.and_eq_false_iff, decide_eq_false_iff_not]
  omega

private theorem pairFree_chars (cs : List Char) : pairFree (cs.map .char) = true := by
  induction cs with
  | nil => rfl
  | cons c cs ih =>
      cases cs with
      | nil => rfl
      | cons d cs =>
          rw [List.map_cons, List.map_cons, pairFree, CodePoint.toNat_char, isHighSurrogate_char]
          exact ih

section Strings

variable (opening : Nat) (reversed : List StringPart) {rest : List CodePoint}

private theorem readString_unitEscape {unit : Nat} (small : unit < 0x10000) (more : rest ≠ []) :
    readString opening reversed (unitEscape unit ++ rest) =
      readString opening (.unit unit :: reversed) rest := by
  obtain ⟨a, b, c, d, digits, value⟩ := hexQuad?_hexDigits small
  have open' : rest.isEmpty = false := by simpa using more
  simp only [unitEscape, numericEscape, digits, List.map_cons, List.map_nil, List.cons_append,
    List.nil_append, readString, value, open']

private theorem readString_simpleEscape {letter meant : CodePoint}
    (escape : simpleEscape? letter = some meant) (notUnit : letter ≠ 'u') :
    readString opening reversed (.char '\\' :: letter :: rest) =
      readString opening (.plain meant :: reversed) rest := by
  rw [readString]
  · simp only [escape, notUnit, if_false]
  · intro _ _ _ _ _ same
    exact absurd same notUnit

private theorem readString_plain {c : CodePoint} (quote : c ≠ '\x22') (backslash : c ≠ '\\')
    (visible : ¬ c.toNat ≤ 0x1F) :
    readString opening reversed (c :: rest) = readString opening (.plain c :: reversed) rest := by
  rw [readString]
  · rw [if_neg visible]
  all_goals intros; contradiction

end Strings

private theorem stringChar_cases (c : CodePoint) :
    (∃ letter, stringChar c = [.char '\\', letter] ∧ simpleEscape? letter = some c ∧ letter ≠ 'u') ∨
      (c ≠ '\x22' ∧ c ≠ '\\' ∧
        stringChar c =
          if 0x20 ≤ c.toNat ∧ c.toNat ≤ 0x7E then [c]
          else if c.toNat ≤ 0xFFFF then unitEscape c.toNat
          else unitEscape (0xD800 + (c.toNat - 0x10000) / 0x400) ++
            unitEscape (0xDC00 + (c.toNat - 0x10000) % 0x400)) := by
  by_cases quote : c = '\x22'
  · subst quote; exact .inl ⟨_, rfl, rfl, by decide⟩
  by_cases backslash : c = '\\'
  · subst backslash; exact .inl ⟨_, rfl, rfl, by decide⟩
  by_cases newline : c = '\n'
  · subst newline; exact .inl ⟨_, rfl, rfl, by decide⟩
  by_cases carriage : c = '\r'
  · subst carriage; exact .inl ⟨_, rfl, rfl, by decide⟩
  by_cases tab : c = '\t'
  · subst tab; exact .inl ⟨_, rfl, rfl, by decide⟩
  by_cases form : c = '\x0c'
  · subst form; exact .inl ⟨_, rfl, rfl, by decide⟩
  by_cases back : c = '\x08'
  · subst back; exact .inl ⟨_, rfl, rfl, by decide⟩
  refine .inr ⟨quote, backslash, ?_⟩
  rw [stringChar, if_neg quote, if_neg backslash, if_neg newline, if_neg carriage, if_neg tab,
    if_neg form, if_neg back]

private theorem readString_stringChar (c : CodePoint) :
    ∃ parts, Spelled c parts ∧ ∀ (opening : Nat) (reversed : List StringPart)
      {rest : List CodePoint}, rest ≠ [] →
      readString opening reversed (stringChar c ++ rest) =
        readString opening (parts.reverse ++ reversed) rest := by
  have bounds := CodePoint.toNat_lt c
  obtain ⟨letter, written, escape, notUnit⟩ | ⟨quote, backslash, written⟩ := stringChar_cases c
  · refine ⟨[.plain c], .plain, fun opening reversed rest _ => ?_⟩
    rw [written]
    exact readString_simpleEscape opening reversed escape notUnit
  rw [written]
  by_cases printable : 0x20 ≤ c.toNat ∧ c.toNat ≤ 0x7E
  · refine ⟨[.plain c], .plain, fun opening reversed rest _ => ?_⟩
    rw [if_pos printable]
    exact readString_plain opening reversed quote backslash (by omega)
  rw [if_neg printable]
  by_cases single : c.toNat ≤ 0xFFFF
  · refine ⟨[.unit c.toNat], .unit single, fun opening reversed rest more => ?_⟩
    rw [if_pos single, readString_unitEscape _ _ (by omega) more]
    rfl
  · refine ⟨_, .pair (by omega), fun opening reversed rest more => ?_⟩
    rw [if_neg single, List.append_assoc,
      readString_unitEscape _ _ (by omega) (by simp [unitEscape, numericEscape]),
      readString_unitEscape _ _ (by omega) more]
    rfl

private theorem readString_written (cs : List CodePoint) :
    ∃ parts, Spells cs parts ∧ ∀ (opening : Nat) (reversed : List StringPart)
      (rest : List CodePoint),
      readString opening reversed (cs.flatMap stringChar ++ .char '\x22' :: rest) =
        .ok (Text.ofList (joinParts (reversed.reverse ++ parts)), rest) := by
  induction cs with
  | nil => exact ⟨[], .nil, fun _ _ _ => by simp [readString]⟩
  | cons c cs ih =>
      obtain ⟨front, spelled, step⟩ := readString_stringChar c
      obtain ⟨parts, spells, reads⟩ := ih
      refine ⟨front ++ parts, .cons spelled spells, fun opening reversed rest => ?_⟩
      rw [List.flatMap_cons, List.append_assoc, step _ _ (by simp), reads]
      simp

private theorem joinParts_unit {value : Nat} {parts : List StringPart}
    (apart : ∀ low more, parts = .unit low :: more →
      (isHighSurrogate value && isLowSurrogate low) = false) :
    joinParts (.unit value :: parts) = .ofNat value :: joinParts parts := by
  cases parts with
  | nil => rfl
  | cons part parts =>
      cases part with
      | plain c => rfl
      | unit low => simp only [joinParts, apart low parts rfl, Bool.false_eq_true, if_false]

private theorem joinParts_pair {c : CodePoint} (beyond : 0xFFFF < c.toNat)
    (parts : List StringPart) : joinParts (.unit (0xD800 + (c.toNat - 0x10000) / 0x400) ::
      .unit (0xDC00 + (c.toNat - 0x10000) % 0x400) :: parts) = c :: joinParts parts := by
  have bound := CodePoint.toNat_lt c
  have high : isHighSurrogate (0xD800 + (c.toNat - 0x10000) / 0x400) = true := by
    simp [isHighSurrogate]; omega
  have low : isLowSurrogate (0xDC00 + (c.toNat - 0x10000) % 0x400) = true := by
    simp [isLowSurrogate]; omega
  have joined : joinSurrogates (0xD800 + (c.toNat - 0x10000) / 0x400)
      (0xDC00 + (c.toNat - 0x10000) % 0x400) = c.toNat := by
    unfold joinSurrogates
    omega
  cases c with
  | char c =>
      rw [joinParts, high, low, joined, Bool.and_self, if_pos rfl, CodePoint.toNat_char,
        Char.ofNat_toNat]
  | surrogate index =>
      rw [CodePoint.toNat] at beyond
      omega

private theorem low_of_spells {cs : List CodePoint} {low : Nat} {parts : List StringPart}
    (spells : Spells cs (.unit low :: parts)) (isLow : isLowSurrogate low = true) :
    ∃ d ds, cs = d :: ds ∧ isLowSurrogate d.toNat = true := by
  generalize shape : StringPart.unit low :: parts = whole at spells
  cases spells with
  | nil => cases shape
  | @cons d ds front later spelled _ =>
      refine ⟨d, ds, rfl, ?_⟩
      cases spelled with
      | plain => cases shape
      | unit => cases shape; exact isLow
      | pair beyond =>
          -- The first unit of a pair is a high surrogate.
          have bound := CodePoint.toNat_lt d
          cases shape
          simp only [isLowSurrogate, Bool.and_eq_true, decide_eq_true_eq] at isLow
          omega

private theorem joinParts_of_spells {cs : List CodePoint} {parts : List StringPart}
    (spells : Spells cs parts) (free : pairFree cs = true) : joinParts parts = cs := by
  induction spells with
  | nil => rfl
  | @cons c cs front parts spelled spells ih =>
      have later : joinParts parts = cs := by
        apply ih
        cases cs with
        | nil => rfl
        | cons d ds =>
            rw [pairFree, Bool.and_eq_true] at free
            exact free.2
      cases spelled with
      | plain => rw [List.cons_append, List.nil_append, joinParts, later]
      | unit =>
          rw [List.cons_append, List.nil_append, joinParts_unit, CodePoint.ofNat_toNat, later]
          rintro low more rfl
          rw [Bool.eq_false_iff, ne_eq, Bool.and_eq_true]
          rintro ⟨high, isLow⟩
          obtain ⟨d, ds, rfl, low'⟩ := low_of_spells spells isLow
          rw [pairFree, high, low'] at free
          cases free
      | pair beyond => rw [List.cons_append, List.cons_append, List.nil_append, joinParts_pair beyond,
          later]

private theorem readString_stringChars (opening : Nat) {s : Text} (free : pairFree s.toList = true)
    (rest : List CodePoint) :
    readString opening [] (s.toList.flatMap stringChar ++ .char '\x22' :: rest) = .ok (s, rest) := by
  obtain ⟨parts, spells, reads⟩ := readString_written s.toList
  rw [reads, List.reverse_nil, List.nil_append, joinParts_of_spells spells free, Text.ofList_toList]

/-! ## Layouts -/

def Layout.Blank : Layout → Prop
  | .oneLine => True
  | .lines indent => ∀ c ∈ indent.toList, isBlank c = true

section Layouts

variable {layout : Layout} (blank : layout.Blank) (level : Nat)
include blank

private theorem Layout.Blank.edge : ∀ c ∈ layout.edge level, isBlank c = true := by
  intro c member
  cases layout with
  | oneLine => cases member
  | lines indent =>
      rcases List.mem_cons.mp member with rfl | inner
      · decide
      · obtain ⟨piece, repeated, within⟩ := List.mem_flatten.mp inner
        obtain ⟨_, rfl⟩ := List.mem_replicate.mp repeated
        exact blank c within

private theorem Layout.Blank.separator :
    ∃ gap, layout.separator level = .char ',' :: gap ∧ ∀ c ∈ gap, isBlank c = true := by
  cases layout with
  | oneLine => exact ⟨[' '], rfl, List.forall_mem_singleton.mpr rfl⟩
  | lines indent =>
      refine ⟨_, rfl, ?_⟩
      intro c member
      exact blank.edge level c member

end Layouts

private theorem skipBlanks_cons {c : CodePoint} (solid : isBlank c = false) (cs : List CodePoint) :
    skipBlanks (c :: cs) = c :: cs := by
  rw [skipBlanks, List.dropWhile_cons, solid]
  rfl

private theorem skipBlanks_append {gap : List CodePoint} (blank : ∀ c ∈ gap, isBlank c = true)
    {c : CodePoint}
    (solid : isBlank c = false) (cs : List CodePoint) : skipBlanks (gap ++ c :: cs) = c :: cs := by
  rw [skipBlanks, List.dropWhile_append_of_pos blank]
  exact skipBlanks_cons solid cs

private theorem endsNumber_cons {c : CodePoint}
    (ends : isDigit c = false ∧ c ≠ '.' ∧ c ≠ 'e' ∧ c ≠ 'E')
    (cs : List CodePoint) : EndsNumber (c :: cs) := by
  intro d ds same
  cases same
  exact ends

private theorem endsNumber_edge (layout : Layout) (level : Nat) {rest : List CodePoint}
    (ends : EndsNumber rest) : EndsNumber (layout.edge level ++ rest) := by
  cases layout with
  | oneLine => exact ends
  | lines indent => exact endsNumber_cons (by decide) _

/-! ## Values -/

/-- A value without binary numbers and surrogate pairs in which every object has distinct keys. Such a
value is what its text says, and nothing else has that text. -/
inductive Exact : Json → Prop where
  | null : Exact .null
  | bool {value : Bool} : Exact (.bool value)
  | int {value : Int} : Exact (.int value)
  | str {value : Text} : pairFree value.toList = true → Exact (.str value)
  | arr {items : List Json} : (∀ item ∈ items, Exact item) → Exact (.arr items)
  | obj {members : List (Text × Json)} :
      (members.map Prod.fst).Nodup → (∀ member ∈ members, pairFree member.1.toList = true) →
      (∀ member ∈ members, Exact member.2) → Exact (.obj members)

theorem Exact.ofString (s : String) : Exact (.str s) := .str (pairFree_chars s.toList)

/-- A character that neither a blank, nor the end of an array, nor a byte order mark is. -/
def StartsValue (c : CodePoint) : Prop := isBlank c = false ∧ c ≠ ']' ∧ c ≠ '\uFEFF'

private theorem startsValue_of_isDigit {c : CodePoint} (digit : isDigit c = true) :
    StartsValue c := by
  have notBlank : isBlank c = false := by
    simp only [isBlank, Bool.or_eq_false_iff, decide_eq_false_iff_not]
    refine ⟨⟨⟨?_, ?_⟩, ?_⟩, ?_⟩ <;> (rintro rfl; cases digit)
  refine ⟨notBlank, ?_, ?_⟩ <;> (rintro rfl; cases digit)

private theorem chars_head {value : Json} (exact : value.Exact) (layout : Layout) (level : Nat) :
    ∃ c cs, chars layout level value = c :: cs ∧ StartsValue c := by
  cases exact with
  | null => exact ⟨'n', _, by rw [chars], by unfold StartsValue; decide⟩
  | @bool value =>
      cases value with
      | true => exact ⟨'t', _, by rw [chars], by unfold StartsValue; decide⟩
      | false => exact ⟨'f', _, by rw [chars], by unfold StartsValue; decide⟩
  | @int value =>
      cases value with
      | ofNat n =>
          obtain ⟨c, cs, shape, _⟩ := decimal_head n
          refine ⟨c, cs, by simp only [chars, decimalInt, shape], startsValue_of_isDigit ?_⟩
          exact isDigit_of_mem_decimal n (by simp [shape])
      | negSucc n =>
          exact ⟨'-', decimal (n + 1), by simp only [chars, decimalInt], by
            unfold StartsValue; decide⟩
  | str _ =>
      exact ⟨'\x22', _, by simp only [chars, stringChars]; rfl, by unfold StartsValue; decide⟩
  | @arr items _ => cases items <;> exact ⟨'[', _, by rw [chars], by unfold StartsValue; decide⟩
  | @obj members _ _ _ =>
      cases members <;> exact ⟨'\x7b', _, by rw [chars], by unfold StartsValue; decide⟩

/-- The reader takes the text of a value, and exactly that, given as many steps as the text has
characters. -/
def Reads (layout : Layout) (value : Json) : Prop :=
  ∀ (level steps : Nat) (rest : List CodePoint), EndsNumber rest →
    (chars layout level value).length ≤ steps →
    readValue steps (chars layout level value ++ rest) = .ok (value, rest)

section Collections

variable {layout : Layout}

private theorem skipBlanks_gap_chars {value : Json} (exact : value.Exact) (level : Nat)
    {gap : List CodePoint} (gapBlank : ∀ c ∈ gap, isBlank c = true) (rest : List CodePoint) :
    skipBlanks (gap ++ (chars layout level value ++ rest)) = chars layout level value ++ rest := by
  obtain ⟨c, cs, shape, starts⟩ := chars_head exact layout level
  rw [shape, List.cons_append]
  exact skipBlanks_append gapBlank starts.1 _

private theorem skipBlanks_space_chars {value : Json} (exact : value.Exact) (level : Nat)
    (rest : List CodePoint) :
    skipBlanks (.char ' ' :: (chars layout level value ++ rest)) = chars layout level value ++ rest :=
  skipBlanks_gap_chars exact level (List.forall_mem_singleton.mpr rfl) rest

private theorem skipBlanks_gap_stringChars (key : Text) {gap : List CodePoint}
    (gapBlank : ∀ c ∈ gap, isBlank c = true) (rest : List CodePoint) :
    skipBlanks (gap ++ (stringChars key ++ rest)) = stringChars key ++ rest :=
  skipBlanks_append gapBlank (by decide) _

private theorem prepend_of_not_mem {key : Text} {members : List (Text × Json)}
    (fresh : key ∉ members.map Prod.fst) (value : Json) :
    prepend key value members = (key, value) :: members := by
  have absent : lookup? key members = none := by
    induction members with
    | nil => rfl
    | cons member members ih =>
        simp only [List.map_cons, List.mem_cons, not_or] at fresh
        rw [lookup?, if_neg (Ne.symm fresh.1), ih fresh.2]
  rw [prepend, absent]

section Members

variable {value : Json} (exact : value.Exact) (reads : Reads layout value) {key : Text}
  (free : pairFree key.toList = true) (level steps : Nat) {rest later : List CodePoint}
  (ends : EndsNumber rest) (enough : (chars layout level value).length ≤ steps)

include exact reads free ends enough

private theorem readMembers_last (closes : skipBlanks rest = .char '\x7d' :: later) :
    readMembers (steps + 1)
        (stringChars key ++ (.char ':' :: .char ' ' :: (chars layout level value ++ rest))) =
      .ok ([(key, value)], later) := by
  have colon := fun cs => skipBlanks_cons (by decide : isBlank ':' = false) cs
  have gap := @skipBlanks_space_chars layout value exact level rest
  simp only [stringChars, List.cons_append, List.append_assoc, List.nil_append, readMembers,
    readString_stringChars _ free, colon, gap, reads level steps rest ends enough, closes]

private theorem readMembers_next {members : List (Text × Json)} {last : List CodePoint}
    (continues : skipBlanks rest = .char ',' :: later)
    (following : readMembers steps (skipBlanks later) = .ok (members, last)) :
    readMembers (steps + 1)
        (stringChars key ++ (.char ':' :: .char ' ' :: (chars layout level value ++ rest))) =
      .ok (prepend key value members, last) := by
  have colon := fun cs => skipBlanks_cons (by decide : isBlank ':' = false) cs
  have gap := @skipBlanks_space_chars layout value exact level rest
  simp only [stringChars, List.cons_append, List.append_assoc, List.nil_append, readMembers,
    readString_stringChars _ free, colon, gap, reads level steps rest ends enough, continues, following]

end Members

variable (blank : layout.Blank)
include blank

private theorem endsNumber_itemsTail (level outer : Nat) (items : List Json) {rest : List CodePoint}
    (ends : EndsNumber rest) :
    EndsNumber (itemsTail layout level items ++ (layout.edge outer ++ rest)) := by
  cases items with
  | nil => exact endsNumber_edge layout outer ends
  | cons item items =>
      obtain ⟨gap, separator, _⟩ := blank.separator level
      rw [itemsTail, separator]
      exact endsNumber_cons (by decide) _

private theorem readItems_written {item : Json} {items : List Json}
    (all : ∀ value ∈ item :: items, value.Exact ∧ Reads layout value) (level outer steps : Nat)
    (rest : List CodePoint)
    (enough : (chars layout level item).length + (itemsTail layout level items).length < steps) :
    readItems steps (chars layout level item ++ (itemsTail layout level items ++
      (layout.edge outer ++ .char ']' :: rest))) = .ok (item :: items, rest) := by
  have closing : EndsNumber (.char ']' :: rest) := endsNumber_cons (by decide) rest
  obtain ⟨steps, rfl⟩ : ∃ fewer, steps = fewer + 1 := ⟨steps - 1, by omega⟩
  induction items generalizing item steps with
  | nil =>
      have first := (all item List.mem_cons_self).2 level steps _
        (endsNumber_edge layout outer closing) (by omega)
      have last := skipBlanks_append (blank.edge outer) (by decide : isBlank ']' = false) rest
      simp only [readItems, itemsTail, List.nil_append, first, last]
  | cons next items ih =>
      have first := (all item List.mem_cons_self).2 level steps _
        (endsNumber_itemsTail blank level outer (next :: items) closing) (by omega)
      obtain ⟨c, cs, shape, _⟩ := chars_head (all item List.mem_cons_self).1 layout level
      have positive : 0 < (chars layout level item).length := by simp [shape]
      simp only [itemsTail, List.length_append] at enough
      obtain ⟨fewer, rfl⟩ : ∃ fewer, steps = fewer + 1 := ⟨steps - 1, by omega⟩
      have later := ih (fun value member => all value (List.mem_cons_of_mem _ member)) fewer
        (by omega)
      obtain ⟨gap, separator, gapBlank⟩ := blank.separator level
      have comma := fun cs => skipBlanks_cons (by decide : isBlank ',' = false) cs
      rw [readItems, first]
      simp only [itemsTail, separator, List.append_assoc, List.cons_append, comma,
        skipBlanks_gap_chars (all next (by simp)).1 level gapBlank, later]

private theorem endsNumber_membersTail (level outer : Nat) (members : List (Text × Json))
    {rest : List CodePoint} (ends : EndsNumber rest) :
    EndsNumber (membersTail layout level members ++ (layout.edge outer ++ rest)) := by
  cases members with
  | nil => exact endsNumber_edge layout outer ends
  | cons member members =>
      obtain ⟨gap, separator, _⟩ := blank.separator level
      rw [membersTail, separator]
      exact endsNumber_cons (by decide) _

private theorem readMembers_written {key : Text} {value : Json} {members : List (Text × Json)}
    (distinct : (key :: members.map Prod.fst).Nodup)
    (free : ∀ member ∈ (key, value) :: members, pairFree member.1.toList = true)
    (all : ∀ member ∈ (key, value) :: members, member.2.Exact ∧ Reads layout member.2)
    (level outer steps : Nat) (rest : List CodePoint)
    (enough : (chars layout level value).length + (membersTail layout level members).length <
      steps) :
    readMembers steps (stringChars key ++ (.char ':' :: .char ' ' :: (chars layout level value ++
      (membersTail layout level members ++ (layout.edge outer ++ .char '\x7d' :: rest))))) =
      .ok ((key, value) :: members, rest) := by
  have closing : EndsNumber (.char '\x7d' :: rest) := endsNumber_cons (by decide) rest
  obtain ⟨steps, rfl⟩ : ∃ fewer, steps = fewer + 1 := ⟨steps - 1, by omega⟩
  induction members generalizing key value steps with
  | nil =>
      obtain ⟨exact, reads⟩ : value.Exact ∧ Reads layout value := all (key, value) List.mem_cons_self
      have last := skipBlanks_append (blank.edge outer) (by decide : isBlank '\x7d' = false) rest
      exact readMembers_last exact reads (free _ List.mem_cons_self) level steps
        (endsNumber_edge layout outer closing) (by omega) last
  | cons next members ih =>
      obtain ⟨nextKey, nextValue⟩ := next
      obtain ⟨exact, reads⟩ : value.Exact ∧ Reads layout value := all (key, value) List.mem_cons_self
      obtain ⟨fresh, nextDistinct⟩ := List.nodup_cons.mp distinct
      have tailEnds := endsNumber_membersTail blank level outer ((nextKey, nextValue) :: members)
        closing
      have valueEnough : (chars layout level value).length ≤ steps := by omega
      simp only [membersTail, stringChars, List.length_append, List.length_cons] at enough
      obtain ⟨fewer, rfl⟩ : ∃ fewer, steps = fewer + 1 := ⟨steps - 1, by omega⟩
      have following := ih nextDistinct
        (fun member within => free member (List.mem_cons_of_mem _ within))
        (fun member within => all member (List.mem_cons_of_mem _ within)) fewer (by omega)
      obtain ⟨gap, separator, gapBlank⟩ := blank.separator level
      rw [← prepend_of_not_mem fresh]
      simp only [membersTail, separator, List.append_assoc, List.cons_append] at tailEnds ⊢
      refine readMembers_next exact reads (free _ List.mem_cons_self) level (fewer + 1) tailEnds
        valueEnough (skipBlanks_cons (by decide) _) ?_
      rw [skipBlanks_gap_stringChars nextKey gapBlank]
      exact following

end Collections

section Documents

variable (steps : Nat)

private theorem readValue_scalar {c : CodePoint} {cs : List CodePoint}
    (scalar : c ≠ '\x22' ∧ c ≠ '[' ∧ c ≠ '\x7b') :
    readValue (steps + 1) (c :: cs) = readScalar (c :: cs) := by
  obtain ⟨quote, bracket, brace⟩ := scalar
  rw [readValue]
  all_goals
    intro rest same
    cases same
    contradiction

private theorem readValue_array {cs : List CodePoint}
    (nonempty : ∀ rest, skipBlanks cs ≠ .char ']' :: rest) :
    readValue (steps + 1) (.char '[' :: cs) =
      match readItems steps (skipBlanks cs) with
      | .error failure => .error failure
      | .ok (items, rest) => .ok (.arr items, rest) := by
  rw [readValue]
  split
  · next rest empty => exact absurd empty (nonempty rest)
  · rfl

private theorem readValue_object {cs : List CodePoint}
    (nonempty : ∀ rest, skipBlanks cs ≠ .char '\x7d' :: rest) :
    readValue (steps + 1) (.char '\x7b' :: cs) =
      match readMembers steps (skipBlanks cs) with
      | .error failure => .error failure
      | .ok (members, rest) => .ok (.obj members, rest) := by
  rw [readValue]
  split
  · next rest empty => exact absurd empty (nonempty rest)
  · rfl

end Documents

/-- A value that is neither a string nor a collection has the same text at every level. -/
private theorem reads_scalar {layout : Layout} {value : Json} {text : List CodePoint}
    (written : ∀ level, chars layout level value = text)
    (starts : ∃ c cs, text = c :: cs ∧ c ≠ '\x22' ∧ c ≠ '[' ∧ c ≠ '\x7b')
    (scalar : ∀ rest, EndsNumber rest → readScalar (text ++ rest) = .ok (value, rest)) :
    Reads layout value := by
  intro level steps rest ends enough
  obtain ⟨c, cs, rfl, first⟩ := starts
  rw [written, List.length_cons] at enough
  obtain ⟨steps, rfl⟩ : ∃ fewer, steps = fewer + 1 := ⟨steps - 1, by omega⟩
  rw [written, ← scalar rest ends]
  exact readValue_scalar steps first

private theorem reads_int (layout : Layout) (n : Int) : Reads layout (.int n) := by
  refine reads_scalar (fun level => by rw [chars]) ?_ fun rest ends => readScalar_decimalInt n ends
  cases n with
  | ofNat n =>
      obtain ⟨c, cs, shape, _⟩ := decimal_head n
      have digit : isDigit c = true := isDigit_of_mem_decimal n (by simp [shape])
      refine ⟨c, cs, shape, ?_, ?_, ?_⟩ <;> (rintro rfl; cases digit)
  | negSucc n => exact ⟨'-', _, rfl, by decide⟩

private theorem reads_str (layout : Layout) {s : Text} (free : pairFree s.toList = true) :
    Reads layout (.str s) := by
  intro level steps rest _ enough
  simp only [chars, stringChars, List.length_cons] at enough
  obtain ⟨steps, rfl⟩ : ∃ fewer, steps = fewer + 1 := ⟨steps - 1, by omega⟩
  simp only [chars, stringChars, List.cons_append, List.append_assoc, List.nil_append, readValue,
    readString_stringChars _ free]

private theorem reads_arr {layout : Layout} (blank : layout.Blank) {items : List Json}
    (all : ∀ item ∈ items, item.Exact ∧ Reads layout item) : Reads layout (.arr items) := by
  intro level steps rest _ enough
  cases items with
  | nil =>
      rw [chars] at enough ⊢
      obtain ⟨steps, rfl⟩ : ∃ fewer, steps = fewer + 1 := ⟨steps - 1, by simp at enough; omega⟩
      rfl
  | cons item items =>
      simp only [chars, List.length_cons, List.length_append] at enough
      obtain ⟨steps, rfl⟩ : ∃ fewer, steps = fewer + 1 := ⟨steps - 1, by omega⟩
      have itemExact := (all item List.mem_cons_self).1
      have inner := readItems_written blank all (level + 1) level steps rest (by omega)
      have gap : ∀ rest, skipBlanks (layout.edge (level + 1) ++
          (chars layout (level + 1) item ++ rest)) = chars layout (level + 1) item ++ rest :=
        skipBlanks_gap_chars itemExact (level + 1) (blank.edge (level + 1))
      simp only [chars, List.cons_append, List.append_assoc, List.nil_append]
      rw [readValue_array, gap, inner]
      intro following empty
      obtain ⟨c, cs, shape, starts⟩ := chars_head itemExact layout (level + 1)
      rw [gap, shape, List.cons_append, List.cons.injEq] at empty
      exact starts.2.1 empty.1

private theorem reads_obj {layout : Layout} (blank : layout.Blank) {members : List (Text × Json)}
    (distinct : (members.map Prod.fst).Nodup)
    (free : ∀ member ∈ members, pairFree member.1.toList = true)
    (all : ∀ member ∈ members, member.2.Exact ∧ Reads layout member.2) :
    Reads layout (.obj members) := by
  intro level steps rest _ enough
  cases members with
  | nil =>
      rw [chars] at enough ⊢
      obtain ⟨steps, rfl⟩ : ∃ fewer, steps = fewer + 1 := ⟨steps - 1, by simp at enough; omega⟩
      rfl
  | cons member members =>
      obtain ⟨key, value⟩ := member
      simp only [chars, List.length_cons, List.length_append] at enough
      obtain ⟨steps, rfl⟩ : ∃ fewer, steps = fewer + 1 := ⟨steps - 1, by omega⟩
      have inner := readMembers_written blank distinct free all (level + 1) level steps rest (by omega)
      have gap := skipBlanks_gap_stringChars key (blank.edge (level + 1))
      simp only [chars, List.cons_append, List.append_assoc, List.nil_append]
      rw [readValue_object, gap, inner]
      intro following empty
      rw [gap] at empty
      cases empty

theorem reads_of_exact {layout : Layout} (blank : layout.Blank) {value : Json}
    (exact : value.Exact) : Reads layout value := by
  induction exact with
  | null => exact reads_scalar (fun level => by rw [chars]) ⟨'n', _, rfl, by decide⟩ fun _ _ => rfl
  | @bool value =>
      cases value with
      | true =>
          exact reads_scalar (fun level => by rw [chars]) ⟨'t', _, rfl, by decide⟩ fun _ _ => rfl
      | false =>
          exact reads_scalar (fun level => by rw [chars]) ⟨'f', _, rfl, by decide⟩ fun _ _ => rfl
  | int => exact reads_int layout _
  | str free => exact reads_str layout free
  | arr each ih => exact reads_arr blank fun item member => ⟨each item member, ih item member⟩
  | obj distinct free each ih =>
      exact reads_obj blank distinct free fun member within => ⟨each member within, ih member within⟩

theorem readDocument_chars {layout : Layout} (blank : layout.Blank) {value : Json}
    (exact : value.Exact) : readDocument (chars layout 0 value) = .ok value := by
  obtain ⟨c, cs, shape, starts⟩ := chars_head exact layout 0
  have reading := reads_of_exact blank exact 0 (stepBound (chars layout 0 value)) [] nofun (by
    unfold stepBound
    omega)
  have skip : skipBlanks (chars layout 0 value) = chars layout 0 value := by
    rw [shape]
    exact skipBlanks_cons starts.1 cs
  rw [List.append_nil] at reading
  unfold readDocument
  split
  · next marked =>
      rw [shape] at marked
      cases marked
      exact absurd rfl starts.2.2
  · rw [skip, reading]
    rfl

theorem read_print {layout : Layout} (blank : layout.Blank) {value : Json} (exact : value.Exact) :
    read (value.print layout) = .ok value := by
  rw [read, print, Text.toList_ofList, readDocument_chars blank exact]

end Json

end TemplateJsx
