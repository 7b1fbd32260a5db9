import TemplateJsx.Emission.TagName
import TemplateJsx.Proofs.TextProperties

/-!
# Brackets in texts

Words of brackets that are properly nested, and texts whose brackets form such a word. Characters
that are no brackets do not count. Whether a word is nested can be told by one pass with a stack of
the brackets that are still to be closed.
-/

set_option autoImplicit false

namespace TemplateJsx.Text

def closing? : CodePoint → Option CodePoint
  | '(' => some ')'
  | '[' => some ']'
  | '\x7b' => some '\x7d'
  | _ => none

def isBracket (c : CodePoint) : Bool :=
  c ∈ (['(', ')', '[', ']', '\x7b', '\x7d'] : List CodePoint)

inductive Nested : List CodePoint → Prop where
  | nil : Nested []
  | pair {opening closing : CodePoint} {inner rest : List CodePoint} : closing? opening = some closing →
      Nested inner → Nested rest → Nested (opening :: (inner ++ closing :: rest))

def brackets (s : Text) : List CodePoint := s.toList.filter isBracket

/-- A text whose brackets are properly nested. -/
def Balanced (s : Text) : Prop := Nested (brackets s)

/-! ## Nested words -/

theorem Nested.append {first second : List CodePoint} (nested : Nested first)
    (nested' : Nested second) : Nested (first ++ second) := by
  induction nested with
  | nil => exact nested'
  | pair closes inner _ _ restIH =>
      rw [List.cons_append, List.append_assoc, List.cons_append]
      exact .pair closes inner restIH

private theorem Nested.wrap {opening closing : CodePoint} {inner : List CodePoint}
    (closes : closing? opening = some closing) (nested : Nested inner) :
    Nested (opening :: (inner ++ [closing])) :=
  .pair closes nested .nil

def parens (word : List CodePoint) : List CodePoint := .char '(' :: (word ++ [.char ')'])

def squares (word : List CodePoint) : List CodePoint := .char '[' :: (word ++ [.char ']'])

def braces (word : List CodePoint) : List CodePoint := .char '\x7b' :: (word ++ [.char '\x7d'])

theorem Nested.parens {word : List CodePoint} (nested : Nested word) : Nested (parens word) :=
  .wrap rfl nested

theorem Nested.squares {word : List CodePoint} (nested : Nested word) : Nested (squares word) :=
  .wrap rfl nested

theorem Nested.braces {word : List CodePoint} (nested : Nested word) : Nested (braces word) :=
  .wrap rfl nested

/-! ## A decision by a stack -/

/-- Whether a word of brackets closes what it opens and then, one by one, the awaited brackets. -/
def closes : List CodePoint → List CodePoint → Bool
  | awaited, [] => awaited.isEmpty
  | awaited, c :: cs =>
      match closing? c with
      | some closing => closes (closing :: awaited) cs
      | none =>
          match awaited with
          | [] => false
          | expected :: awaited => c == expected && closes awaited cs

private theorem closing?_closing {opening closing : CodePoint}
    (closed : closing? opening = some closing) : closing? closing = none := by
  unfold closing? at closed
  split at closed <;> cases closed <;> rfl

private theorem Nested.closes_append {word : List CodePoint} (nested : Nested word)
    (awaited rest : List CodePoint) : closes awaited (word ++ rest) = closes awaited rest := by
  induction nested generalizing awaited rest with
  | nil => rfl
  | @pair opening closing inner later closed _ _ innerIH laterIH =>
      simp only [List.cons_append, List.append_assoc, closes, closed, innerIH,
        closing?_closing closed, BEq.rfl, Bool.true_and, laterIH]

inductive Closing : List CodePoint → List CodePoint → Prop where
  | done {word : List CodePoint} : Nested word → Closing [] word
  | next {expected : CodePoint} {awaited inner rest : List CodePoint} :
      Nested inner → Closing awaited rest →
      Closing (expected :: awaited) (inner ++ expected :: rest)

private theorem Closing.of_closes {awaited word : List CodePoint}
    (closed : closes awaited word = true) : Closing awaited word := by
  induction word generalizing awaited with
  | nil =>
      obtain rfl := List.isEmpty_iff.mp closed
      exact .done .nil
  | cons c cs ih =>
      unfold closes at closed
      cases opened : closing? c with
      | some closing =>
          rw [opened] at closed
          -- What the bracket encloses ends before the next awaited bracket.
          cases ih closed with
          | next inner later =>
              cases later with
              | done rest => exact .done (.pair opened inner rest)
              | @next expected awaited between rest nested later =>
                  have whole := @Closing.next expected _ _ _ (.pair opened inner nested) later
                  rwa [List.cons_append, List.append_assoc, List.cons_append] at whole
      | none =>
          rw [opened] at closed
          cases awaited with
          | nil => cases closed
          | cons expected awaited =>
              simp only [Bool.and_eq_true, beq_iff_eq] at closed
              obtain ⟨rfl, closed⟩ := closed
              exact .next .nil (ih closed)

theorem nested_iff_closes {word : List CodePoint} : Nested word ↔ closes [] word = true := by
  constructor
  · intro nested
    have whole := nested.closes_append [] []
    rwa [List.append_nil] at whole
  · intro closed
    cases Closing.of_closes closed with
    | done nested => exact nested

instance (word : List CodePoint) : Decidable (Nested word) := decidable_of_iff _ nested_iff_closes.symm

instance (s : Text) : Decidable (Balanced s) := inferInstanceAs (Decidable (Nested (brackets s)))

example : Balanced "[a](b \x7bc\x7d)" ∧ ¬ Balanced "([)]" := by decide

/-! ## Brackets of composed texts -/

@[simp] theorem brackets_append (s t : Text) : brackets (s ++ t) = brackets s ++ brackets t := by
  simp only [brackets, Text.toList_append, List.filter_append]

@[simp] theorem brackets_ofList (cs : List CodePoint) :
    brackets (Text.ofList cs) = cs.filter isBracket := rfl

theorem Balanced.append {s t : Text} (balanced : Balanced s) (balanced' : Balanced t) :
    Balanced (s ++ t) := by
  rw [Balanced, brackets_append]
  exact Nested.append balanced balanced'

theorem Balanced.of_append {mark rest : Text} (balanced : Balanced (mark ++ rest))
    (clear : brackets mark = []) : Balanced rest := by
  rwa [Balanced, brackets_append, clear, List.nil_append] at balanced

theorem balanced_intercalate {separator : Text} (clear : Balanced separator) {texts : List Text}
    (each : ∀ text ∈ texts, Balanced text) : Balanced (separator.intercalate texts) := by
  induction texts with
  | nil => exact Nested.nil
  | cons first texts ih =>
      have later := ih fun text member => each text (List.mem_cons_of_mem _ member)
      have here := each first List.mem_cons_self
      cases texts with
      | nil => simpa using here
      | cons next texts =>
          rw [Text.intercalate_cons_cons]
          exact (here.append clear).append later

/-! ## Upper case -/

def bracketPoints : List Nat := [0x28, 0x29, 0x5B, 0x5D, 0x7B, 0x7D]

private theorem isBracket_eq_false {c : CodePoint} (other : c.toNat ∉ bracketPoints) :
    isBracket c = false := by
  rw [isBracket, decide_eq_false_iff_not]
  intro member
  refine other ?_
  have points : bracketPoints =
      (['(', ')', '[', ']', '\x7b', '\x7d'] : List CodePoint).map CodePoint.toNat := by decide
  rw [points]
  exact List.mem_map_of_mem member

private theorem isBracket_ofNat {point : Nat} (other : point ∉ bracketPoints) :
    isBracket (Char.ofNat point) = false := by
  refine isBracket_eq_false ?_
  by_cases valid : point.isValidChar
  · rw [Char.ofNat, dif_pos valid]
    exact other
  · rw [Char.ofNat, dif_neg valid]
    decide

def freeOfBrackets (first last : Nat) : Bool :=
  bracketPoints.all fun point => point < first || last < point

private theorem caseRuns_free : caseRuns.all (fun run => freeOfBrackets run.first run.last &&
    freeOfBrackets run.image (run.image + (run.last - run.first))) = true := by
  decide +kernel

private theorem caseExpansions_free : caseExpansions.all (fun (point, points) =>
    !bracketPoints.contains point &&
      points.all fun point => !bracketPoints.contains point) = true := by
  decide +kernel

private theorem not_mem_of_free {first last point : Nat} (free : freeOfBrackets first last = true)
    (lower : first ≤ point) (upper : point ≤ last) : point ∉ bracketPoints := by
  intro member
  have outside := List.all_eq_true.mp free point member
  simp only [Bool.or_eq_true, decide_eq_true_eq] at outside
  omega

private theorem filter_upper (c : CodePoint) :
    (upper c).filter isBracket = [c].filter isBracket := by
  obtain ⟨run, member, covers, raised⟩ | ⟨points, member, raised⟩ | ⟨_, same⟩ := upper_cases c
  · have free := List.all_eq_true.mp caseRuns_free run member
    rw [Bool.and_eq_true] at free
    obtain ⟨above, below, _⟩ := CaseRun.covers_iff.mp covers
    have lower := not_mem_of_free free.1 above below
    have image : run.image + (c.toNat - run.first) ∉ bracketPoints :=
      not_mem_of_free free.2 (by omega) (by omega)
    simp [raised, isBracket_eq_false lower, isBracket_ofNat image]
  · have free := List.all_eq_true.mp caseExpansions_free (c.toNat, points) member
    simp only [Bool.and_eq_true, Bool.not_eq_true', List.contains_eq_mem,
      decide_eq_false_iff_not, List.all_eq_true] at free
    have none : (points.map fun point => CodePoint.char (Char.ofNat point)).filter isBracket = [] := by
      rw [List.filter_eq_nil_iff]
      intro d among
      obtain ⟨point, listed, rfl⟩ := List.mem_map.mp among
      simp [isBracket_ofNat (free.2 point listed)]
    simp [raised, none, isBracket_eq_false free.1]
  · rw [same]

private theorem filter_capitalize (cs : List CodePoint) :
    (capitalize cs).filter isBracket = cs.filter isBracket := by
  cases cs with
  | nil => rfl
  | cons c cs => rw [capitalize, List.filter_append, filter_upper, ← List.filter_append]; rfl

private theorem filter_pieces (cs : List CodePoint) :
    (pieces (.char '-') cs).flatMap (List.filter isBracket) = cs.filter isBracket := by
  rw [List.flatMap_def, ← List.filter_flatten, flatten_pieces, List.filter_filter]
  refine List.filter_congr ?_
  intro c _
  by_cases hyphen : c = '-'
  · subst hyphen
    decide
  · simp [hyphen]

theorem brackets_elementName (name : Text) : brackets (elementName name) = brackets name := by
  unfold elementName
  split
  · rw [brackets_ofList, joinHyphenated, List.filter_flatMap]
    simp only [filter_capitalize]
    exact filter_pieces name.toList
  · rfl

end TemplateJsx.Text
