import TemplateJsx.Proofs.EmissionProperties

/-!
# Names of elements

The name of an element has no hyphen, and it is its own element name. On ASCII names it differs from
the tag name without its hyphens in case alone, and only where a segment between hyphens begins: there
it has the capital letter.
-/

set_option autoImplicit false

namespace TemplateJsx

/-! ## Case in ASCII -/

namespace CodePoint

/-- The upper and lower case of the letters of ASCII. All other code points are left alone. -/
def asciiUpper : CodePoint → CodePoint
  | .char c => .char c.toUpper
  | c => c

def asciiLower : CodePoint → CodePoint
  | .char c => .char c.toLower
  | c => c

end CodePoint

namespace Text

def IsAscii (s : Text) : Prop := ∀ c ∈ s.toList, c.toNat < 0x80

instance (s : Text) : Decidable (IsAscii s) :=
  List.decidableBAll (fun c : CodePoint => c.toNat < 0x80) s.toList

def asciiLower (s : Text) : Text := ofList (s.toList.map CodePoint.asciiLower)

private theorem of_ascii {p : CodePoint → Prop} (each : ∀ n < 0x80, p (.char (Char.ofNat n)))
    {c : CodePoint} (ascii : c.toNat < 0x80) : p c := by
  rw [← CodePoint.ofNat_toNat c, CodePoint.ofNat, dif_neg (by omega)]
  exact each _ ascii

private theorem upper_of_ascii {c : CodePoint} (ascii : c.toNat < 0x80) :
    upper c = [c.asciiUpper] :=
  of_ascii (p := fun c => upper c = [c.asciiUpper]) (by decide +kernel) ascii

private theorem asciiUpper_lt {c : CodePoint} (ascii : c.toNat < 0x80) :
    c.asciiUpper.toNat < 0x80 :=
  of_ascii (p := fun c => c.asciiUpper.toNat < 0x80) (by decide +kernel) ascii

private theorem asciiLower_asciiUpper {c : CodePoint} (ascii : c.toNat < 0x80) :
    c.asciiUpper.asciiLower = c.asciiLower :=
  of_ascii (p := fun c => c.asciiUpper.asciiLower = c.asciiLower) (by decide +kernel) ascii

/-! ## Upper case and hyphens -/

private theorem caseRuns_image : ∀ run ∈ caseRuns, 0x41 ≤ run.image := by
  decide +kernel

private theorem caseExpansions_image :
    ∀ entry ∈ caseExpansions, ∀ point ∈ entry.2, 0x41 ≤ point := by
  decide +kernel

private theorem ofNat_ne_hyphen {point : Nat} (beyond : 0x41 ≤ point) : Char.ofNat point ≠ '-' := by
  intro same
  have points := congrArg Char.toNat same
  by_cases valid : point.isValidChar
  · rw [Char.ofNat, dif_pos valid] at points
    have hyphen : point = 0x2D := points
    omega
  · -- A number that is no code point stands for NUL, which is no hyphen either.
    rw [Char.ofNat, dif_neg valid] at points
    exact absurd points (by decide)

private theorem hyphen_not_mem_upper {c : CodePoint} (other : c ≠ '-') : .char '-' ∉ upper c := by
  obtain ⟨run, member, _, raised⟩ | ⟨points, member, raised⟩ | ⟨_, same⟩ := upper_cases c
  · have image := caseRuns_image run member
    rw [raised, List.mem_singleton]
    exact fun same => ofNat_ne_hyphen (by omega) (CodePoint.char.inj same).symm
  · rw [raised, List.mem_map]
    intro ⟨point, listed, made⟩
    exact ofNat_ne_hyphen (caseExpansions_image _ member point listed) (CodePoint.char.inj made)
  · rw [same, List.mem_singleton]
    exact other.symm

end Text

open Text

/-! ## Segments -/

def unhyphenated (name : Text) : Text := Text.ofList (name.toList.filter (· != .char '-'))

/-- A segment of the name between hyphens begins with `c`, which stands at `place` once the hyphens
are removed. -/
def SegmentBegins (name : Text) (place : Nat) (c : CodePoint) : Prop :=
  ∃ before rest after, name.toList.splitOn (.char '-') = before ++ (c :: rest) :: after ∧
    place = before.flatten.length

section FirstMembers

variable {α : Type} (change : α → α)

private theorem length_flatMap_modifyHead (segments : List (List α)) :
    (segments.flatMap (List.modifyHead change)).length = segments.flatten.length := by
  induction segments with
  | nil => rfl
  | cons segment segments ih => simp [ih]

/-- Where only first members are changed, a difference is at a first member. -/
private theorem first_of_getElem?_ne {segments : List (List α)} {place : Nat}
    (differs : (segments.flatMap (List.modifyHead change))[place]? ≠ segments.flatten[place]?) :
    ∃ before first rest after, segments = before ++ (first :: rest) :: after ∧
      place = before.flatten.length := by
  induction segments generalizing place with
  | nil => exact absurd rfl differs
  | cons segment segments ih =>
      rw [List.flatMap_cons, List.flatten_cons] at differs
      -- The segment keeps its length, so a place behind it is the same place behind both.
      by_cases inside : place < segment.length
      · rw [List.getElem?_append_left (by simpa using inside),
          List.getElem?_append_left inside] at differs
        cases segment with
        | nil => exact absurd rfl differs
        | cons first rest =>
            cases place with
            | zero => exact ⟨[], first, rest, segments, rfl, rfl⟩
            | succ place => exact absurd rfl differs
      · have behind : segment.length ≤ place := Nat.le_of_not_lt inside
        rw [List.getElem?_append_right (by simpa using behind),
          List.getElem?_append_right behind, List.length_modifyHead] at differs
        obtain ⟨before, first, rest, after, rfl, later⟩ := ih differs
        refine ⟨segment :: before, first, rest, after, rfl, ?_⟩
        rw [List.flatten_cons, List.length_append, ← later]
        omega

private theorem getElem?_first (before after : List (List α)) (first : α) (rest : List α) :
    ((before ++ (first :: rest) :: after).flatMap (List.modifyHead change))[before.flatten.length]? =
      some (change first) := by
  rw [List.flatMap_append, ← length_flatMap_modifyHead change before]
  simp

end FirstMembers

/-! ## Element names -/

private theorem toList_elementName {name : Text} (hyphenated : .char '-' ∈ name.toList) :
    (elementName name).toList = (name.toList.splitOn (.char '-')).flatMap capitalize := by
  simp [elementName, hyphenated, joinHyphenated, pieces_eq_splitOn]

private theorem unhyphenated_of_not_mem {name : Text} (plain : .char '-' ∉ name.toList) :
    unhyphenated name = name := by
  rw [unhyphenated, List.filter_eq_self.mpr (bne_of_not_mem plain), Text.ofList_toList]

private theorem toList_unhyphenated (name : Text) :
    (unhyphenated name).toList = (name.toList.splitOn (.char '-')).flatten := by
  rw [unhyphenated, Text.toList_ofList, ← pieces_eq_splitOn, flatten_pieces]

private theorem mem_of_mem_segment {name : Text} {segment : List CodePoint} {c : CodePoint}
    (listed : segment ∈ name.toList.splitOn (.char '-')) (inside : c ∈ segment) :
    c ∈ name.toList ∧ c ≠ '-' := by
  have kept := List.mem_flatten_of_mem listed inside
  rwa [← toList_unhyphenated, unhyphenated, Text.toList_ofList, List.mem_filter,
    bne_iff_ne] at kept

private theorem hyphen_not_mem_capitalize {segment : List CodePoint} (whole : .char '-' ∉ segment) :
    .char '-' ∉ capitalize segment := by
  cases segment with
  | nil => exact whole
  | cons c cs =>
      rw [List.mem_cons, not_or] at whole
      rw [capitalize, List.mem_append, not_or]
      exact ⟨hyphen_not_mem_upper (Ne.symm whole.1), whole.2⟩

private theorem hyphen_not_mem_elementName (name : Text) :
    .char '-' ∉ (elementName name).toList := by
  by_cases hyphenated : .char '-' ∈ name.toList
  · rw [toList_elementName hyphenated, List.mem_flatMap]
    intro ⟨segment, listed, member⟩
    have whole : .char '-' ∉ segment := fun inside => (mem_of_mem_segment listed inside).2 rfl
    exact hyphen_not_mem_capitalize whole member
  · rwa [elementName_of_not_mem hyphenated]

-- The upper case of a letter can be two characters, the first of them no letter at all.
example : elementName "-é-ß-ŉx" = "ÉSSʼNx" := by
  decide +kernel

section Ascii

variable {name : Text} (ascii : IsAscii name)

include ascii

private theorem capitalize_of_ascii {segment : List CodePoint}
    (listed : segment ∈ name.toList.splitOn (.char '-')) :
    capitalize segment = segment.modifyHead CodePoint.asciiUpper := by
  cases segment with
  | nil => rfl
  | cons c cs =>
      have member := (mem_of_mem_segment listed List.mem_cons_self).1
      rw [capitalize, upper_of_ascii (ascii c member)]
      rfl

private theorem toList_elementName_of_ascii (hyphenated : .char '-' ∈ name.toList) :
    (elementName name).toList =
      (name.toList.splitOn (.char '-')).flatMap (List.modifyHead CodePoint.asciiUpper) := by
  rw [toList_elementName hyphenated, List.flatMap_def, List.flatMap_def]
  congr 1
  exact List.map_congr_left fun _ listed => capitalize_of_ascii ascii listed

private theorem elementName_ascii : IsAscii (elementName name) := by
  by_cases hyphenated : .char '-' ∈ name.toList
  · intro d member
    rw [toList_elementName_of_ascii ascii hyphenated] at member
    obtain ⟨segment, listed, inside⟩ := List.mem_flatMap.mp member
    have segmentAscii : ∀ c ∈ segment, c.toNat < 0x80 :=
      fun c inside => ascii c (mem_of_mem_segment listed inside).1
    cases segment with
    | nil => cases inside
    | cons c cs =>
        obtain rfl | later := List.mem_cons.mp inside
        · exact asciiUpper_lt (segmentAscii c List.mem_cons_self)
        · exact segmentAscii d (List.mem_cons_of_mem c later)
  · rwa [elementName_of_not_mem hyphenated]

theorem asciiLower_elementName :
    (elementName name).asciiLower = (unhyphenated name).asciiLower := by
  by_cases hyphenated : .char '-' ∈ name.toList
  · rw [Text.asciiLower, Text.asciiLower, Text.ofList_inj, toList_unhyphenated,
      toList_elementName_of_ascii ascii hyphenated, List.map_flatMap, List.map_flatten,
      List.flatMap_def]
    congr 1
    refine List.map_congr_left fun segment listed => ?_
    cases segment with
    | nil => rfl
    | cons c cs =>
        have member := (mem_of_mem_segment listed List.mem_cons_self).1
        rw [List.modifyHead_cons, List.map_cons, List.map_cons, asciiLower_asciiUpper (ascii c member)]
  · rw [elementName_of_not_mem hyphenated, unhyphenated_of_not_mem hyphenated]

private theorem segmentBegins_of_ne {place : Nat}
    (differs : (elementName name).toList[place]? ≠ (unhyphenated name).toList[place]?) :
    ∃ c, SegmentBegins name place c := by
  by_cases hyphenated : .char '-' ∈ name.toList
  · rw [toList_elementName_of_ascii ascii hyphenated, toList_unhyphenated] at differs
    obtain ⟨before, c, rest, after, parts, stands⟩ := first_of_getElem?_ne CodePoint.asciiUpper differs
    exact ⟨c, before, rest, after, parts, stands⟩
  · rw [elementName_of_not_mem hyphenated, unhyphenated_of_not_mem hyphenated] at differs
    exact absurd rfl differs

end Ascii

private theorem SegmentBegins.getElem?_unhyphenated {name : Text} {place : Nat} {c : CodePoint}
    (begins : SegmentBegins name place c) : (unhyphenated name).toList[place]? = some c := by
  obtain ⟨before, rest, after, parts, rfl⟩ := begins
  rw [toList_unhyphenated, parts]
  simp

private theorem SegmentBegins.getElem?_elementName {name : Text} {place : Nat} {c : CodePoint}
    (begins : SegmentBegins name place c) (ascii : IsAscii name)
    (hyphenated : .char '-' ∈ name.toList) :
    (elementName name).toList[place]? = some c.asciiUpper := by
  obtain ⟨before, rest, after, parts, rfl⟩ := begins
  rw [toList_elementName_of_ascii ascii hyphenated, parts]
  exact getElem?_first CodePoint.asciiUpper before after c rest

/-- An element name has no hyphen, and is its own element name. Of an ASCII name only the hyphens are
lost: its letters stay, and only the first one of each segment changes its case. -/
theorem elementName_joins_segments (name : Text) :
    .char '-' ∉ (elementName name).toList ∧
      elementName (elementName name) = elementName name ∧
      (.char '-' ∉ name.toList → elementName name = name ∧ unhyphenated name = name) ∧
      (IsAscii name →
        IsAscii (elementName name) ∧
        (elementName name).asciiLower = (unhyphenated name).asciiLower ∧
        (∀ place, (elementName name).toList[place]? ≠ (unhyphenated name).toList[place]? →
          ∃ c, SegmentBegins name place c) ∧
        (.char '-' ∈ name.toList → ∀ place c, SegmentBegins name place c →
          (unhyphenated name).toList[place]? = some c ∧
            (elementName name).toList[place]? = some c.asciiUpper)) := by
  have joined := hyphen_not_mem_elementName name
  refine ⟨joined, elementName_of_not_mem joined, ?_, ?_⟩
  · intro plain
    exact ⟨elementName_of_not_mem plain, unhyphenated_of_not_mem plain⟩
  · intro ascii
    refine ⟨elementName_ascii ascii, asciiLower_elementName ascii, ?_, ?_⟩
    · intro place differs
      exact segmentBegins_of_ne ascii differs
    · intro hyphenated place c begins
      exact ⟨begins.getElem?_unhyphenated, begins.getElem?_elementName ascii hyphenated⟩

theorem elementName_joins_empty_segments :
    IsAscii "-ab--cD-1-" ∧
      (elementName "-ab--cD-1-").asciiLower = "abcd1" ∧
      (∃ c, SegmentBegins "-ab--cD-1-" 0 c) ∧
      (elementName "-ab--cD-1-").toList[2]? = some (.char 'C') ∧
      elementName "aB" = "aB" := by
  have ascii : IsAscii "-ab--cD-1-" := by decide
  obtain ⟨_, _, _, inAscii⟩ := elementName_joins_segments "-ab--cD-1-"
  obtain ⟨_, lower, onlyFirst, capitals⟩ := inAscii ascii
  have begins : SegmentBegins "-ab--cD-1-" 2 'c' :=
    ⟨[[], ['a', 'b'], []], ['D'], [['1'], []], by decide, rfl⟩
  have small : (unhyphenated "-ab--cD-1-").asciiLower = "abcd1" := by decide
  refine ⟨ascii, lower.trans small, onlyFirst 0 (by decide), ?_, ?_⟩
  · exact (capitals (by decide) 2 'c' begins).2
  · exact ((elementName_joins_segments "aB").2.2.1 (by decide)).1

end TemplateJsx
