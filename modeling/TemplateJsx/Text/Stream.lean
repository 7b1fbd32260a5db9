import TemplateJsx.Text.Hex

/-!
# Texts on streams

A stream takes characters only. A strict one refuses a text that holds a surrogate, and nothing of it
is written. A lenient one takes every text and writes surrogates as escapes.
-/

set_option autoImplicit false

namespace TemplateJsx

namespace CodePoint

def char? : CodePoint → Option Char
  | .char c => some c
  | .surrogate _ => none

def escaped : CodePoint → List Char
  | .char c => [c]
  | c => Text.numericEscape 'u' 4 c.toNat

end CodePoint

namespace Text

def strict? (t : Text) : Option String := (t.toList.mapM CodePoint.char?).map String.ofList

def lenient (t : Text) : String := String.ofList (t.toList.flatMap CodePoint.escaped)

def HoldsSurrogate (t : Text) : Prop := ∃ index, .surrogate index ∈ t.toList

private theorem mapM_char?_map (cs : List Char) :
    (cs.map CodePoint.char).mapM CodePoint.char? = some cs := by
  induction cs with
  | nil => rfl
  | cons c cs ih => simp [ih, CodePoint.char?]

private theorem mapM_char?_of_surrogate {cs : List CodePoint} {index : Fin 0x800}
    (member : .surrogate index ∈ cs) : cs.mapM CodePoint.char? = none := by
  induction cs with
  | nil => cases member
  | cons c cs ih =>
      rcases List.mem_cons.mp member with rfl | later
      · simp [CodePoint.char?]
      · simp [ih later]

theorem holdsSurrogate_or (t : Text) : t.HoldsSurrogate ∨ ∃ s : String, t = s := by
  obtain ⟨cs⟩ := t
  induction cs with
  | nil => exact .inr ⟨"", rfl⟩
  | cons c cs ih =>
      cases c with
      | surrogate index => exact .inl ⟨index, List.mem_cons_self⟩
      | char c =>
          rcases ih with ⟨index, member⟩ | ⟨s, same⟩
          · exact .inl ⟨index, List.mem_cons_of_mem _ member⟩
          · refine .inr ⟨String.ofList (c :: s.toList), ?_⟩
            have shape : cs = s.toList.map CodePoint.char := ofList_inj.mp same
            rw [shape, ofString, String.toList_ofList, List.map_cons]

@[simp] theorem strict?_ofString (s : String) : (ofString s).strict? = some s := by
  rw [strict?, toList_ofString, mapM_char?_map, Option.map_some, String.ofList_toList]

theorem HoldsSurrogate.strict?_eq_none {t : Text} (holds : t.HoldsSurrogate) :
    t.strict? = none := by
  obtain ⟨index, member⟩ := holds
  rw [strict?, mapM_char?_of_surrogate member, Option.map_none]

theorem not_holdsSurrogate_ofString (s : String) : ¬ (ofString s).HoldsSurrogate := by
  intro holds
  have refused := holds.strict?_eq_none
  rw [strict?_ofString] at refused
  cases refused

theorem strict?_eq_none_iff {t : Text} : t.strict? = none ↔ t.HoldsSurrogate := by
  refine ⟨fun refused => ?_, HoldsSurrogate.strict?_eq_none⟩
  rcases t.holdsSurrogate_or with holds | ⟨s, rfl⟩
  · exact holds
  · rw [strict?_ofString] at refused
    cases refused

instance (t : Text) : Decidable t.HoldsSurrogate := decidable_of_iff _ strict?_eq_none_iff

theorem HoldsSurrogate.append {t : Text} (holds : t.HoldsSurrogate) (u : Text) :
    (t ++ u).HoldsSurrogate := by
  obtain ⟨index, member⟩ := holds
  refine ⟨index, ?_⟩
  rw [toList_append]
  exact List.mem_append_left _ member

end Text

end TemplateJsx
