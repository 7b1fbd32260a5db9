import TemplateJsx.Diagnostic.Basic
import TemplateJsx.Terminal.Strip

/-!
# Reports without colours

Colours add nothing to a report but escape sequences, and removing these gives back what the report is
without colours. The texts of a report may hold escape sequences themselves, whole ones and ones that
are cut short. Behind each text comes a line end, the escape character of a style that ends, or
nothing, and none of these goes on with a sequence that was cut short.
-/

set_option autoImplicit false

namespace TemplateJsx.Terminal

/-! ## Where sequences end -/

def isPart (c : CodePoint) : Bool := isParameter c || isIntermediate c || isFinal c

private theorem isFinal_of_isSingle {c : CodePoint} (single : isSingle c = true) :
    isFinal c = true := by
  simp only [isSingle, isFinal, isBetween, Bool.or_eq_true, Bool.and_eq_true,
    decide_eq_true_eq] at single ⊢
  have bounds : '@'.toNat = 64 ∧ 'Z'.toNat = 90 ∧ '\\'.toNat = 92 ∧ '_'.toNat = 95 ∧
    '~'.toNat = 126 := by decide
  omega

/-- A text that does not go on with any sequence in front of it. -/
def Halts (rest : List CodePoint) : Prop := ∀ c ∈ rest.head?, isPart c = false

section Halts

variable {rest : List CodePoint}

private theorem takeWhile_append_of_halt {p : CodePoint → Bool}
    (stops : ∀ c ∈ rest.head?, p c = false)
    (cs : List CodePoint) : (cs ++ rest).takeWhile p = cs.takeWhile p := by
  induction cs with
  | nil =>
      cases rest with
      | nil => rfl
      | cons c rest => simp [stops c rfl]
  | cons c cs ih => simp only [List.cons_append, List.takeWhile_cons, ih]

private theorem dropWhile_append_of_halt {p : CodePoint → Bool}
    (stops : ∀ c ∈ rest.head?, p c = false)
    (cs : List CodePoint) : (cs ++ rest).dropWhile p = cs.dropWhile p ++ rest := by
  induction cs with
  | nil =>
      cases rest with
      | nil => rfl
      | cons c rest => simp [stops c rfl]
  | cons c cs ih =>
      simp only [List.cons_append, List.dropWhile_cons, ih]
      split <;> rfl

private theorem Halts.sequenceLength?_eq_none (halts : Halts rest) :
    sequenceLength? rest = none := by
  cases rest with
  | nil => rfl
  | cons c rest =>
      have other : isPart c = false := halts c rfl
      simp only [isPart, Bool.or_eq_false_iff] at other
      have notBracket : c ≠ '[' := by
        rintro rfl
        exact absurd other.2 (by decide)
      have notSingle : isSingle c = false :=
        Bool.eq_false_iff.mpr fun single =>
          Bool.false_ne_true (other.2.symm.trans (isFinal_of_isSingle single))
      rw [sequenceLength?, if_neg notBracket, notSingle, if_neg Bool.false_ne_true]

private theorem Halts.sequenceLength?_append (halts : Halts rest) (cs : List CodePoint) :
    sequenceLength? (cs ++ rest) = sequenceLength? cs := by
  have classes : ∀ c ∈ rest.head?,
      (isParameter c = false ∧ isIntermediate c = false) ∧ isFinal c = false := by
    intro c first
    have other := halts c first
    simpa only [isPart, Bool.or_eq_false_iff] using other
  cases cs with
  | nil => exact halts.sequenceLength?_eq_none
  | cons c cs =>
      simp only [List.cons_append, sequenceLength?,
        takeWhile_append_of_halt fun c first => (classes c first).1.1,
        dropWhile_append_of_halt fun c first => (classes c first).1.1,
        takeWhile_append_of_halt fun c first => (classes c first).1.2,
        dropWhile_append_of_halt fun c first => (classes c first).1.2]
      cases (cs.dropWhile isParameter).dropWhile isIntermediate with
      | cons final behind => rfl
      | nil =>
          cases rest with
          | nil => rfl
          | cons first rest => simp [(classes first rfl).2]

end Halts

private theorem sequenceLength?_le {cs : List CodePoint} {length : Nat}
    (whole : sequenceLength? cs = some length) : length ≤ cs.length := by
  cases cs with
  | nil => cases whole
  | cons c cs =>
      rw [sequenceLength?] at whole
      split at whole
      · have parameters := congrArg List.length
          (List.takeWhile_append_dropWhile (p := isParameter) (l := cs))
        have intermediates := congrArg List.length
          (List.takeWhile_append_dropWhile (p := isIntermediate) (l := cs.dropWhile isParameter))
        simp only [List.length_append] at parameters intermediates
        dsimp only at whole
        split at whole
        · cases whole
        · next final behind ending =>
            rw [ending] at intermediates
            split at whole
            · cases whole
              simp only [List.length_cons] at intermediates ⊢
              omega
            · cases whole
      · split at whole
        · cases whole
          simp
        · cases whole

/-- What is removed up to a halting text does not depend on that text, and the other way round. -/
private theorem stripFrom_append {rest : List CodePoint} (halts : Halts rest) {pending : Nat}
    {cs : List CodePoint} (within : pending ≤ cs.length) :
    stripFrom pending (cs ++ rest) = stripFrom pending cs ++ stripFrom 0 rest := by
  induction cs generalizing pending with
  | nil =>
      obtain rfl : pending = 0 := Nat.le_zero.mp within
      rfl
  | cons c cs ih =>
      cases pending with
      | succ pending => exact ih (Nat.le_of_succ_le_succ within)
      | zero =>
          have later := ih (Nat.zero_le cs.length)
          simp only [List.cons_append, stripFrom, halts.sequenceLength?_append]
          split
          · cases whole : sequenceLength? cs with
            | none => simp only [later, List.cons_append]
            | some length => exact ih (sequenceLength?_le whole)
          · simp only [later, List.cons_append]

/-! ## Texts without sequences, and sequences without texts -/

private theorem stripFrom_append_of_not_mem {cs : List CodePoint} (unescaped : escape ∉ cs)
    (rest : List CodePoint) : stripFrom 0 (cs ++ rest) = cs ++ stripFrom 0 rest := by
  induction cs with
  | nil => rfl
  | cons c cs ih =>
      have other : c ≠ escape := fun same => unescaped (same ▸ List.mem_cons_self)
      have later := ih fun member => unescaped (List.mem_cons_of_mem c member)
      simp only [List.cons_append, stripFrom, if_neg other, later]

private theorem stripFrom_sequence_append (style : Style) (rest : List CodePoint) :
    stripFrom 0 (style.sequence.toList ++ rest) = stripFrom 0 rest := by
  cases style <;> rfl

section Strings

variable {text rest : Text}

private theorem strip_append_of_halts (halts : Halts rest.toList) (text : Text) :
    strip (text ++ rest) = strip text ++ strip rest := by
  simp only [strip, Text.toList_append, stripFrom_append halts (Nat.zero_le _), Text.ofList_append]

private theorem strip_append_of_not_mem (unescaped : escape ∉ text.toList) (rest : Text) :
    strip (text ++ rest) = text ++ strip rest := by
  simp only [strip, Text.toList_append, stripFrom_append_of_not_mem unescaped, Text.ofList_append,
    Text.ofList_toList]

private theorem strip_of_not_mem (unescaped : escape ∉ text.toList) : strip text = text := by
  have whole := strip_append_of_not_mem unescaped ""
  rwa [Text.append_empty, show strip "" = "" from rfl, Text.append_empty] at whole

private theorem strip_sequence_append (style : Style) (rest : Text) :
    strip (style.sequence ++ rest) = strip rest := by
  simp only [strip, Text.toList_append, stripFrom_sequence_append]

private theorem strip_sequences_append (styles : List Style) (rest : Text) :
    strip (Text.join (styles.map Style.sequence) ++ rest) = strip rest := by
  induction styles with
  | nil => simp
  | cons style styles ih =>
      rw [List.map_cons, Text.join_cons, Text.append_assoc, strip_sequence_append, ih]

/-- The end of a style halts what is styled, so nothing of the text or of what follows is lost. -/
private theorem strip_emphasize_append (emphasis : Emphasis) (text rest : Text) :
    strip (emphasize true emphasis text ++ rest) = strip text ++ strip rest := by
  have styled : emphasize true emphasis text =
      Text.join (emphasis.styles.map Style.sequence) ++ text ++ Style.reset.sequence := by
    cases emphasis <;> rfl
  have halts : Halts (Style.reset.sequence ++ rest).toList := by
    rw [Text.toList_append]
    intro c first
    cases first
    decide
  rw [styled, Text.append_assoc, Text.append_assoc, strip_sequences_append,
    strip_append_of_halts halts, strip_sequence_append]

private theorem strip_emphasize (emphasis : Emphasis) (text : Text) :
    strip (emphasize true emphasis text) = strip (emphasize false emphasis text) := by
  have styled := strip_emphasize_append emphasis text ""
  rwa [Text.append_empty, show strip "" = "" from rfl, Text.append_empty] at styled

private theorem strip_emphasize_append_of_not_mem (unescaped : escape ∉ text.toList)
    (emphasis : Emphasis) (rest : Text) :
    strip (emphasize true emphasis text ++ rest) = strip (emphasize false emphasis text ++ rest) := by
  have plain : emphasize false emphasis text = text := rfl
  rw [strip_emphasize_append, strip_of_not_mem unescaped, plain, strip_append_of_not_mem unescaped]

private theorem strip_append_congr {lead colourful plain : Text} (unescaped : escape ∉ lead.toList)
    (same : strip colourful = strip plain) : strip (lead ++ colourful) = strip (lead ++ plain) := by
  rw [strip_append_of_not_mem unescaped, strip_append_of_not_mem unescaped, same]

/-- A line end halts the line in front of it, so sequences are removed line by line. -/
private theorem strip_intercalate (lines : List Text) :
    strip (Text.intercalate "\n" lines) = Text.intercalate "\n" (lines.map strip) := by
  induction lines with
  | nil => rfl
  | cons line lines ih =>
      cases lines with
      | nil => simp only [List.map_cons, List.map_nil, Text.intercalate_singleton]
      | cons next lines =>
          have halts : Halts ("\n" ++ Text.intercalate "\n" (next :: lines)).toList := by
            rw [Text.toList_append]
            intro c first
            cases first
            decide
          have lineEnd : escape ∉ (Text.ofString "\n").toList := by decide
          rw [Text.intercalate_cons_cons, Text.append_assoc, strip_append_of_halts halts,
            strip_append_of_not_mem lineEnd, ih, ← Text.append_assoc]
          exact Text.intercalate_cons_cons.symm

end Strings

end TemplateJsx.Terminal

namespace TemplateJsx

open Terminal

/-! ## Reports -/

private theorem Code.unescaped_text (code : Code) : escape ∉ (Text.ofString code.text).toList := by
  cases code <;> decide

private theorem Code.unescaped_docs (code : Code) : escape ∉ (Text.ofString code.docs).toList := by
  cases code <;> decide +kernel

namespace Report

structure Unescaped (report : Report) : Prop where
  message : escape ∉ report.message.toList
  place : escape ∉ report.place.display.toList
  hint : ∀ hint ∈ report.hint, escape ∉ hint.toList

variable (report : Report)

private theorem strip_headline : strip (report.headline true) = strip (report.headline false) := by
  unfold headline
  cases report.code with
  | none => rfl
  | some code =>
      simp only [Text.append_assoc]
      exact strip_emphasize_append_of_not_mem code.unescaped_text .code _

private theorem map_strip_details :
    (report.details true).map strip = (report.details false).map strip := by
  have places : strip ("  " ++ emphasize true .faint "-->" ++ " " ++
        emphasize true .place report.place.display) =
      strip ("  " ++ emphasize false .faint "-->" ++ " " ++
        emphasize false .place report.place.display) := by
    simp only [Text.append_assoc]
    refine strip_append_congr (by decide) ?_
    rw [strip_emphasize_append_of_not_mem (by decide)]
    refine strip_append_congr (by decide) (strip_append_congr (by decide) ?_)
    exact strip_emphasize .place _
  have hints : ∀ hint : Text, strip ("  " ++ emphasize true .hint "Hint:" ++ " " ++ hint) =
      strip ("  " ++ emphasize false .hint "Hint:" ++ " " ++ hint) := by
    intro hint
    simp only [Text.append_assoc]
    refine strip_append_congr (by decide) ?_
    exact strip_emphasize_append_of_not_mem (by decide) .hint _
  have docs : ∀ code : Code, strip ("  Docs: " ++ emphasize true .link code.docs) =
      strip ("  Docs: " ++ emphasize false .link code.docs) :=
    fun code => strip_append_congr (by decide) (strip_emphasize .link code.docs)
  unfold details
  simp only [List.map_append]
  congr 1
  · congr 1
    · split
      · exact congrArg (fun line => [line]) places
      · rfl
    · cases report.hint with
      | none => rfl
      | some hint =>
          dsimp only
          split
          · rfl
          · exact congrArg (fun line => [line]) (hints hint)
  · cases report.code with
    | none => rfl
    | some code => exact congrArg (fun line => [line]) (docs code)

variable {report}

private theorem not_mem_append {first second : Text} (unescaped : escape ∉ first.toList)
    (unescaped' : escape ∉ second.toList) : escape ∉ (first ++ second).toList := by
  rw [Text.toList_append, List.mem_append]
  exact not_or.mpr ⟨unescaped, unescaped'⟩

private theorem Unescaped.headline (unescaped : report.Unescaped) :
    escape ∉ (report.headline false).toList := by
  unfold Report.headline
  cases report.code with
  | none => exact unescaped.message
  | some code =>
      exact not_mem_append (not_mem_append code.unescaped_text (by decide)) unescaped.message

private theorem Unescaped.details (unescaped : report.Unescaped) :
    ∀ line ∈ report.details false, escape ∉ line.toList := by
  unfold Report.details
  simp only [List.forall_mem_append]
  refine ⟨⟨?_, ?_⟩, ?_⟩
  · split
    · exact List.forall_mem_singleton.mpr (not_mem_append (by decide) unescaped.place)
    · exact List.forall_mem_nil _
  · cases held : report.hint with
    | none => exact List.forall_mem_nil _
    | some hint =>
        dsimp only
        split
        · exact List.forall_mem_nil _
        · exact List.forall_mem_singleton.mpr (not_mem_append (by decide) (unescaped.hint hint held))
  · cases report.code with
    | none => exact List.forall_mem_nil _
    | some code =>
        exact List.forall_mem_singleton.mpr (not_mem_append (by decide) code.unescaped_docs)

theorem Unescaped.strip_text (unescaped : report.Unescaped) :
    strip (report.text false) = report.text false := by
  have lines : (report.headline false :: report.details false).map strip =
      report.headline false :: report.details false := by
    refine List.map_congr_left ?_ |>.trans (List.map_id _)
    exact List.forall_mem_cons.mpr ⟨strip_of_not_mem unescaped.headline,
      fun line member => strip_of_not_mem (unescaped.details line member)⟩
  rw [Report.text, strip_intercalate, lines]

end Report

/-- Colours are removed from a report without a trace, whatever escape sequences its own texts hold,
and a report whose texts hold none is then what it is without colours. -/
theorem report_colours_decorative (report : Report) :
    strip (report.text true) = strip (report.text false) ∧
      (report.Unescaped → strip (report.text true) = report.text false) := by
  have same : strip (report.text true) = strip (report.text false) := by
    rw [Report.text, Report.text, strip_intercalate, strip_intercalate, List.map_cons, List.map_cons,
      report.strip_headline, report.map_strip_details]
  refine ⟨same, ?_⟩
  intro unescaped
  rw [same, unescaped.strip_text]

-- The wording is cut short in a sequence, and the place ends with the escape character.
example :
    strip (Report.text true { message := "\x1b[3", place := .str "\x1b[1mp\x1b", hint := some "m" }) =
      "\x1b[3\n  --> p\x1b\n  Hint: m" := by
  decide +kernel

end TemplateJsx
