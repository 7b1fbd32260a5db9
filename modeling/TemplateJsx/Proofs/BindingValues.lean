import TemplateJsx.Proofs.AttributeProperties

/-!
# Values of bindings

A binding is emitted exactly when its value is a quotation with something in it. The name of what is
bound follows the longest of the marks that the attribute begins with, and each point in that name
gives way to the placeholder.
-/

set_option autoImplicit false

namespace TemplateJsx

open Text

/-! ## The longest mark -/

structure LongestMark (marks : List Text) (name mark rest : Text) : Prop where
  member : mark ∈ marks
  whole : name = mark ++ rest
  longest : ∀ other ∈ marks, startsWith other name = true → other.length ≤ mark.length

private theorem shorter?_length_le {rest other : Option (List CodePoint)} {cs : List CodePoint}
    (given : rest = some cs ∨ other = some cs) :
    ∃ result, shorter? rest other = some result ∧ result.length ≤ cs.length := by
  cases rest with
  | none =>
      obtain rfl := given.resolve_left nofun
      exact ⟨cs, rfl, Nat.le_refl _⟩
  | some rest =>
      cases other with
      | none =>
          cases given.resolve_right nofun
          exact ⟨cs, rfl, Nat.le_refl _⟩
      | some other =>
          rw [Option.some.injEq, Option.some.injEq] at given
          simp only [shorter?]
          split
          · next less =>
            refine ⟨other, rfl, ?_⟩
            rcases given with rfl | rfl <;> omega
          · next less =>
            refine ⟨rest, rfl, ?_⟩
            rcases given with rfl | rfl <;> omega

private theorem afterLongest?_of_mem {marks : List Text} {mark : Text} (member : mark ∈ marks)
    {cs rest : List CodePoint} (whole : cs = mark.toList ++ rest) :
    ∃ shortest, afterLongest? marks cs = some shortest ∧ shortest.length ≤ rest.length := by
  induction marks with
  | nil => cases member
  | cons first marks ih =>
      rw [afterLongest?]
      rcases List.mem_cons.mp member with rfl | later
      · exact shorter?_length_le (.inl (after?_eq_some_iff.mpr whole))
      · obtain ⟨shortest, found, less⟩ := ih later
        obtain ⟨result, chosen, less'⟩ := shorter?_length_le (.inr found)
        exact ⟨result, chosen, Nat.le_trans less' less⟩

private theorem LongestMark.of_afterLongest? {marks : List Text} {name : Text}
    {rest : List CodePoint} (found : afterLongest? marks name.toList = some rest) :
    ∃ mark, LongestMark marks name mark (Text.ofList rest) := by
  obtain ⟨mark, member, whole⟩ := afterLongest?_eq_some found
  refine ⟨mark, member, by simpa [← Text.toList_inj] using whole, ?_⟩
  intro other among begins
  -- A mark and what follows it have the length of the name, so the longest one leaves least.
  obtain ⟨following, whole'⟩ := startsWith_iff.mp begins
  obtain ⟨shortest, found', less⟩ := afterLongest?_of_mem among whole'
  cases found.symm.trans found'
  have lengths := congrArg List.length (whole.symm.trans whole')
  simp only [List.length_append, Text.length_toList] at lengths
  omega

/-! ## Points -/

/-- A text with the placeholder for each of its points. The parts between them stay as they are. -/
def replacePoints (placeholder text : Text) : Text :=
  Text.ofList (placeholder.toList.intercalate (text.toList.splitOn '.'))

private theorem intercalate_splitOn_cons (placeholder : List CodePoint) (c : CodePoint)
    (cs : List CodePoint) : placeholder.intercalate ((c :: cs).splitOn '.') =
      (if c = '.' then placeholder else [c]) ++ placeholder.intercalate (cs.splitOn '.') := by
  rw [List.splitOn_eq_splitOnP, List.splitOnP_cons_eq_if_modifyHead, ← List.splitOn_eq_splitOnP]
  obtain ⟨part, parts, shape⟩ := List.exists_cons_of_ne_nil (List.splitOn_ne_nil (.char '.') cs)
  by_cases point : c = '.'
  · simp [point, shape]
  · cases parts <;> simp [point, shape]

private theorem boundName_eq_replacePoints (spelling : Spelling) (cs : List CodePoint) :
    boundName spelling cs = replacePoints spelling.modifierPlaceholder (Text.ofList cs) := by
  rw [boundName, replacePoints, Text.toList_ofList]
  congr 1
  induction cs with
  | nil => rfl
  | cons c cs ih => rw [List.flatMap_cons, ih, intercalate_splitOn_cons]

/-! ## Bindings -/

section Bindings

variable {spelling : Spelling} {name raw : Text}

private theorem emitBinding_of_isQuotation {expression : Text} (nonempty : expression ≠ "")
    (quoted : IsQuotation raw expression) (bound : List CodePoint) (place : Json) :
    emitBinding spelling name raw bound place =
      .ok (braced (boundName spelling bound) expression) := by
  have full := isFullQuotation_iff.mp ⟨expression, nonempty, quoted⟩
  rw [emitBinding, if_neg full, unquote_of_isQuotation quoted]

private theorem emitBinding_of_not_isFullQuotation (bare : ¬ IsFullQuotation raw)
    (bound : List CodePoint) (place : Json) :
    emitBinding spelling name raw bound place =
      .error (.complain (.invalidBinding (.str name) (.str raw)) place) := by
  rw [isFullQuotation_iff, Classical.not_not] at bare
  rw [emitBinding, if_pos bare]

private theorem emit_eq_emitBinding (ordinary : name ≠ spelling.modelDirective)
    {bound : List CodePoint}
    (found : afterLongest? spelling.bindMarks name.toList = some bound) (raw : Text)
    (origin : Origin) (owner : Option Json) :
    Attr.emit spelling ⟨.str name, .str raw, origin⟩ owner =
      (emitBinding spelling name raw bound
        (Attr.blamed ⟨.str name, .str raw, origin⟩ owner)).map Json.str := by
  rw [Attr.emit_eq .raw]
  simp only [Attr.text, emitWritten, ordinary, if_false, found]

end Bindings

/-- A binding is emitted exactly when its value is quoted and not empty, under the name that follows
its longest mark. -/
theorem binding_emitted_iff_quoted {spelling : Spelling} {name : Text}
    (ordinary : name ≠ spelling.modelDirective)
    (marked : ∃ mark ∈ spelling.bindMarks, startsWith mark name = true) (raw : Text)
    (origin : Origin) (owner : Option Json) :
    ∃ mark rest, LongestMark spelling.bindMarks name mark rest ∧
      (∀ expression : Text, expression ≠ "" → IsQuotation raw expression →
        Attr.emit spelling ⟨.str name, .str raw, origin⟩ owner =
          .ok (.str (replacePoints spelling.modifierPlaceholder rest ++ "=\x7b" ++ expression ++
            "\x7d"))) ∧
      (Attr.emit spelling ⟨.str name, .str raw, origin⟩ owner =
          .error (.complain (.invalidBinding (.str name) (.str raw))
            (Attr.blamed ⟨.str name, .str raw, origin⟩ owner)) ↔
        ¬ ∃ expression : Text, expression ≠ "" ∧ IsQuotation raw expression) := by
  obtain ⟨lead, member, begins⟩ := marked
  obtain ⟨following, whole⟩ := startsWith_iff.mp begins
  obtain ⟨rest, found, _⟩ := afterLongest?_of_mem member whole
  obtain ⟨mark, longest⟩ := LongestMark.of_afterLongest? found
  have emitted := emit_eq_emitBinding ordinary found raw origin owner
  have accepted : ∀ expression : Text, expression ≠ "" → IsQuotation raw expression →
      Attr.emit spelling ⟨.str name, .str raw, origin⟩ owner =
        .ok (.str (replacePoints spelling.modifierPlaceholder (Text.ofList rest) ++ "=\x7b" ++
          expression ++ "\x7d")) := by
    intro expression nonempty quoted
    rw [emitted, emitBinding_of_isQuotation nonempty quoted, boundName_eq_replacePoints]
    rfl
  refine ⟨mark, Text.ofList rest, longest, accepted, ?_, ?_⟩
  · intro refused full
    obtain ⟨expression, nonempty, quoted⟩ := full
    cases refused.symm.trans (accepted expression nonempty quoted)
  · intro bare
    rw [emitted, emitBinding_of_not_isFullQuotation bare]
    rfl

/-- A spelling in which the long form begins with the short mark, and the placeholder has points. -/
def pointedSpelling : Spelling := { bindMark := "v-", modifierPlaceholder := ".x." }

/-- The short mark does not hide the long form, and the points of the placeholder stay. -/
theorem binding_emitted_behind_long_form :
    (∃ mark ∈ pointedSpelling.bindMarks, startsWith mark "v-bind:a.b" = true) ∧
      Attr.emit pointedSpelling ⟨.str "v-bind:a.b", .str "'\"'\n", {}⟩ none =
        .ok (.str "a.x.b=\x7b\"\x7d") := by
  have ordinary : "v-bind:a.b" ≠ pointedSpelling.modelDirective := by decide
  have marked : ∃ mark ∈ pointedSpelling.bindMarks, startsWith mark "v-bind:a.b" = true :=
    ⟨"v-", by decide, by decide⟩
  refine ⟨marked, ?_⟩
  obtain ⟨mark, rest, longest, accepted, _⟩ :=
    binding_emitted_iff_quoted ordinary marked "'\"'\n" {} none
  have long : mark = "v-bind:" := by
    rcases List.mem_cons.mp longest.member with rfl | member
    · exact absurd (longest.longest "v-bind:" (by decide) (by decide)) (by decide)
    · exact List.mem_singleton.mp member
  subst long
  have named : rest = "a.b" := by
    have whole := longest.whole
    simpa [← Text.toList_inj] using whole.symm
  subst named
  exact accepted "\"" (by decide) ⟨"'", .inr rfl, .inr rfl⟩

end TemplateJsx
