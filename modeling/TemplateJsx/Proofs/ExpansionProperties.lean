import TemplateJsx.Proofs.EmissionProperties

/-!
# Properties of expansion

What the expansion of a tag comes to, read off the tag as it was written. The expansion itself looks
at each directive on a copy of the tag from which earlier directives are gone; where the condition,
the loop and the slot have names of their own, the copies show the same attributes as the tag.
-/

set_option autoImplicit false

namespace TemplateJsx

open Text

/-- The condition and the loop have different names, and neither begins like the name of a slot. -/
structure Spelling.Apart (spelling : Spelling) : Prop where
  distinct : spelling.ifDirective ≠ spelling.forDirective
  condition : startsWith spelling.slotDirective spelling.ifDirective = false
  loop : startsWith spelling.slotDirective spelling.forDirective = false

theorem Spelling.apart_default : Spelling.Apart {} :=
  ⟨by decide, by decide, by decide⟩

/-! ## Attributes that stay -/

theorem Json.str_agrees_iff {content : Text} {value : Json} :
    (Json.str content).agrees value = true ↔ value = .str content := by
  cases value with
  | str other =>
      rw [Json.agrees_str, beq_iff_eq, Json.str.injEq]
      exact eq_comm
  | _ => simp [Json.agrees]

namespace Opening

def first? (name : Text) (opening : Opening) : Option Attr :=
  opening.attrs.find? fun attr => decide (attr.name = .str name)

theorem find?_str (name : Text) (opening : Opening) :
    opening.find? (.str name) = opening.first? name := by
  simp only [find?, first?, Attr.isNamed_str]

theorem name_of_first? {name : Text} {opening : Opening} {attr : Attr}
    (found : opening.first? name = some attr) : attr.name = .str name := by
  simpa using List.find?_some found

theorem mem_of_first? {name : Text} {opening : Opening} {attr : Attr}
    (found : opening.first? name = some attr) : attr ∈ opening.attrs :=
  List.mem_of_find?_eq_some found

private theorem mem_without {names : List Json} {opening : Opening} {attr : Attr} :
    attr ∈ (opening.without names).attrs ↔
      attr ∈ opening.attrs ∧ names.any attr.name.agrees = false := by
  simp [without]

theorem Written.without {opening : Opening} (written : opening.Written) (names : List Json) :
    (opening.without names).Written :=
  ⟨written.name, fun attr member => written.attrs attr (mem_without.mp member).1⟩

theorem without_without (names later : List Json) (opening : Opening) :
    (opening.without names).without later = opening.without (names ++ later) := by
  simp only [Opening.without, List.filter_filter, List.any_append, Bool.not_or, Bool.and_comm]

theorem without_congr {names names' : List Json} (opening : Opening)
    (same : ∀ name, name ∈ names ↔ name ∈ names') :
    opening.without names = opening.without names' := by
  have any_eq : ∀ value : Json, names.any value.agrees = names'.any value.agrees := by
    intro value
    rw [Bool.eq_iff_iff, List.any_eq_true, List.any_eq_true]
    simp only [same]
  simp only [Opening.without, any_eq]

theorem without_of_first?_eq_none {name : Text} {opening : Opening}
    (absent : opening.first? name = none) : opening.without [.str name] = opening := by
  have kept : opening.attrs.filter (fun attr => !([Json.str name].any attr.name.agrees)) =
      opening.attrs := by
    rw [List.filter_eq_self]
    intro attr member
    have different := List.find?_eq_none.mp absent attr member
    simp only [decide_eq_true_eq, ← Json.agrees_str_iff] at different
    simpa using different
  simp only [Opening.without, kept]

theorem first?_without {names : List Json} {name : Text} (opening : Opening)
    (other : .str name ∉ names) : (opening.without names).first? name = opening.first? name := by
  simp only [first?, Opening.without, List.find?_filter]
  congr 1
  funext attr
  by_cases named : attr.name = .str name
  · have kept : names.any (Json.str name).agrees = false := by
      rw [List.any_eq_false]
      intro value member agrees
      exact other (Json.str_agrees_iff.mp agrees ▸ member)
    simp [named, kept]
  · simp [named]

theorem first?_without_mem {names : List Json} {name : Text} (opening : Opening)
    (gone : .str name ∈ names) : (opening.without names).first? name = none := by
  rw [first?, List.find?_eq_none]
  intro attr member named
  simp only [decide_eq_true_eq] at named
  have kept := (mem_without.mp member).2
  rw [List.any_eq_false] at kept
  exact kept _ gone (by rw [named, Json.str_agrees_iff])

end Opening

/-! ## The tag that is left

Under any spelling, expansion only takes attributes away.
-/

/-- An opening with some of the attributes of another one, and otherwise equal to it. -/
structure Opening.PartOf (left opening : Opening) : Prop where
  name : left.name = opening.name
  origin : left.origin = opening.origin
  attrs : ∀ attr ∈ left.attrs, attr ∈ opening.attrs

namespace Opening.PartOf

private theorem refl (opening : Opening) :
    opening.PartOf opening := ⟨rfl, rfl, fun _ member => member⟩

private theorem trans {first second third : Opening} (inner : first.PartOf second)
    (outer : second.PartOf third) : first.PartOf third :=
  ⟨inner.name.trans outer.name, inner.origin.trans outer.origin,
    fun attr member => outer.attrs attr (inner.attrs attr member)⟩

theorem without (names : List Json) (opening : Opening) : (opening.without names).PartOf opening :=
  ⟨rfl, rfl, fun _ member => (mem_without.mp member).1⟩

theorem first?_eq_none {left opening : Opening} (part : left.PartOf opening) {name : Text}
    (absent : opening.first? name = none) : left.first? name = none := by
  rw [first?, List.find?_eq_none] at absent ⊢
  intro attr member
  exact absent attr (part.attrs attr member)

theorem written {left opening : Opening} (part : left.PartOf opening) (written : opening.Written) :
    left.Written := by
  refine ⟨?_, fun attr member => written.attrs attr (part.attrs attr member)⟩
  rw [part.name]
  exact written.name

end Opening.PartOf

section Left

variable {spelling : Spelling} {opening left : Opening} {attr : Attr}

theorem expandAttr_left {wrapper : Wrapper}
    (expanded : (expandAttr spelling opening attr).outcome = .ok (wrapper, left)) :
    ∃ names, attr.name ∈ names ∧ left = opening.without names := by
  simp only [expandAttr, Traced.outcome_bind, Traced.outcome_lift, Traced.outcome_tell,
    ok_bind] at expanded
  obtain ⟨directive, _, expanded⟩ := bind_eq_ok expanded
  cases directive with
  | conditional condition | iteration loop =>
      cases expanded
      exact ⟨_, List.mem_cons_self, rfl⟩
  | slot name arguments =>
      cases found : opening.find? (.str spelling.forDirective) with
      | none =>
          simp only [found] at expanded
          cases expanded
          exact ⟨_, List.mem_cons_self, rfl⟩
      | some forAttr =>
          simp only [found, Traced.outcome_bind, Traced.outcome_lift] at expanded
          obtain ⟨loop, _, expanded⟩ := bind_eq_ok expanded
          cases expanded
          exact ⟨_, List.mem_cons_self, rfl⟩

theorem expandAttr_partOf {wrapper : Wrapper}
    (expanded : (expandAttr spelling opening attr).outcome = .ok (wrapper, left)) :
    left.PartOf opening := by
  obtain ⟨names, _, rfl⟩ := expandAttr_left expanded
  exact .without names opening

theorem expandNamed_partOf {name : Text} {wrappers : List Wrapper}
    (expanded : (expandNamed spelling name opening).outcome = .ok (wrappers, left)) :
    left.PartOf opening := by
  cases found : opening.find? (.str name) with
  | none =>
      simp only [expandNamed, found] at expanded
      cases expanded
      exact .refl opening
  | some attr =>
      simp only [expandNamed, found, Traced.outcome_bind] at expanded
      obtain ⟨⟨wrapper, between⟩, first, expanded⟩ := bind_eq_ok expanded
      cases expanded
      exact expandAttr_partOf first

theorem expand_partOf {wrappers : List Wrapper}
    (expanded : (expand spelling opening).outcome = .ok (wrappers, left)) : left.PartOf opening := by
  simp only [expand, Traced.outcome_bind] at expanded
  obtain ⟨⟨conditions, between⟩, first, expanded⟩ := bind_eq_ok expanded
  obtain ⟨⟨loops, last⟩, second, expanded⟩ := bind_eq_ok expanded
  cases expanded
  exact (expandNamed_partOf second).trans (expandNamed_partOf first)

theorem expandSlot_partOf {wrappers : List Wrapper}
    (expanded : (expandSlot spelling opening attr).outcome = .ok (wrappers, left)) :
    left.PartOf opening := by
  simp only [expandSlot, Traced.outcome_bind] at expanded
  obtain ⟨⟨entry, between⟩, first, expanded⟩ := bind_eq_ok expanded
  obtain ⟨⟨others, last⟩, second, expanded⟩ := bind_eq_ok expanded
  cases expanded
  exact (expand_partOf second).trans (expandAttr_partOf first)

theorem expand_name {wrappers : List Wrapper}
    (expanded : (expand spelling opening).outcome = .ok (wrappers, left)) :
    left.name = opening.name :=
  (expand_partOf expanded).name

theorem expandSlot_name {wrappers : List Wrapper}
    (expanded : (expandSlot spelling opening attr).outcome = .ok (wrappers, left)) :
    left.name = opening.name :=
  (expandSlot_partOf expanded).name

end Left

/-! ## Conditions and loops -/

section Standing

variable {spelling : Spelling} (opening : Opening)

def Opening.condition (spelling : Spelling) (opening : Opening) : Except Fault (List Wrapper) :=
  match opening.first? spelling.ifDirective with
  | none => .ok []
  | some attr => do
      let condition ← attr.expression (some opening.origin.place)
      return [.conditional condition]

def Opening.loop? (spelling : Spelling) (opening : Opening) : Except Fault (Option Loop) :=
  match opening.first? spelling.forDirective with
  | none => .ok none
  | some attr => do
      let loop ← attr.loop (some opening.origin.place)
      return some loop

theorem Attr.loop_eq_ok {attr : Attr} {owner : Option Json} {loop : Loop}
    (understood : attr.loop owner = .ok loop) :
    ∃ expression, attr.expression owner = .ok expression ∧
      Loop.ofExpression? expression = some loop := by
  unfold Attr.loop at understood
  cases expressed : attr.expression owner with
  | error fault =>
      rw [expressed] at understood
      cases understood
  | ok expression =>
      cases read : Loop.ofExpression? expression with
      | none =>
          simp only [expressed, read] at understood
          cases understood
      | some loop =>
          simp only [expressed, read] at understood
          cases understood
          exact ⟨expression, rfl, read⟩

private theorem Attr.nameAfter?_slot {attr : Attr} {name : Text} (named : attr.name = .str name)
    (apart : startsWith spelling.slotDirective name = false) :
    attr.nameAfter? (spelling.slotDirective ++ ":") = .ok none := by
  have none : after? (spelling.slotDirective ++ ":").toList name.toList = none := by
    rw [Option.eq_none_iff_forall_ne_some]
    intro rest found
    have whole := after?_eq_some_iff.mp found
    rw [Text.toList_append, List.append_assoc] at whole
    exact Bool.false_ne_true (apart.symm.trans (startsWith_iff.mpr ⟨_, whole⟩))
  simp only [Attr.nameAfter?, named, none, Option.map_none]

private theorem expandAttr_condition (apart : spelling.Apart) {attr : Attr}
    (named : attr.name = .str spelling.ifDirective) :
    (expandAttr spelling opening attr).outcome = (do
      let condition ← attr.expression (some opening.origin.place)
      return (.conditional condition, opening.without [.str spelling.ifDirective])) := by
  simp only [expandAttr, Directive.ofAttr, Attr.nameAfter?_slot named apart.condition,
    Attr.isNamed_str, named, decide_true, if_true, Traced.outcome_bind, Traced.outcome_lift]
  cases attr.expression (some opening.origin.place) <;> rfl

private theorem expandAttr_loop (apart : spelling.Apart) {attr : Attr}
    (named : attr.name = .str spelling.forDirective) :
    (expandAttr spelling opening attr).outcome = (do
      let loop ← attr.loop (some opening.origin.place)
      return (.iteration loop, opening.without [.str spelling.forDirective])) := by
  have other : ¬ Json.str spelling.forDirective = .str spelling.ifDirective := by
    simpa using apart.distinct.symm
  simp only [expandAttr, Directive.ofAttr, Attr.nameAfter?_slot named apart.loop,
    Attr.isNamed_str, named, other, decide_false, decide_true, Bool.false_eq_true, if_false, if_true,
    Traced.outcome_bind, Traced.outcome_lift]
  cases attr.loop (some opening.origin.place) <;> rfl

theorem expandNamed_condition (apart : spelling.Apart) :
    (expandNamed spelling spelling.ifDirective opening).outcome = (do
      let wrappers ← opening.condition spelling
      return (wrappers, opening.without [.str spelling.ifDirective])) := by
  unfold expandNamed Opening.condition
  rw [Opening.find?_str]
  cases found : opening.first? spelling.ifDirective with
  | none =>
      rw [Opening.without_of_first?_eq_none found]
      rfl
  | some attr =>
      simp only [Traced.outcome_bind, Traced.outcome_pure,
        expandAttr_condition opening apart (Opening.name_of_first? found)]
      cases attr.expression (some opening.origin.place) <;> rfl

private theorem expandNamed_loop (apart : spelling.Apart) :
    (expandNamed spelling spelling.forDirective opening).outcome = (do
      let loop ← opening.loop? spelling
      return (loop.toList.map .iteration, opening.without [.str spelling.forDirective])) := by
  unfold expandNamed Opening.loop?
  rw [Opening.find?_str]
  cases found : opening.first? spelling.forDirective with
  | none =>
      rw [Opening.without_of_first?_eq_none found]
      rfl
  | some attr =>
      simp only [Traced.outcome_bind, Traced.outcome_pure,
        expandAttr_loop opening apart (Opening.name_of_first? found)]
      cases attr.loop (some opening.origin.place) <;> rfl

/-- A tag that stands on its own is wrapped in its condition and, inside, in its loop. -/
theorem expand_outcome (apart : spelling.Apart) :
    (expand spelling opening).outcome = (do
      let conditions ← opening.condition spelling
      let loop ← opening.loop? spelling
      return (conditions ++ loop.toList.map .iteration,
        opening.without [.str spelling.ifDirective, .str spelling.forDirective])) := by
  have loops : (opening.without [.str spelling.ifDirective]).loop? spelling =
      opening.loop? spelling := by
    unfold Opening.loop?
    rw [Opening.first?_without opening (by simpa using apart.distinct.symm)]
    rfl
  simp only [expand, Traced.outcome_bind, Traced.outcome_pure, expandNamed_condition opening apart]
  cases opening.condition spelling with
  | error fault => rfl
  | ok conditions =>
      simp only [ok_bind, pure, Except.pure, expandNamed_loop _ apart, loops,
        Opening.without_without]
      cases opening.loop? spelling <;> rfl

theorem expand_left (apart : spelling.Apart) {wrappers : List Wrapper} {left : Opening}
    (expanded : (expand spelling opening).outcome = .ok (wrappers, left)) :
    left = opening.without [.str spelling.ifDirective, .str spelling.forDirective] := by
  rw [expand_outcome opening apart] at expanded
  obtain ⟨conditions, _, expanded⟩ := bind_eq_ok expanded
  obtain ⟨loop, _, expanded⟩ := bind_eq_ok expanded
  cases expanded
  rfl

end Standing

/-! ## Holders of slots -/

section Holding

variable {spelling : Spelling} {opening : Opening} {attr : Attr}

/-- The name of the slot that an attribute names, or the complaint about a directive that names
none. -/
def Attr.slotName (spelling : Spelling) (place : Json) (attr : Attr) : Except Fault Text :=
  match attr.nameAfter? (spelling.slotDirective ++ ":") with
  | .ok (some name) => .ok name
  | .ok none => .error (.complain (.unknownDirective attr.name) place)
  | .error fault => .error fault

theorem Attr.name_of_slotName {place : Json} {name : Text}
    (named : attr.slotName spelling place = .ok name) :
    attr.name = .str (spelling.slotDirective ++ ":" ++ name) := by
  unfold Attr.slotName Attr.nameAfter? at named
  cases called : attr.name with
  | str content =>
      simp only [called] at named
      cases found : after? (spelling.slotDirective ++ ":").toList content.toList with
      | none =>
          simp only [found, Option.map_none] at named
          cases named
      | some rest =>
          simp only [found, Option.map_some] at named
          cases named
          congr 1
          rw [← Text.toList_inj, Text.toList_append, Text.toList_ofList]
          exact after?_eq_some_iff.mp found
  | _ =>
      simp only [called] at named
      cases named

/-- The wrapper of an entry, which repeats it where the holder has a loop. -/
def slotEntry (name arguments : Text) : Option Loop → Wrapper
  | none => .slot name arguments
  | some loop => .slotLoop loop (slotKey name) arguments

theorem slotArguments_ok {attr : Attr} (written : attr.Written) :
    ∃ arguments, attr.slotArguments = .ok arguments := by
  cases written <;> exact ⟨_, rfl⟩

theorem Opening.begins_of_slot? (slot : opening.slot? spelling = some attr) :
    attr.begins spelling.slotDirective = true := by
  simpa using List.find?_some slot

theorem Attr.name_ne_of_begins {name : Text} (begins : attr.begins spelling.slotDirective = true)
    (apart : startsWith spelling.slotDirective name = false) : attr.name ≠ .str name := by
  intro named
  simp only [Attr.begins, named, apart, Bool.false_eq_true] at begins

theorem expandAttr_slot (apart : spelling.Apart) (slot : opening.slot? spelling = some attr) :
    (expandAttr spelling opening attr).outcome = (do
      let name ← attr.slotName spelling opening.origin.place
      let arguments ← attr.slotArguments
      let loop ← opening.loop? spelling
      return (slotEntry name arguments loop,
        opening.without [attr.name, .str spelling.forDirective])) := by
  have begins := Opening.begins_of_slot? slot
  have notCondition := Attr.name_ne_of_begins begins apart.condition
  have notLoop := Attr.name_ne_of_begins begins apart.loop
  simp only [expandAttr, Directive.ofAttr, Attr.slotName, Attr.isNamed_str, notCondition, notLoop,
    decide_false, Bool.false_eq_true, if_false, Traced.outcome_bind, Traced.outcome_lift]
  cases attr.nameAfter? (spelling.slotDirective ++ ":") with
  | error fault => rfl
  | ok rest =>
      cases rest with
      | none => rfl
      | some name =>
          cases attr.slotArguments with
          | error fault => rfl
          | ok arguments =>
              simp only [ok_bind, Traced.outcome_tell, Opening.find?_str, Opening.loop?]
              cases found : opening.first? spelling.forDirective with
              | none =>
                  have absent : (opening.without [attr.name]).first? spelling.forDirective = none := by
                    rw [Opening.first?_without opening (by simpa using notLoop.symm), found]
                  have same := Opening.without_of_first?_eq_none absent
                  rw [Opening.without_without] at same
                  exact congrArg (fun left => Except.ok (slotEntry name arguments none, left))
                    same.symm
              | some forAttr =>
                  have named := Opening.name_of_first? found
                  simp only [named, Traced.outcome_bind, Traced.outcome_lift]
                  cases forAttr.loop (some opening.origin.place) <;> rfl

/-- A holder is wrapped in its entry, which takes its loop along, and inside in its condition. -/
theorem expandSlot_outcome (apart : spelling.Apart) (slot : opening.slot? spelling = some attr) :
    (expandSlot spelling opening attr).outcome = (do
      let name ← attr.slotName spelling opening.origin.place
      let arguments ← attr.slotArguments
      let loop ← opening.loop? spelling
      let conditions ← opening.condition spelling
      return (slotEntry name arguments loop :: conditions,
        opening.without [attr.name, .str spelling.ifDirective, .str spelling.forDirective])) := by
  have notCondition := Attr.name_ne_of_begins (Opening.begins_of_slot? slot) apart.condition
  have conditions : (opening.without [attr.name, .str spelling.forDirective]).condition spelling =
      opening.condition spelling := by
    unfold Opening.condition
    rw [Opening.first?_without opening (by simpa using ⟨notCondition.symm, apart.distinct⟩)]
    rfl
  have noLoop : (opening.without [attr.name, .str spelling.forDirective]).loop? spelling =
      .ok none := by
    unfold Opening.loop?
    rw [Opening.first?_without_mem opening (by simp)]
  have left : (opening.without [attr.name, .str spelling.forDirective]).without
      [.str spelling.ifDirective, .str spelling.forDirective] =
      opening.without [attr.name, .str spelling.ifDirective, .str spelling.forDirective] := by
    rw [Opening.without_without]
    apply Opening.without_congr
    intro name
    simp only [List.cons_append, List.nil_append, List.mem_cons, List.not_mem_nil, or_false]
    grind
  simp only [expandSlot, Traced.outcome_bind, Traced.outcome_pure, expandAttr_slot apart slot]
  cases attr.slotName spelling opening.origin.place with
  | error fault => rfl
  | ok name =>
      cases attr.slotArguments with
      | error fault => rfl
      | ok arguments =>
          cases opening.loop? spelling with
          | error fault => rfl
          | ok loop =>
              simp only [ok_bind, pure, Except.pure, expand_outcome _ apart, conditions, noLoop, left]
              cases opening.condition spelling with
              | error fault => rfl
              | ok wrappers => simp

theorem expandSlot_left (apart : spelling.Apart) (slot : opening.slot? spelling = some attr)
    {wrappers : List Wrapper} {left : Opening}
    (expanded : (expandSlot spelling opening attr).outcome = .ok (wrappers, left)) :
    left = opening.without
      [attr.name, .str spelling.ifDirective, .str spelling.forDirective] := by
  rw [expandSlot_outcome apart slot] at expanded
  obtain ⟨name, _, expanded⟩ := bind_eq_ok expanded
  obtain ⟨arguments, _, expanded⟩ := bind_eq_ok expanded
  obtain ⟨loop, _, expanded⟩ := bind_eq_ok expanded
  obtain ⟨conditions, _, expanded⟩ := bind_eq_ok expanded
  cases expanded
  rfl

end Holding

end TemplateJsx
