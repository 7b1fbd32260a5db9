import TemplateJsx.Proofs.WrittenTree

/-!
# Properties of emission

The outcome of emission as a sequence of outcomes: the nodes of a list one after the other, and for a
tag its expansion, its attributes, the holders of slots among its children and then the others. The
events that emission tells play no part here.
-/

set_option autoImplicit false

namespace TemplateJsx

@[simp] theorem ok_bind {ε α β : Type} (value : α) (next : α → Except ε β) :
    (Except.ok value >>= next) = next value := rfl

@[simp] theorem error_bind {ε α β : Type} (fault : ε) (next : α → Except ε β) :
    (Except.error fault >>= next) = .error fault := rfl

theorem bind_eq_ok {ε α β : Type} {first : Except ε α} {next : α → Except ε β} {result : β}
    (succeeded : (first >>= next) = .ok result) :
    ∃ value, first = .ok value ∧ next value = .ok result := by
  cases first with
  | error fault => cases succeeded
  | ok value => exact ⟨value, rfl, succeeded⟩

theorem bind_eq_error {ε α β : Type} {first : Except ε α} {next : α → Except ε β} {fault : ε}
    (failed : (first >>= next) = .error fault) :
    first = .error fault ∨ ∃ value, first = .ok value ∧ next value = .error fault := by
  cases first with
  | error other =>
      cases failed
      exact .inl rfl
  | ok value => exact .inr ⟨value, rfl, failed⟩

theorem mapM_eq_error {ε α β : Type} {items : List α} {step : α → Except ε β} {fault : ε}
    (failed : items.mapM step = .error fault) : ∃ item ∈ items, step item = .error fault := by
  induction items with
  | nil => cases failed
  | cons item items ih =>
      rw [List.mapM_cons] at failed
      rcases bind_eq_error failed with here | ⟨value, _, later⟩
      · exact ⟨item, List.mem_cons_self, here⟩
      · rcases bind_eq_error later with later | ⟨values, _, impossible⟩
        · obtain ⟨item, member, failed⟩ := ih later
          exact ⟨item, List.mem_cons_of_mem _ member, failed⟩
        · cases impossible

theorem mapM_eq_ok {ε α β : Type} {items : List α} {step : α → Except ε β} {results : List β}
    (succeeded : items.mapM step = .ok results) :
    ∀ result ∈ results, ∃ item ∈ items, step item = .ok result := by
  induction items generalizing results with
  | nil =>
      cases succeeded
      nofun
  | cons item items ih =>
      rw [List.mapM_cons] at succeeded
      obtain ⟨first, here, succeeded⟩ := bind_eq_ok succeeded
      obtain ⟨rest, later, succeeded⟩ := bind_eq_ok succeeded
      cases succeeded
      intro result member
      rcases List.mem_cons.mp member with rfl | member
      · exact ⟨item, List.mem_cons_self, here⟩
      · obtain ⟨item, among, made⟩ := ih later result member
        exact ⟨item, List.mem_cons_of_mem _ among, made⟩

namespace Traced

variable {α β : Type}

@[simp] theorem outcome_pure (value : α) : (pure value : Traced α).outcome = .ok value := rfl

@[simp] theorem outcome_lift (outcome : Except Fault α) : (lift outcome).outcome = outcome := rfl

@[simp] theorem outcome_fail (fault : Fault) : (fail fault : Traced α).outcome = .error fault := rfl

@[simp] theorem outcome_tell (event : Event) : (tell event).outcome = .ok () := rfl

@[simp] theorem outcome_bind (first : Traced α) (next : α → Traced β) :
    (first >>= next).outcome = first.outcome >>= fun value => (next value).outcome := by
  obtain ⟨events, outcome⟩ := first
  cases outcome <;> rfl

def concat : List (Traced Text) → Traced Text
  | [] => pure ""
  | first :: rest => do
      let text ← first
      let others ← concat rest
      return text ++ others

theorem of_concat_eq_ok {holds : Text → Prop} (empty : holds "")
    (append : ∀ first second, holds first → holds second → holds (first ++ second))
    {texts : List (Traced Text)} {result : Text}
    (succeeded : (concat texts).outcome = .ok result)
    (each : ∀ text ∈ texts, ∀ value, text.outcome = .ok value → holds value) : holds result := by
  induction texts generalizing result with
  | nil =>
      cases succeeded
      exact empty
  | cons first rest ih =>
      simp only [concat, outcome_bind] at succeeded
      obtain ⟨text, here, succeeded⟩ := bind_eq_ok succeeded
      obtain ⟨others, later, succeeded⟩ := bind_eq_ok succeeded
      cases succeeded
      refine append text others (each first List.mem_cons_self text here) (ih later ?_)
      intro text member
      exact each text (List.mem_cons_of_mem _ member)

theorem concat_eq_error {texts : List (Traced Text)} {fault : Fault}
    (failed : (concat texts).outcome = .error fault) :
    ∃ text ∈ texts, text.outcome = .error fault := by
  induction texts with
  | nil => cases failed
  | cons first rest ih =>
      simp only [concat, outcome_bind] at failed
      rcases bind_eq_error failed with here | ⟨text, _, later⟩
      · exact ⟨first, List.mem_cons_self, here⟩
      · rcases bind_eq_error later with later | ⟨others, _, impossible⟩
        · obtain ⟨text, member, failed⟩ := ih later
          exact ⟨text, List.mem_cons_of_mem _ member, failed⟩
        · cases impossible

end Traced

/-! ## Lists of nodes -/

namespace Node

def emitHolder (spelling : Spelling) : Node → Traced Text
  | .tag opening children =>
      match opening.slot? spelling with
      | some attr =>
          emitTag spelling (expandSlot spelling opening attr) children (emitSlots spelling children)
            (emitOthers spelling children)
      | none => pure ""
  | _ => pure ""

theorem emitAll_eq_concat (spelling : Spelling) (nodes : List Node) :
    emitAll spelling nodes = Traced.concat (nodes.map (emit spelling)) := by
  induction nodes with
  | nil => rfl
  | cons node nodes ih => simp only [emitAll, ih, List.map_cons, Traced.concat]

variable (spelling : Spelling)

/-! Children that can tell whether they hold slots are emitted in two sequences. -/

section Told

variable {nodes : List Node}

theorem emitOthers_eq_concat_of_told
    (told : ∀ node ∈ nodes, node.holdsSlot spelling = .ok (node.isHolder spelling)) :
    emitOthers spelling nodes =
      Traced.concat ((nodes.filter fun node => !node.isHolder spelling).map (emit spelling)) := by
  induction nodes with
  | nil => rfl
  | cons node nodes ih =>
      have later := ih fun node member => told node (List.mem_cons_of_mem _ member)
      have here := told node List.mem_cons_self
      cases holds : node.isHolder spelling with
      | true => simp [emitOthers, here, holds, later]
      | false => simp [emitOthers, here, holds, later, Traced.concat]

theorem emitSlots_eq_concat_of_told
    (told : ∀ node ∈ nodes, node.holdsSlot spelling = .ok (node.isHolder spelling)) :
    emitSlots spelling nodes =
      Traced.concat ((nodes.filter (·.isHolder spelling)).map (emitHolder spelling)) := by
  induction nodes with
  | nil => rfl
  | cons node nodes ih =>
      have later := ih fun node member => told node (List.mem_cons_of_mem _ member)
      have here := told node List.mem_cons_self
      cases node with
      | tag opening children =>
          rw [holdsSlot] at here
          cases found : opening.slotAttr? spelling with
          | error fault =>
              rw [found] at here
              cases here
          | ok attr =>
              have slot := Opening.slotAttr?_of_ok found
              cases attr with
              | none => simp [emitSlots, found, isHolder, slot, later]
              | some attr =>
                  simp [emitSlots, found, isHolder, emitHolder, slot, later, Traced.concat]
      | _ => simp [emitSlots, isHolder, later]

end Told

variable {texts : Json → Prop} {foreigns : Foreign → Prop}

theorem emitOthers_eq_concat {nodes : List Node}
    (built : ∀ node ∈ nodes, node.BuiltFrom Opening.Written texts foreigns) :
    emitOthers spelling nodes =
      Traced.concat ((nodes.filter fun node => !node.isHolder spelling).map (emit spelling)) :=
  emitOthers_eq_concat_of_told spelling fun node member => holdsSlot_eq spelling (built node member)

theorem emitSlots_eq_concat {nodes : List Node}
    (built : ∀ node ∈ nodes, node.BuiltFrom Opening.Written texts foreigns) :
    emitSlots spelling nodes =
      Traced.concat ((nodes.filter (·.isHolder spelling)).map (emitHolder spelling)) :=
  emitSlots_eq_concat_of_told spelling fun node member => holdsSlot_eq spelling (built node member)

end Node

/-! ## Wrappers -/

@[simp] theorem wrapAll_nil (body : Text) : wrapAll [] body = body := rfl

@[simp] theorem wrapAll_cons (wrapper : Wrapper) (wrappers : List Wrapper) (body : Text) :
    wrapAll (wrapper :: wrappers) body = wrapper.around (wrapAll wrappers body) := rfl

theorem Wrapper.around_conditional (condition body : Text) :
    (Wrapper.conditional condition).around body = "\x7b" ++ condition ++ " && " ++ body ++ "\x7d" :=
  rfl

theorem Wrapper.around_iteration (loop : Loop) (body : Text) :
    (Wrapper.iteration loop).around body =
      "\x7b" ++ loop.iterable ++ ".map((" ++ loop.binder ++ ") => (" ++ body ++ "))\x7d" := rfl

theorem Wrapper.around_slot (name arguments body : Text) :
    (Wrapper.slot name arguments).around body =
      "\"" ++ name ++ "\": (" ++ arguments ++ ") => (" ++ body ++ ")," := rfl

theorem Wrapper.around_slotLoop (loop : Loop) (key arguments body : Text) :
    (Wrapper.slotLoop loop key arguments).around body =
      "...(" ++ loop.iterable ++ ".reduce((acc, " ++ loop.binder ++ ") => \x7bacc[" ++ key ++
        "] = (" ++ arguments ++ ") => (" ++ body ++ "); return acc\x7d, \x7b\x7d))," := rfl

/-! ## Elements -/

@[simp] theorem Json.display_str (value : Text) : (Json.str value).display = value := by
  rw [Json.display]

theorem elementNameOf_str (name : Text) :
    elementNameOf (.str name) = .ok (.str (elementName name)) := rfl

theorem elementName_of_not_mem {name : Text} (plain : .char '-' ∉ name.toList) :
    elementName name = name := by
  simp [elementName, plain]

def elementText (spelling : Spelling) (name attrs : Text) (family : Family)
    (entries body : Text) : Text :=
  "<" ++ name ++ (if attrs = "" then ("" : Text) else " " ++ attrs) ++
    (if family.slots then slotsText spelling entries else "") ++
    if family.others then ">" ++ body ++ "</" ++ name ++ ">" else " />"

theorem Family.holders_eq_nil {spelling : Spelling} {children : List Node}
    (none : (Family.among spelling children).slots = false) :
    children.filter (·.isHolder spelling) = [] := by
  simpa [Family.among, List.filter_eq_nil_iff] using none

theorem Family.others_eq_nil {spelling : Spelling} {children : List Node}
    (none : (Family.among spelling children).others = false) :
    (children.filter fun child => !child.isHolder spelling) = [] := by
  simpa [Family.among, List.filter_eq_nil_iff] using none

/-- Children that are not there have nothing to emit, so asking for both kinds of children changes
nothing. -/
theorem emitElement_outcome_of_any (spelling : Spelling) (opening : Opening)
    (children : List Node) :
    (emitElement spelling opening children (Node.emitSlots spelling children)
      (Node.emitOthers spelling children)).outcome = (do
      let name ← elementNameOf opening.name
      let attrs ← (emitAttrs spelling opening.attrs (some opening.origin.place)).outcome
      let family ← Family.ofChildren spelling children
      let entries ← (Traced.concat ((children.filter (·.isHolder spelling)).map
        (Node.emitHolder spelling))).outcome
      let body ← (Traced.concat ((children.filter fun child => !child.isHolder spelling).map
        (Node.emit spelling))).outcome
      return elementText spelling name.display attrs family entries body) := by
  unfold emitElement
  simp only [Traced.outcome_bind, Traced.outcome_lift]
  cases elementNameOf opening.name with
  | error fault => rfl
  | ok name =>
      simp only [ok_bind]
      cases (emitAttrs spelling opening.attrs (some opening.origin.place)).outcome with
      | error fault => rfl
      | ok attrs =>
          simp only [ok_bind]
          cases told : Family.ofChildren spelling children with
          | error fault => rfl
          | ok family =>
              obtain ⟨same, each⟩ := Family.of_ofChildren spelling told
              have noHolders := @Family.holders_eq_nil spelling children
              have noOthers := @Family.others_eq_nil spelling children
              rw [← same] at noHolders noOthers
              rw [Node.emitSlots_eq_concat_of_told spelling each,
                Node.emitOthers_eq_concat_of_told spelling each]
              obtain ⟨holders, plain⟩ := family
              cases holders <;> cases plain
              all_goals
                simp only [noHolders, noOthers, elementText, Bool.false_eq_true, if_false, if_true,
                  List.map_nil, Traced.concat, Traced.outcome_bind, Traced.outcome_pure, ok_bind,
                  Text.append_assoc]
              all_goals rfl

theorem emitElement_outcome {texts : Json → Prop} {foreigns : Foreign → Prop} (spelling : Spelling)
    {opening : Opening} {name : Text} (named : opening.name = .str name) {children : List Node}
    (built : ∀ child ∈ children, child.BuiltFrom Opening.Written texts foreigns) :
    (emitElement spelling opening children (Node.emitSlots spelling children)
      (Node.emitOthers spelling children)).outcome = (do
      let attrs ← (emitAttrs spelling opening.attrs (some opening.origin.place)).outcome
      let entries ← (Traced.concat ((children.filter (·.isHolder spelling)).map
        (Node.emitHolder spelling))).outcome
      let body ← (Traced.concat ((children.filter fun child => !child.isHolder spelling).map
        (Node.emit spelling))).outcome
      return elementText spelling (elementName name) attrs (Family.among spelling children) entries
        body) := by
  simp only [emitElement_outcome_of_any, named, elementNameOf_str,
    Family.ofChildren_eq spelling built, ok_bind, Json.display_str]

theorem emitTag_outcome (spelling : Spelling) (expansion : Traced (List Wrapper × Opening))
    (children : List Node) (slots others : Traced Text) :
    (emitTag spelling expansion children slots others).outcome = (do
      let (wrappers, opening) ← expansion.outcome
      let body ← (emitElement spelling opening children slots others).outcome
      return wrapAll wrappers body) := by
  simp only [emitTag, Traced.outcome_bind, Traced.outcome_pure]
  rfl

/-- A tag that succeeds is its element inside its wrappers, and all that it is made of succeeds. -/
theorem emitTag_eq_ok {texts : Json → Prop} {foreigns : Foreign → Prop} {spelling : Spelling}
    {expansion : Traced (List Wrapper × Opening)} {children : List Node} {text : Text}
    (named : ∀ {wrappers left}, expansion.outcome = .ok (wrappers, left) → left.name.IsText)
    (built : ∀ child ∈ children, child.BuiltFrom Opening.Written texts foreigns)
    (succeeded : (emitTag spelling expansion children (Node.emitSlots spelling children)
      (Node.emitOthers spelling children)).outcome = .ok text) :
    ∃ wrappers left name attrs entries body, expansion.outcome = .ok (wrappers, left) ∧
      left.name = .str name ∧
      (emitAttrs spelling left.attrs (some left.origin.place)).outcome = .ok attrs ∧
      (Traced.concat ((children.filter (·.isHolder spelling)).map
        (Node.emitHolder spelling))).outcome = .ok entries ∧
      (Traced.concat ((children.filter fun child => !child.isHolder spelling).map
        (Node.emit spelling))).outcome = .ok body ∧
      text = wrapAll wrappers (elementText spelling (elementName name) attrs
        (Family.among spelling children) entries body) := by
  rw [emitTag_outcome] at succeeded
  obtain ⟨⟨wrappers, left⟩, expanded, succeeded⟩ := bind_eq_ok succeeded
  obtain ⟨name, leftNamed⟩ := named expanded
  obtain ⟨element, emitted, succeeded⟩ := bind_eq_ok succeeded
  cases succeeded
  rw [emitElement_outcome spelling leftNamed built] at emitted
  obtain ⟨attrs, listed, emitted⟩ := bind_eq_ok emitted
  obtain ⟨entries, entered, emitted⟩ := bind_eq_ok emitted
  obtain ⟨body, filled, emitted⟩ := bind_eq_ok emitted
  cases emitted
  exact ⟨wrappers, left, name, attrs, entries, body, expanded, leftNamed, listed, entered, filled,
    rfl⟩

/-- A tag fails in its expansion, in its attributes, in a holder among its children or in one of the
other children. -/
theorem emitTag_eq_error {texts : Json → Prop} {foreigns : Foreign → Prop} {spelling : Spelling}
    {expansion : Traced (List Wrapper × Opening)} {children : List Node} {fault : Fault}
    (named : ∀ {wrappers left}, expansion.outcome = .ok (wrappers, left) → left.name.IsText)
    (built : ∀ child ∈ children, child.BuiltFrom Opening.Written texts foreigns)
    (failed : (emitTag spelling expansion children (Node.emitSlots spelling children)
      (Node.emitOthers spelling children)).outcome = .error fault) :
    expansion.outcome = .error fault ∨
      (∃ wrappers left, expansion.outcome = .ok (wrappers, left) ∧
        (emitAttrs spelling left.attrs (some left.origin.place)).outcome = .error fault) ∨
      (∃ child ∈ children, child.isHolder spelling = true ∧
        (child.emitHolder spelling).outcome = .error fault) ∨
      ∃ child ∈ children, (child.emit spelling).outcome = .error fault := by
  rw [emitTag_outcome] at failed
  rcases bind_eq_error failed with expansionFailed | ⟨⟨wrappers, left⟩, expanded, failed⟩
  · exact .inl expansionFailed
  obtain ⟨name, leftNamed⟩ := named expanded
  rcases bind_eq_error failed with failed | ⟨body, _, impossible⟩
  · rw [emitElement_outcome spelling leftNamed built] at failed
    rcases bind_eq_error failed with attrsFailed | ⟨attrs, _, failed⟩
    · exact .inr (.inl ⟨wrappers, left, expanded, attrsFailed⟩)
    rcases bind_eq_error failed with slotsFailed | ⟨entries, _, failed⟩
    · obtain ⟨text, member, failed⟩ := Traced.concat_eq_error slotsFailed
      obtain ⟨child, among, rfl⟩ := List.mem_map.mp member
      obtain ⟨member, holds⟩ := List.mem_filter.mp among
      exact .inr (.inr (.inl ⟨child, member, holds, failed⟩))
    rcases bind_eq_error failed with othersFailed | ⟨body, _, impossible⟩
    · obtain ⟨text, member, failed⟩ := Traced.concat_eq_error othersFailed
      obtain ⟨child, among, rfl⟩ := List.mem_map.mp member
      exact .inr (.inr (.inr ⟨child, (List.mem_filter.mp among).1, failed⟩))
    · cases impossible
  · cases impossible

end TemplateJsx
