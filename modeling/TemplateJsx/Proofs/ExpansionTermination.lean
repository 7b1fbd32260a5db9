import TemplateJsx.Proofs.ExpansionProperties

/-!
# Termination of expansion

A directive is resolved by emitting, inside its wrapper, a copy of the tag with the same block and fewer
attributes. So emission comes to an end under every spelling, also where the directives have the same
name, where one name begins with another or where a name is empty, and it resolves no more directives
than the tree has attributes, whether it succeeds or fails.
-/

set_option autoImplicit false

namespace TemplateJsx

/-! ## Sequences of traced computations -/

namespace Traced

variable {α β γ : Type}

private theorem pure_bind (value : α) (next : α → Traced β) :
    (pure value >>= next) = next value := rfl

private theorem bind_assoc (first : Traced α) (second : α → Traced β) (third : β → Traced γ) :
    (first >>= second >>= third) = first >>= fun value => second value >>= third := by
  obtain ⟨events, outcome⟩ := first
  cases outcome with
  | error fault => rfl
  | ok value =>
      change Traced.bind ⟨events ++ (second value).events, (second value).outcome⟩ third =
        ⟨events ++ (Traced.bind (second value) third).events,
          (Traced.bind (second value) third).outcome⟩
      unfold Traced.bind
      cases (second value).outcome with
      | error fault => rfl
      | ok result => simp only [List.append_assoc]

private theorem bind_pure (first : Traced α) : (first >>= pure) = first := by
  obtain ⟨events, outcome⟩ := first
  cases outcome with
  | error fault => rfl
  | ok value =>
      change (⟨events ++ [], .ok value⟩ : Traced α) = ⟨events, .ok value⟩
      rw [List.append_nil]

private theorem bind_congr {first : Traced α} {next next' : α → Traced β}
    (same : ∀ value, first.outcome = .ok value → next value = next' value) :
    (first >>= next) = (first >>= next') := by
  obtain ⟨events, outcome⟩ := first
  cases outcome with
  | error fault => rfl
  | ok value =>
      change Traced.bind ⟨events, .ok value⟩ next = Traced.bind ⟨events, .ok value⟩ next'
      simp only [Traced.bind, same value rfl]

end Traced

/-! ## The tag that is left -/

/-- A copy of a tag that has lost at least one attribute and nothing else. -/
structure Opening.TrimmedTo (opening left : Opening) : Prop where
  same : left = { opening with attrs := left.attrs }
  kept : left.attrs.Sublist opening.attrs
  fewer : left.attrs.length < opening.attrs.length

/-- An attribute of a tag that is resolved as a directive: a condition or a loop where the tag stands,
and the attribute that makes it the holder of a slot. -/
inductive Opening.Directs (spelling : Spelling) (opening : Opening) (attr : Attr) : Prop where
  | standing : opening.structural? spelling = some attr → Directs spelling opening attr
  | holding : opening.slotAttr? spelling = .ok (some attr) → Directs spelling opening attr

section Left

variable {spelling : Spelling} {opening left : Opening} {attr : Attr}

private theorem Opening.structural?_cases (spelling : Spelling) (opening : Opening) :
    (∃ attr, opening.first? spelling.ifDirective = some attr ∧
        opening.structural? spelling = some attr) ∨
      (opening.first? spelling.ifDirective = none ∧
        opening.structural? spelling = opening.first? spelling.forDirective) := by
  unfold Opening.structural?
  rw [Opening.find?_str, Opening.find?_str]
  cases opening.first? spelling.ifDirective with
  | some attr => exact .inl ⟨attr, rfl, rfl⟩
  | none => exact .inr ⟨rfl, rfl⟩

private theorem Attr.text_of_begins {mark : Text} (begins : attr.begins mark = true) :
    attr.name.IsText := by
  unfold Attr.begins at begins
  split at begins
  · next name named => exact ⟨name, named⟩
  · cases begins

private theorem Opening.Directs.named (directs : opening.Directs spelling attr) :
    attr ∈ opening.attrs ∧ attr.name.IsText := by
  cases directs with
  | standing found =>
      rcases opening.structural?_cases spelling with ⟨first, condition, same⟩ | ⟨_, loop⟩
      · cases same.symm.trans found
        exact ⟨Opening.mem_of_first? condition, _, Opening.name_of_first? condition⟩
      · rw [loop] at found
        exact ⟨Opening.mem_of_first? found, _, Opening.name_of_first? found⟩
  | holding found =>
      have slot := Opening.slotAttr?_of_ok found
      exact ⟨List.mem_of_find?_eq_some slot, Attr.text_of_begins (Opening.begins_of_slot? slot)⟩

private theorem Opening.trimmedTo_without {names : List Json} (member : attr ∈ opening.attrs)
    (text : attr.name.IsText) (taken : attr.name ∈ names) :
    opening.TrimmedTo (opening.without names) := by
  obtain ⟨name, named⟩ := text
  refine ⟨rfl, List.filter_sublist, ?_⟩
  refine List.length_filter_lt_length_iff_exists.mpr ⟨attr, member, ?_⟩
  have agrees : names.any attr.name.agrees = true :=
    List.any_eq_true.mpr ⟨attr.name, taken, by rw [named, Json.str_agrees_iff]⟩
  simp [agrees]

private theorem Opening.Directs.trimmedTo (directs : opening.Directs spelling attr)
    {wrapper : Wrapper}
    (expanded : (expandAttr spelling opening attr).outcome = .ok (wrapper, left)) :
    opening.TrimmedTo left := by
  obtain ⟨member, text⟩ := directs.named
  obtain ⟨names, taken, rfl⟩ := expandAttr_left expanded
  exact Opening.trimmedTo_without member text taken

end Left

/-! ## One directive at a time -/

/-- Resolves one directive of a tag: the copy that is left is emitted again, inside the wrapper. -/
def emitResolved (spelling : Spelling) (opening : Opening) (attr : Attr) (children : List Node) :
    Traced Text := do
  let (wrapper, left) ← expandAttr spelling opening attr
  let body ← (Node.tag left children).emit spelling
  return wrapper.around body

def emitDirected (spelling : Spelling) (opening : Opening) (children : List Node) : Traced Text :=
  match opening.structural? spelling with
  | some attr => emitResolved spelling opening attr children
  | none =>
      emitElement spelling opening children (Node.emitSlots spelling children)
        (Node.emitOthers spelling children)

section Equations

variable {spelling : Spelling} {opening left : Opening} {attr : Attr}

/-- An expansion in which one directive comes first, and then those of the tag that is left. -/
def expandFirst (spelling : Spelling) (opening : Opening) (attr : Attr) :
    Traced (List Wrapper × Opening) := do
  let (wrapper, left) ← expandAttr spelling opening attr
  let (wrappers, last) ← expand spelling left
  return (wrapper :: wrappers, last)

private theorem emitTag_expandFirst (children : List Node) :
    emitTag spelling (expandFirst spelling opening attr) children (Node.emitSlots spelling children)
        (Node.emitOthers spelling children) =
      emitResolved spelling opening attr children := by
  unfold emitTag expandFirst emitResolved
  rw [Traced.bind_assoc]
  refine Traced.bind_congr ?_
  intro result _
  simp only [Node.emit, emitTag, Traced.bind_assoc]
  refine Traced.bind_congr ?_
  intro later _
  simp only [Traced.pure_bind, wrapAll_cons]

private theorem expandNamed_of_absent {name : Text} (absent : opening.first? name = none) :
    expandNamed spelling name opening = pure ([], opening) := by
  rw [expandNamed, Opening.find?_str, absent]

private theorem expandNamed_of_first? {name : Text} (found : opening.first? name = some attr) :
    expandNamed spelling name opening = (do
      let (wrapper, left) ← expandAttr spelling opening attr
      return ([wrapper], left)) := by
  rw [expandNamed, Opening.find?_str, found]

private theorem expand_of_no_condition (absent : opening.first? spelling.ifDirective = none) :
    expand spelling opening = expandNamed spelling spelling.forDirective opening := by
  rw [expand, expandNamed_of_absent absent, Traced.pure_bind]
  exact Traced.bind_pure _

private theorem expand_of_structural? (found : opening.structural? spelling = some attr) :
    expand spelling opening = expandFirst spelling opening attr := by
  rcases opening.structural?_cases spelling with ⟨first, condition, same⟩ | ⟨condition, loop⟩
  · cases same.symm.trans found
    have named := Opening.name_of_first? condition
    rw [expand, expandNamed_of_first? condition, expandFirst, Traced.bind_assoc]
    refine Traced.bind_congr ?_
    intro result expanded
    obtain ⟨wrapper, left⟩ := result
    -- The conditions went with the first one, so only a loop can be left.
    obtain ⟨names, taken, rfl⟩ := expandAttr_left expanded
    have gone := Opening.first?_without_mem opening (named ▸ taken)
    simp only [Traced.pure_bind, expand_of_no_condition gone, List.cons_append, List.nil_append]
  · rw [loop] at found
    have named := Opening.name_of_first? found
    rw [expand_of_no_condition condition, expandNamed_of_first? found, expandFirst]
    refine Traced.bind_congr ?_
    intro result expanded
    obtain ⟨wrapper, left⟩ := result
    obtain ⟨names, taken, rfl⟩ := expandAttr_left expanded
    have gone := Opening.first?_without_mem opening (named ▸ taken)
    have absent := (Opening.PartOf.without names opening).first?_eq_none condition
    simp only [expand_of_no_condition absent, expandNamed_of_absent gone, Traced.pure_bind]

private theorem expand_of_undirected (undirected : opening.structural? spelling = none) :
    expand spelling opening = pure ([], opening) := by
  rcases opening.structural?_cases spelling with ⟨first, _, same⟩ | ⟨condition, loop⟩
  · cases same.symm.trans undirected
  · rw [expand_of_no_condition condition, expandNamed_of_absent (loop.symm.trans undirected)]

/-- Emission resolves one directive after the other, each time on the copy that is left. -/
theorem emit_tag_eq (spelling : Spelling) (opening : Opening) (children : List Node) :
    (Node.tag opening children).emit spelling = emitDirected spelling opening children := by
  unfold emitDirected
  rw [Node.emit]
  cases found : opening.structural? spelling with
  | some attr => rw [expand_of_structural? found, emitTag_expandFirst]
  | none =>
      rw [expand_of_undirected found, emitTag, Traced.pure_bind]
      exact Traced.bind_pure _

private theorem emitSlots_cons_of_slotAttr? (found : opening.slotAttr? spelling = .ok (some attr))
    (children siblings : List Node) :
    Node.emitSlots spelling (.tag opening children :: siblings) = (do
      let entry ← emitResolved spelling opening attr children
      let rest ← Node.emitSlots spelling siblings
      return entry ++ rest) := by
  rw [Node.emitSlots, found, ← emitTag_expandFirst]
  rfl

end Equations

/-! ## The nodes that emission comes to -/

/-- Emission of the first node asks for that of the second: for a child, or for a copy of the same tag
in which a directive is resolved. -/
inductive Node.Needs (spelling : Spelling) : Node → Node → Prop where
  | inBlock {children : List Node} {origin : Origin} {child : Node} :
      child ∈ children → Needs spelling (.block children origin) child
  | inTag {opening : Opening} {children : List Node} {child : Node} :
      child ∈ children → Needs spelling (.tag opening children) child
  | copy {opening left : Opening} {children : List Node} {attr : Attr} {wrapper : Wrapper} :
      opening.Directs spelling attr →
      (expandAttr spelling opening attr).outcome = .ok (wrapper, left) →
      Needs spelling (.tag opening children) (.tag left children)

/-- A tag comes to an end when its children do. The induction is on the number of its attributes, which
every copy has fewer of. -/
private theorem Node.acc_tag {spelling : Spelling} {children : List Node}
    (inside : ∀ child ∈ children, Acc (fun other node => Needs spelling node other) child)
    (opening : Opening) :
    Acc (fun other node => Needs spelling node other) (.tag opening children) := by
  induction count : opening.attrs.length using Nat.strongRecOn generalizing opening with
  | ind _ ih =>
      refine Acc.intro _ ?_
      intro other needed
      cases needed with
      | inTag member => exact inside other member
      | copy directs expanded =>
          have fewer := (directs.trimmedTo expanded).fewer
          exact ih _ (count ▸ fewer) _ rfl

theorem Node.needs_wellFounded (spelling : Spelling) :
    WellFounded fun other node => Node.Needs spelling node other := by
  refine ⟨fun node => ?_⟩
  induction node.arbitrary with
  | block _ ih =>
      refine Acc.intro _ ?_
      intro other needed
      cases needed with
      | inBlock member => exact ih other member
  | tag _ _ ih => exact Node.acc_tag ih _
  | text _ =>
      refine Acc.intro _ ?_
      intro other needed
      cases needed
  | foreign _ =>
      refine Acc.intro _ ?_
      intro other needed
      cases needed

/-! ## Resolved directives -/

def Event.isResolving : Event → Bool
  | .resolving _ _ => true
  | _ => false

def resolutions (events : List Event) : Nat := events.countP Event.isResolving

mutual

def Node.attrCount : Node → Nat
  | .block children _ => Node.attrCountAll children
  | .tag opening children => opening.attrs.length + Node.attrCountAll children
  | _ => 0

def Node.attrCountAll : List Node → Nat
  | [] => 0
  | node :: nodes => node.attrCount + Node.attrCountAll nodes

end

private theorem Node.attrCountAll_filter (p : Node → Bool) (nodes : List Node) :
    Node.attrCountAll (nodes.filter p) + Node.attrCountAll (nodes.filter fun node => !p node) =
      Node.attrCountAll nodes := by
  induction nodes with
  | nil => rfl
  | cons node nodes ih =>
      cases chosen : p node <;> simp [chosen, Node.attrCountAll] <;> omega

/-- A computation that takes each directive it resolves out of a stock. It never takes more than there
is, and where it succeeds a certain rest is left. -/
structure Traced.Spends {α : Type} (computation : Traced α) (stock : Nat) (rest : α → Nat) :
    Prop where
  covered : resolutions computation.events ≤ stock
  left : ∀ value, computation.outcome = .ok value →
    resolutions computation.events + rest value ≤ stock

namespace Traced.Spends

variable {α β : Type} {stock : Nat}

private theorem pure {value : α} {rest : α → Nat} (enough : rest value ≤ stock) :
    Spends (Pure.pure value) stock rest := by
  refine ⟨Nat.zero_le _, ?_⟩
  intro result succeeded
  cases succeeded
  simpa [resolutions, Pure.pure, Traced.pure] using enough

private theorem lift (outcome : Except Fault α) :
    Spends (Traced.lift outcome) stock fun _ => stock :=
  ⟨Nat.zero_le _, fun _ _ => by simp [resolutions, Traced.lift]⟩

private theorem tell (event : Event) : Spends (Traced.tell event) 1 fun _ => 0 := by
  have one : resolutions (Traced.tell event).events ≤ 1 := List.countP_le_length
  exact ⟨one, fun _ _ => one⟩

private theorem bind {first : Traced α} {next : α → Traced β} {between : α → Nat} {rest : β → Nat}
    (here : first.Spends stock between)
    (continued : ∀ value, first.outcome = .ok value → (next value).Spends (between value) rest) :
    (first >>= next).Spends stock rest := by
  obtain ⟨events, outcome⟩ := first
  cases outcome with
  | error fault => exact ⟨here.covered, fun _ impossible => by cases impossible⟩
  | ok value =>
      have split : resolutions (⟨events, .ok value⟩ >>= next : Traced β).events =
          resolutions events + resolutions (next value).events := List.countP_append
      have stocked : resolutions events + between value ≤ stock := here.left value rfl
      have later := continued value rfl
      have covered := later.covered
      constructor
      · omega
      · intro result succeeded
        have remaining := later.left result succeeded
        omega

/-- What is not part of the stock is left in addition. -/
private theorem frame {computation : Traced α} {rest : α → Nat}
    (spends : computation.Spends stock rest)
    (extra : Nat) : computation.Spends (stock + extra) fun value => rest value + extra := by
  refine ⟨Nat.le_add_right_of_le spends.covered, ?_⟩
  intro value succeeded
  have remaining := spends.left value succeeded
  omega

private theorem mono {computation : Traced α} {rest rest' : α → Nat} {stock' : Nat}
    (spends : computation.Spends stock rest) (more : stock ≤ stock')
    (less : ∀ value, rest' value ≤ rest value) : computation.Spends stock' rest' := by
  refine ⟨Nat.le_trans spends.covered more, ?_⟩
  intro value succeeded
  have remaining := spends.left value succeeded
  have fits := less value
  omega

private theorem concat {nodes : List Node} {emitted : Node → Traced Text}
    (each : ∀ node ∈ nodes, (emitted node).Spends node.attrCount fun _ => 0) :
    (Traced.concat (nodes.map emitted)).Spends (Node.attrCountAll nodes) fun _ => 0 := by
  induction nodes with
  | nil => exact .pure (Nat.le_refl 0)
  | cons node nodes ih =>
      rw [List.map_cons, Traced.concat, Node.attrCountAll]
      refine ((each node List.mem_cons_self).frame (Node.attrCountAll nodes)).bind fun text _ => ?_
      rw [Nat.zero_add]
      refine (ih fun node member => each node (List.mem_cons_of_mem _ member)).bind fun rest _ => ?_
      exact .pure (Nat.le_refl 0)

end Traced.Spends

/-! ## Expansion -/

section Expansion

variable {spelling : Spelling} {opening : Opening} {attr : Attr}

private theorem resolutions_expandAttr (spelling : Spelling) (opening : Opening) (attr : Attr) :
    (expandAttr spelling opening attr).Spends 1 fun _ => 0 := by
  refine (Traced.Spends.lift _).bind fun directive _ => ?_
  refine (Traced.Spends.tell _).bind fun _ _ => ?_
  cases directive with
  | conditional condition | iteration loop => exact .pure (Nat.le_refl 0)
  | slot name arguments =>
      dsimp only
      split
      · exact .pure (Nat.le_refl 0)
      · exact (Traced.Spends.lift _).bind fun loop _ => .pure (Nat.le_refl 0)

/-- The attribute that is resolved goes away with the expansion and pays for it. -/
private theorem expandAttr_spends (member : attr ∈ opening.attrs) (text : attr.name.IsText) :
    (expandAttr spelling opening attr).Spends opening.attrs.length fun result =>
      result.2.attrs.length := by
  have one := (resolutions_expandAttr spelling opening attr).covered
  refine ⟨Nat.le_trans one (List.length_pos_of_mem member), ?_⟩
  intro result expanded
  obtain ⟨wrapper, left⟩ := result
  obtain ⟨names, taken, rfl⟩ := expandAttr_left expanded
  have fewer := (Opening.trimmedTo_without member text taken).fewer
  dsimp only
  omega

private theorem expandNamed_spends (spelling : Spelling) (name : Text) (opening : Opening) :
    (expandNamed spelling name opening).Spends opening.attrs.length fun result =>
      result.2.attrs.length := by
  cases found : opening.first? name with
  | none =>
      rw [expandNamed_of_absent found]
      exact .pure (Nat.le_refl _)
  | some attr =>
      rw [expandNamed_of_first? found]
      have text : attr.name.IsText := ⟨name, Opening.name_of_first? found⟩
      exact (expandAttr_spends (Opening.mem_of_first? found) text).bind fun _ _ =>
        .pure (Nat.le_refl _)

private theorem expand_spends (spelling : Spelling) (opening : Opening) :
    (expand spelling opening).Spends opening.attrs.length fun result => result.2.attrs.length := by
  refine (expandNamed_spends spelling spelling.ifDirective opening).bind fun conditions _ => ?_
  refine (expandNamed_spends spelling spelling.forDirective conditions.2).bind fun loops _ => ?_
  exact .pure (Nat.le_refl _)

private theorem expandSlot_spends (slot : opening.slot? spelling = some attr) :
    (expandSlot spelling opening attr).Spends opening.attrs.length fun result =>
      result.2.attrs.length := by
  have text := Attr.text_of_begins (Opening.begins_of_slot? slot)
  refine (expandAttr_spends (List.mem_of_find?_eq_some slot) text).bind fun entry _ => ?_
  exact (expand_spends spelling entry.2).bind fun _ _ => .pure (Nat.le_refl _)

end Expansion

/-! ## Emission -/

private theorem emitAttrs_spends (spelling : Spelling) (attrs : List Attr) (owner : Option Json)
    (stock : Nat) : (emitAttrs spelling attrs owner).Spends stock fun _ => stock := by
  have merged : (mergeAttrs spelling attrs).Spends stock fun _ => stock := by
    have silent : resolutions (mergeAttrs spelling attrs).events = 0 := by
      unfold mergeAttrs
      split
      · rfl
      · rw [resolutions, List.countP_eq_zero]
        intro event member
        obtain ⟨group, _, rfl⟩ := List.mem_map.mp member
        exact Bool.false_ne_true
    exact ⟨by omega, fun _ _ => by omega⟩
  refine merged.bind fun parts _ => ?_
  refine (Traced.Spends.lift _).bind fun emitted _ => ?_
  exact (Traced.Spends.lift _).bind fun texts _ => .pure (Nat.le_refl _)

section Tags

variable {spelling : Spelling} {children : List Node}

private theorem emitSlots_spends
    (told : ∀ child ∈ children, child.holdsSlot spelling = .ok (child.isHolder spelling))
    (holding : ∀ child ∈ children, child.isHolder spelling = true →
      (child.emitHolder spelling).Spends child.attrCount fun _ => 0) :
    (Node.emitSlots spelling children).Spends
      (Node.attrCountAll (children.filter (·.isHolder spelling))) fun _ => 0 := by
  rw [Node.emitSlots_eq_concat_of_told spelling told]
  apply Traced.Spends.concat
  intro child member
  obtain ⟨among, holds⟩ := List.mem_filter.mp member
  exact holding child among holds

private theorem emitOthers_spends
    (told : ∀ child ∈ children, child.holdsSlot spelling = .ok (child.isHolder spelling))
    (standing : ∀ child ∈ children, (child.emit spelling).Spends child.attrCount fun _ => 0) :
    (Node.emitOthers spelling children).Spends
      (Node.attrCountAll (children.filter fun child => !child.isHolder spelling)) fun _ => 0 := by
  rw [Node.emitOthers_eq_concat_of_told spelling told]
  apply Traced.Spends.concat
  intro child member
  exact standing child (List.mem_filter.mp member).1

variable
  (standing : ∀ child ∈ children, (child.emit spelling).Spends child.attrCount fun _ => 0)
  (holding : ∀ child ∈ children, child.isHolder spelling = true →
    (child.emitHolder spelling).Spends child.attrCount fun _ => 0)
include standing holding

private theorem emitElement_spends (opening : Opening) :
    (emitElement spelling opening children (Node.emitSlots spelling children)
      (Node.emitOthers spelling children)).Spends (Node.attrCountAll children) fun _ => 0 := by
  -- Each child is emitted once at most: among the slots if it holds one, else in the body.
  rw [← Node.attrCountAll_filter (·.isHolder spelling) children]
  refine (Traced.Spends.lift _).bind fun name _ => ?_
  refine (emitAttrs_spends spelling _ _ _).bind fun attrs _ => ?_
  refine (Traced.Spends.lift _).bind fun family accepted => ?_
  obtain ⟨_, told⟩ := Family.of_ofChildren spelling accepted
  have slots := (emitSlots_spends told holding).frame
    (Node.attrCountAll (children.filter fun child => !child.isHolder spelling))
  simp only [Nat.zero_add] at slots
  have finish : ∀ start name : Text, Traced.Spends
      (if family.others then do
        let body ← Node.emitOthers spelling children
        return start ++ ">" ++ body ++ "</" ++ name ++ ">"
      else return start ++ " />")
      (Node.attrCountAll (children.filter fun child => !child.isHolder spelling)) fun _ => 0 := by
    intro start name
    split
    · exact (emitOthers_spends told standing).bind fun body _ => .pure (Nat.zero_le _)
    · exact .pure (Nat.zero_le _)
  dsimp only
  split
  · exact slots.bind fun _ _ => finish _ _
  · exact (finish _ _).mono (Nat.le_add_left _ _) fun _ => Nat.le_refl 0

private theorem emitTag_spends {expansion : Traced (List Wrapper × Opening)} {count : Nat}
    (expanded : expansion.Spends count fun result => result.2.attrs.length) :
    (emitTag spelling expansion children (Node.emitSlots spelling children)
      (Node.emitOthers spelling children)).Spends (count + Node.attrCountAll children)
      fun _ => 0 := by
  refine (expanded.frame (Node.attrCountAll children)).bind fun result _ => ?_
  have element := emitElement_spends standing holding result.2
  refine (element.mono (Nat.le_add_left _ result.2.attrs.length) fun _ => Nat.le_refl 0).bind
    fun body _ => ?_
  exact .pure (Nat.le_refl 0)

end Tags

theorem emit_spends (spelling : Spelling) (node : Node) :
    ((node.emit spelling).Spends node.attrCount fun _ => 0) ∧
      (node.isHolder spelling = true →
        (node.emitHolder spelling).Spends node.attrCount fun _ => 0) := by
  induction node.arbitrary with
  | block _ ih =>
      refine ⟨?_, fun holds => by cases holds⟩
      rw [Node.emit, Node.emitAll_eq_concat, Node.attrCount]
      exact .concat fun child member => (ih child member).1
  | @tag opening children _ _ ih =>
      have standing := fun child member => (ih child member).1
      have holding := fun child member => (ih child member).2
      constructor
      · rw [Node.emit, Node.attrCount]
        exact emitTag_spends standing holding (expand_spends spelling opening)
      · intro holds
        obtain ⟨slot, found⟩ := Option.isSome_iff_exists.mp holds
        rw [Node.emitHolder, found, Node.attrCount]
        exact emitTag_spends standing holding (expandSlot_spends found)
  | text _ => exact ⟨.lift _, fun holds => by cases holds⟩
  | foreign _ =>
      refine ⟨⟨Nat.le_refl 0, fun _ impossible => by cases impossible⟩, fun holds => by cases holds⟩

/-- Under every spelling, emission resolves directives one by one, each on a copy of the same tag with
the same block and fewer attributes. So it never comes back to where it was, and it resolves at most as
many directives as the tree has attributes, whether it succeeds or fails. -/
theorem emission_terminates_under_every_spelling (spelling : Spelling) :
    (∀ opening children,
        (Node.tag opening children).emit spelling = emitDirected spelling opening children) ∧
      (∀ opening attr children siblings, opening.slotAttr? spelling = .ok (some attr) →
        Node.emitSlots spelling (.tag opening children :: siblings) = (do
          let entry ← emitResolved spelling opening attr children
          let rest ← Node.emitSlots spelling siblings
          return entry ++ rest)) ∧
      (∀ opening attr wrapper left, opening.Directs spelling attr →
        (expandAttr spelling opening attr).outcome = .ok (wrapper, left) →
        opening.TrimmedTo left) ∧
      (WellFounded fun other node => Node.Needs spelling node other) ∧
      ∀ node : Node, resolutions (node.emit spelling).events ≤ node.attrCount := by
  refine ⟨emit_tag_eq spelling, ?_, ?_, Node.needs_wellFounded spelling, ?_⟩
  · intro opening attr children siblings found
    exact emitSlots_cons_of_slotAttr? found children siblings
  · intro opening attr wrapper left directs expanded
    exact directs.trimmedTo expanded
  · intro node
    exact (emit_spends spelling node).1.covered

-- The loop is spelled like a slot. It is resolved as one, its own expression fails behind that, and the
-- bound is reached.
example :
    let spelling : Spelling := { forDirective := "v-slot:a" }
    let tag : Node := .tag { name := .str "p", attrs := [⟨.str "v-slot:a", .str "'x'", {}⟩] } []
    (tag.emit spelling).outcome.isOk = false ∧
      resolutions (tag.emit spelling).events = tag.attrCount := by
  decide +kernel

end TemplateJsx
