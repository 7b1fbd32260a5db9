import Mathlib.Control.Monad.Basic
import TemplateJsx.Proofs.AttributeProperties
import TemplateJsx.Proofs.Brackets
import TemplateJsx.Proofs.ExpansionProperties

/-!
# Balanced output

A tree whose names, values and texts are balanced by themselves is emitted as a balanced text. Every
wrapper and every element closes what it opens, and what is changed about a name leaves its brackets
alone. The one exception is the key of a dynamic slot, which loses the brackets around it; it is put
into brackets again.
-/

set_option autoImplicit false

namespace TemplateJsx

open Text

/-! ## Balanced trees -/

/-- A written attribute whose name is balanced, and whose value is so without its quotes. Of a loop,
both sides are balanced. -/
inductive Attr.Balanced : Attr → Prop where
  | raw {name value : Text} {origin : Origin} :
      Text.Balanced name → Text.Balanced (unquote value) →
      (name = "v-for" → ∀ loop ∈ Loop.ofExpression? (unquote value),
        Text.Balanced loop.binder ∧ Text.Balanced loop.iterable) →
      Balanced ⟨.str name, .str value, origin⟩
  | flag {name : Text} {value : Bool} {origin : Origin} : Text.Balanced name →
      Balanced ⟨.str name, .bool value, origin⟩

structure Opening.Balanced (opening : Opening) : Prop where
  name : ∃ name, opening.name = .str name ∧ Text.Balanced name
  attrs : ∀ attr ∈ opening.attrs, attr.Balanced

def Json.IsBalancedText (value : Json) : Prop :=
  ∃ content, value = .str content ∧ Text.Balanced (emittedText content)

abbrev Node.Balanced : Node → Prop :=
  Node.BuiltFrom Opening.Balanced Json.IsBalancedText fun _ => True

private theorem Attr.Balanced.written {attr : Attr} (balanced : attr.Balanced) : attr.Written := by
  cases balanced with
  | raw => exact .raw
  | flag => exact .flag

private theorem Attr.Balanced.name {attr : Attr} (balanced : attr.Balanced) {name : Text}
    (named : attr.name = .str name) : Text.Balanced name := by
  cases balanced <;> cases named <;> assumption

private theorem Opening.Balanced.written {opening : Opening} (balanced : opening.Balanced) :
    opening.Written := by
  obtain ⟨name, named, _⟩ := balanced.name
  exact ⟨⟨name, named⟩, fun attr member => (balanced.attrs attr member).written⟩

private theorem Node.Balanced.written {node : Node} (balanced : node.Balanced) : node.Written :=
  balanced.imp (fun _ => Opening.Balanced.written) (fun _ ⟨content, same, _⟩ => ⟨content, same⟩)
    fun _ => id

private theorem Opening.PartOf.balanced {left opening : Opening} (part : left.PartOf opening)
    (balanced : opening.Balanced) : left.Balanced := by
  refine ⟨?_, fun attr member => balanced.attrs attr (part.attrs attr member)⟩
  rw [part.name]
  exact balanced.name

/-! ## Wrappers -/

def Wrapper.KeepsBalance (wrapper : Wrapper) : Prop :=
  ∀ {body : Text}, Text.Balanced body → Text.Balanced (wrapper.around body)

private theorem conditional_keepsBalance {condition : Text} (balanced : Text.Balanced condition) :
    (Wrapper.conditional condition).KeepsBalance := by
  intro body inner
  have word : brackets ((Wrapper.conditional condition).around body) =
      braces (brackets condition ++ brackets body) := by
    simp only [Wrapper.around_conditional, brackets_append, braces, List.append_assoc]
    rfl
  rw [Text.Balanced, word]
  exact (Nested.append balanced inner).braces

private theorem iteration_keepsBalance {loop : Loop} (binder : Text.Balanced loop.binder)
    (iterable : Text.Balanced loop.iterable) : (Wrapper.iteration loop).KeepsBalance := by
  intro body inner
  have word : brackets ((Wrapper.iteration loop).around body) =
      braces (brackets loop.iterable ++
        parens (parens (brackets loop.binder) ++ parens (brackets body))) := by
    simp only [Wrapper.around_iteration, brackets_append, braces, parens, List.append_assoc,
      List.cons_append, List.nil_append]
    rfl
  have function := (Nested.parens binder).append (Nested.parens inner)
  rw [Text.Balanced, word]
  exact (Nested.append iterable function.parens).braces

private theorem slot_keepsBalance {name arguments : Text} (named : Text.Balanced name)
    (balanced : Text.Balanced arguments) : (Wrapper.slot name arguments).KeepsBalance := by
  intro body inner
  have word : brackets ((Wrapper.slot name arguments).around body) =
      brackets name ++ (parens (brackets arguments) ++ parens (brackets body)) := by
    simp only [Wrapper.around_slot, brackets_append, parens, List.append_assoc, List.cons_append,
      List.nil_append]
    rfl
  rw [Text.Balanced, word]
  exact Nested.append named ((Nested.parens balanced).append (Nested.parens inner))

private theorem eq_of_dynamicSlot? {name key : Text} (dynamic : dynamicSlot? name = some key) :
    name = "[" ++ key ++ "]" := by
  unfold dynamicSlot? at dynamic
  split at dynamic
  · next cs shape =>
    split at dynamic
    · next inner reversed =>
      cases dynamic
      rw [← Text.toList_inj, shape, List.reverse_eq_iff.mp reversed]
      simp
    · cases dynamic
  · cases dynamic

/-- The key of a slot is balanced inside brackets. The name of a dynamic slot may be such as
`[a][b]`, whose key `a][b` is not balanced by itself. -/
private theorem slotKey_balanced {name : Text} (balanced : Text.Balanced name) :
    Nested (squares (brackets (slotKey name))) := by
  cases dynamic : dynamicSlot? name with
  | none =>
      have word : brackets (slotKey name) = brackets name := by
        simp only [slotKey, dynamic, brackets_append]
        exact List.append_nil (brackets name)
      rw [word]
      exact Nested.squares balanced
  | some key =>
      have word : squares (brackets (slotKey name)) = brackets name := by
        simp only [slotKey, dynamic]
        rw [eq_of_dynamicSlot? dynamic, brackets_append, brackets_append]
        rfl
      rw [word]
      exact balanced

private theorem slotLoop_keepsBalance {loop : Loop} {name arguments : Text}
    (binder : Text.Balanced loop.binder) (iterable : Text.Balanced loop.iterable)
    (named : Text.Balanced name) (balanced : Text.Balanced arguments) :
    (Wrapper.slotLoop loop (slotKey name) arguments).KeepsBalance := by
  intro body inner
  have word : brackets ((Wrapper.slotLoop loop (slotKey name) arguments).around body) =
      parens (brackets loop.iterable ++ parens (parens (brackets loop.binder) ++
        (braces (squares (brackets (slotKey name)) ++
          (parens (brackets arguments) ++ parens (brackets body))) ++ braces []))) := by
    simp only [Wrapper.around_slotLoop, brackets_append, braces, parens, squares,
      List.append_assoc, List.cons_append, List.nil_append]
    rfl
  have entry := (Nested.parens balanced).append (Nested.parens inner)
  have step := ((slotKey_balanced named).append entry).braces
  have reduction := (Nested.parens binder).append (step.append Nested.nil.braces)
  rw [Text.Balanced, word]
  exact (Nested.append iterable reduction.parens).parens

private theorem slotEntry_keepsBalance {name arguments : Text} (named : Text.Balanced name)
    (balanced : Text.Balanced arguments) {loop : Option Loop}
    (each : ∀ loop' ∈ loop, Text.Balanced loop'.binder ∧ Text.Balanced loop'.iterable) :
    (slotEntry name arguments loop).KeepsBalance := by
  cases loop with
  | none => exact slot_keepsBalance named balanced
  | some loop =>
      obtain ⟨binder, iterable⟩ := each loop rfl
      exact slotLoop_keepsBalance binder iterable named balanced

private theorem wrapAll_balanced {wrappers : List Wrapper}
    (each : ∀ wrapper ∈ wrappers, wrapper.KeepsBalance) {body : Text}
    (balanced : Text.Balanced body) : Text.Balanced (wrapAll wrappers body) := by
  induction wrappers with
  | nil => exact balanced
  | cons wrapper wrappers ih =>
      obtain ⟨here, later⟩ := List.forall_mem_cons.mp each
      rw [wrapAll_cons]
      exact here (ih later)

/-! ## Expansion -/

section Expansion

variable {opening : Opening} {attr : Attr}

private theorem Attr.Balanced.expression (balanced : attr.Balanced) {owner : Option Json}
    {expression : Text} (expressed : attr.expression owner = .ok expression) :
    Text.Balanced expression := by
  cases balanced with
  | raw _ value _ =>
      cases expressed
      exact value
  | flag => cases expressed

private theorem Attr.Balanced.loop (balanced : attr.Balanced) (named : attr.name = .str "v-for")
    {owner : Option Json} {loop : Loop} (understood : attr.loop owner = .ok loop) :
    Text.Balanced loop.binder ∧ Text.Balanced loop.iterable := by
  obtain ⟨expression, expressed, spelled⟩ := Attr.loop_eq_ok understood
  cases balanced with
  | raw _ _ sides =>
      cases expressed
      exact sides (Json.str.inj named) loop spelled
  | flag => cases expressed

private theorem Attr.Balanced.slotArguments (balanced : attr.Balanced) {arguments : Text}
    (given : attr.slotArguments = .ok arguments) : Text.Balanced arguments := by
  cases balanced with
  | raw _ value _ =>
      cases given
      exact value
  | flag =>
      cases given
      exact Nested.nil

private theorem condition_balanced (balanced : opening.Balanced) {wrappers : List Wrapper}
    (conditions : opening.condition {} = .ok wrappers) :
    ∀ wrapper ∈ wrappers, wrapper.KeepsBalance := by
  unfold Opening.condition at conditions
  cases found : opening.first? "v-if" with
  | none =>
      rw [found] at conditions
      cases conditions
      nofun
  | some attr =>
      rw [found] at conditions
      obtain ⟨condition, expressed, conditions⟩ := bind_eq_ok conditions
      cases conditions
      have member := Opening.mem_of_first? found
      exact List.forall_mem_singleton.mpr
        (conditional_keepsBalance ((balanced.attrs attr member).expression expressed))

private theorem loop_balanced (balanced : opening.Balanced) {loop : Option Loop}
    (read : opening.loop? {} = .ok loop) :
    ∀ loop' ∈ loop, Text.Balanced loop'.binder ∧ Text.Balanced loop'.iterable := by
  unfold Opening.loop? at read
  cases found : opening.first? "v-for" with
  | none =>
      rw [found] at read
      cases read
      nofun
  | some attr =>
      rw [found] at read
      obtain ⟨loop, understood, read⟩ := bind_eq_ok read
      cases read
      have kept := balanced.attrs attr (Opening.mem_of_first? found)
      rintro _ ⟨⟩
      exact kept.loop (Opening.name_of_first? found) understood

private theorem expand_balanced (balanced : opening.Balanced) {wrappers : List Wrapper}
    {left : Opening} (expanded : (expand {} opening).outcome = .ok (wrappers, left)) :
    ∀ wrapper ∈ wrappers, wrapper.KeepsBalance := by
  rw [expand_outcome opening Spelling.apart_default] at expanded
  obtain ⟨conditions, conditioned, expanded⟩ := bind_eq_ok expanded
  obtain ⟨loop, looped, expanded⟩ := bind_eq_ok expanded
  cases expanded
  intro wrapper member
  rcases List.mem_append.mp member with member | member
  · exact condition_balanced balanced conditioned wrapper member
  · obtain ⟨loop', among, rfl⟩ := List.mem_map.mp member
    obtain ⟨binder, iterable⟩ := loop_balanced balanced looped loop' (Option.mem_toList.mp among)
    exact iteration_keepsBalance binder iterable

private theorem expandSlot_balanced (balanced : opening.Balanced)
    (slot : opening.slot? {} = some attr) {wrappers : List Wrapper} {left : Opening}
    (expanded : (expandSlot {} opening attr).outcome = .ok (wrappers, left)) :
    ∀ wrapper ∈ wrappers, wrapper.KeepsBalance := by
  have kept := balanced.attrs attr (List.mem_of_find?_eq_some slot)
  rw [expandSlot_outcome Spelling.apart_default slot] at expanded
  obtain ⟨name, named, expanded⟩ := bind_eq_ok expanded
  obtain ⟨arguments, given, expanded⟩ := bind_eq_ok expanded
  obtain ⟨loop, looped, expanded⟩ := bind_eq_ok expanded
  obtain ⟨conditions, conditioned, expanded⟩ := bind_eq_ok expanded
  cases expanded
  have nameBalanced := (kept.name (Attr.name_of_slotName named)).of_append (by decide)
  exact List.forall_mem_cons.mpr
    ⟨slotEntry_keepsBalance nameBalanced (kept.slotArguments given)
      (loop_balanced balanced looped), condition_balanced balanced conditioned⟩

end Expansion

/-! ## Attributes -/

section Attributes

variable {attr : Attr}

private theorem braced_balanced {name expression : Text} (named : Text.Balanced name)
    (balanced : Text.Balanced expression) : Text.Balanced (braced name expression) := by
  have word : brackets (braced name expression) = brackets name ++ braces (brackets expression) := by
    simp only [braced, brackets_append, braces, List.append_assoc]
    rfl
  rw [Text.Balanced, word]
  exact Nested.append named (Nested.braces balanced)

private theorem emittedModel_balanced {target : Text} (balanced : Text.Balanced target) :
    Text.Balanced (emittedModel target) := by
  have handler : Text.Balanced ("(x) => " ++ target ++ ".value = x ") :=
    (Text.Balanced.append (by decide) balanced).append (by decide)
  exact ((braced_balanced (by decide) balanced).append (by decide)).append
    (braced_balanced (by decide) handler)

private theorem balanced_afterLongest? {marks : List Text}
    (clear : ∀ mark ∈ marks, brackets mark = [])
    {name : Text} (balanced : Text.Balanced name) {rest : List CodePoint}
    (found : afterLongest? marks name.toList = some rest) : Text.Balanced (Text.ofList rest) := by
  obtain ⟨mark, member, whole⟩ := afterLongest?_eq_some found
  have split : name = mark ++ Text.ofList rest := by
    rw [← Text.toList_inj, whole, Text.toList_append, Text.toList_ofList]
  rw [split] at balanced
  exact balanced.of_append (clear mark member)

private theorem brackets_boundName (cs : List CodePoint) :
    brackets (boundName {} cs) = brackets (Text.ofList cs) := by
  rw [boundName, brackets_ofList, brackets_ofList]
  induction cs with
  | nil => rfl
  | cons c cs ih =>
      rw [List.flatMap_cons, List.filter_append, ih]
      by_cases point : c = '.'
      · subst point
        rfl
      · rw [if_neg point]
        exact (List.filter_append [c] cs).symm

private theorem emitWritten_balanced {name raw text : Text} {place : Json}
    (named : Text.Balanced name)
    (balanced : Text.Balanced (unquote raw)) (emitted : emitWritten {} name raw place = .ok text) :
    Text.Balanced text := by
  unfold emitWritten at emitted
  split at emitted
  · cases emitted
    exact emittedModel_balanced balanced
  · split at emitted
    · next bound found =>
      dsimp only [emitBinding] at emitted
      split at emitted
      · cases emitted
      · cases emitted
        refine braced_balanced ?_ balanced
        rw [Text.Balanced, brackets_boundName]
        exact balanced_afterLongest? (by decide) named found
    · split at emitted
      · next event found =>
        cases emitted
        have rest := balanced_afterLongest? (by decide) named found
        exact braced_balanced (Text.Balanced.append (by decide) rest) balanced
      · cases emitted
        exact ((named.append (by decide)).append balanced).append (by decide)

private theorem text_balanced (balanced : attr.Balanced) {owner : Option Json} {text : Text}
    (emitted : attr.text {} owner = .ok text) : Text.Balanced text := by
  cases balanced with
  | raw named value _ => exact emitWritten_balanced named value emitted
  | @flag name value origin named =>
      cases value with
      | true =>
          cases emitted
          exact named
      | false =>
          cases emitted
          exact braced_balanced named (by decide)

private theorem plainPair_balanced (balanced : attr.Balanced) {pair : Text × Text}
    (plain : attr.plainPair? {} = some pair) : Text.Balanced pair.1 ∧ Text.Balanced pair.2 := by
  cases balanced with
  | raw named value _ =>
      simp only [Attr.plainPair?] at plain
      split at plain
      · cases plain
      · cases plain
        exact ⟨named, value⟩
  | flag => cases plain

private theorem mergedTexts_balanced {attrs : List Attr}
    (balanced : ∀ attr ∈ attrs, attr.Balanced) :
    ∀ text ∈ mergedTexts {} attrs, Text.Balanced text := by
  have pairs : ∀ pair ∈ attrs.filterMap (·.plainPair? {}),
      Text.Balanced pair.1 ∧ Text.Balanced pair.2 := by
    intro pair member
    obtain ⟨attr, among, plain⟩ := List.mem_filterMap.mp member
    exact plainPair_balanced (balanced attr among) plain
  intro text member
  obtain ⟨⟨name, values⟩, among, rfl⟩ := List.mem_map.mp member
  have grouped : Grouped (fun name value => Text.Balanced name ∧ Text.Balanced value) _ :=
    groupByName_grouped pairs
  obtain ⟨nonempty, each⟩ := grouped (name, values) among
  obtain ⟨value, first⟩ := List.exists_mem_of_ne_nil values nonempty
  have joined : Text.Balanced (Text.intercalate " " values) :=
    balanced_intercalate (by decide) fun value member => (each value member).2
  exact (((each value first).1.append (by decide)).append joined).append (by decide)

private theorem emitAttrs_balanced {attrs : List Attr} (balanced : ∀ attr ∈ attrs, attr.Balanced)
    {owner : Option Json} {text : Text}
    (emitted : (emitAttrs {} attrs owner).outcome = .ok text) : Text.Balanced text := by
  rw [emitAttrs_outcome {} fun attr member => (balanced attr member).written] at emitted
  obtain ⟨texts, made, emitted⟩ := bind_eq_ok emitted
  cases emitted
  refine balanced_intercalate (by decide) ?_
  intro text member
  rcases List.mem_append.mp member with member | merged
  · obtain ⟨attr, among, made⟩ := mapM_eq_ok made text member
    exact text_balanced (balanced attr (List.mem_filter.mp among).1) made
  · exact mergedTexts_balanced balanced text merged

end Attributes

/-! ## Trees -/

section Trees

variable {opening : Opening} {children : List Node}

private theorem elementText_balanced {name attrs entries body : Text} (named : Text.Balanced name)
    (listed : Text.Balanced attrs) (entered : Text.Balanced entries) (filled : Text.Balanced body)
    (family : Family) :
    Text.Balanced (elementText {} (elementName name) attrs family entries body) := by
  have head : Text.Balanced (elementName name) := by
    rw [Text.Balanced, brackets_elementName]
    exact named
  have slots : Text.Balanced (slotsText {} entries) := by
    have word : brackets (slotsText {} entries) = braces (braces (brackets entries)) := by
      simp only [slotsText, brackets_append, braces, List.append_assoc, List.cons_append]
      rfl
    rw [Text.Balanced, word]
    exact (Nested.braces entered).braces
  have listing : Text.Balanced (if attrs = "" then "" else " " ++ attrs) := by
    split
    · exact Nested.nil
    · exact Text.Balanced.append (by decide) listed
  have holding : Text.Balanced (if family.slots then slotsText {} entries else "") := by
    split
    · exact slots
    · exact Nested.nil
  have rest : Text.Balanced (if family.others then ">" ++ body ++ "</" ++ elementName name ++ ">"
      else " />") := by
    split
    · exact ((((Text.Balanced.append (by decide) filled).append (by decide)).append head).append
        (by decide))
    · decide
  exact (((Text.Balanced.append (by decide) head).append listing).append holding).append rest

/-- A node whose text is balanced where it stands on its own, and whose entry is so where it holds a
slot. -/
def Node.EmitsBalanced (node : Node) : Prop :=
  (∀ text, (node.emit {}).outcome = .ok text → Text.Balanced text) ∧
    (node.isHolder {} = true → ∀ text, (node.emitHolder {}).outcome = .ok text → Text.Balanced text)

private theorem emitTag_balanced {expansion : Traced (List Wrapper × Opening)} {text : Text}
    (balanced : opening.Balanced) (built : ∀ child ∈ children, child.Written)
    (part : ∀ {wrappers left}, expansion.outcome = .ok (wrappers, left) → left.PartOf opening)
    (wrapped : ∀ {wrappers left}, expansion.outcome = .ok (wrappers, left) →
      ∀ wrapper ∈ wrappers, wrapper.KeepsBalance)
    (each : ∀ child ∈ children, child.EmitsBalanced)
    (emitted : (emitTag {} expansion children (Node.emitSlots {} children)
      (Node.emitOthers {} children)).outcome = .ok text) : Text.Balanced text := by
  have named : ∀ {wrappers left}, expansion.outcome = .ok (wrappers, left) → left.name.IsText :=
    fun expanded => ((part expanded).written balanced.written).name
  obtain ⟨wrappers, left, name, attrs, entries, body, expanded, leftNamed, listed, entered, filled,
    rfl⟩ := emitTag_eq_ok named built emitted
  -- What is left of the tag has no attributes but its own, so it is balanced as the tag is.
  have leftBalanced := (part expanded).balanced balanced
  obtain ⟨name', leftNamed', nameBalanced⟩ := leftBalanced.name
  obtain rfl : name = name' := Json.str.inj (leftNamed.symm.trans leftNamed')
  have entriesBalanced : Text.Balanced entries := by
    refine Traced.of_concat_eq_ok Nested.nil (fun _ _ => .append) entered ?_
    intro entry member
    obtain ⟨child, among, rfl⟩ := List.mem_map.mp member
    obtain ⟨member, holds⟩ := List.mem_filter.mp among
    exact (each child member).2 holds
  have bodyBalanced : Text.Balanced body := by
    refine Traced.of_concat_eq_ok Nested.nil (fun _ _ => .append) filled ?_
    intro entry member
    obtain ⟨child, among, rfl⟩ := List.mem_map.mp member
    exact (each child (List.mem_filter.mp among).1).1
  exact wrapAll_balanced (wrapped expanded) (elementText_balanced nameBalanced
    (emitAttrs_balanced leftBalanced.attrs listed) entriesBalanced bodyBalanced _)

theorem emitsBalanced {node : Node} (balanced : node.Balanced) : node.EmitsBalanced := by
  induction balanced with
  | block _ ih =>
      refine ⟨?_, fun holds => Bool.noConfusion holds⟩
      intro text emitted
      rw [Node.emit, Node.emitAll_eq_concat] at emitted
      refine Traced.of_concat_eq_ok Nested.nil (fun _ _ => .append) emitted ?_
      intro text among
      obtain ⟨child, member, rfl⟩ := List.mem_map.mp among
      exact (ih child member).1
  | @tag opening children balanced built ih =>
      have written : ∀ child ∈ children, child.Written := fun child member =>
        Node.Balanced.written (built child member)
      constructor
      · intro text emitted
        exact emitTag_balanced balanced written expand_partOf (expand_balanced balanced) ih emitted
      · intro holds text emitted
        obtain ⟨attr, slot⟩ := Option.isSome_iff_exists.mp holds
        simp only [Node.emitHolder, slot] at emitted
        exact emitTag_balanced balanced written expandSlot_partOf
          (expandSlot_balanced balanced slot) ih emitted
  | text shown =>
      obtain ⟨content, rfl, balanced⟩ := shown
      refine ⟨?_, fun holds => Bool.noConfusion holds⟩
      intro text emitted
      cases emitted
      exact balanced
  | foreign _ =>
      refine ⟨?_, fun holds => Bool.noConfusion holds⟩
      intro text emitted
      cases emitted

end Trees

/-- A tree with balanced names, values and texts is emitted as a balanced text, if it is emitted at
all. -/
theorem emit_balanced {node : Node} (balanced : node.Balanced) {text : Text}
    (emitted : (node.emit {}).outcome = .ok text) : Text.Balanced text :=
  (emitsBalanced balanced).1 text emitted

theorem emit_balanced_of_dynamic_slot :
    let slot : Attr := ⟨.str "v-slot:[a][b]", .str "\"\x7bx\x7d\"", {}⟩
    let loop : Attr := ⟨.str "v-for", .str "'(r, i) in rows[0]'", {}⟩
    let condition : Attr := ⟨.str "v-if", .str "'f(r)'", {}⟩
    let holder : Node := .tag { name := .str "b", attrs := [slot, loop, condition] }
      [.text (.str "\x7b\x7br\x7d\x7d") {}]
    let tree : Node := .tag { name := .str "my-table", attrs := [⟨.str "wide", .bool false, {}⟩] }
      [holder]
    let text := "<MyTable wide=\x7bfalse\x7d scopedSlots=\x7b\x7b...(rows[0].reduce(" ++
      "(acc, r, i) => \x7bacc[a][b] = (\x7bx\x7d) => (\x7bf(r) && <b>\x7br\x7d</b>\x7d); " ++
      "return acc\x7d, \x7b\x7d)),\x7d\x7d />"
    tree.Balanced ∧ (tree.emit {}).outcome = .ok text ∧ Text.Balanced text := by
  intro slot loop condition holder tree text
  have attrs : ∀ attr ∈ [slot, loop, condition], attr.Balanced := by
    simp only [List.forall_mem_cons]
    exact ⟨.raw (by decide) (by decide) (by decide), .raw (by decide) (by decide) (by decide),
      .raw (by decide) (by decide) (by decide), nofun⟩
  have held : holder.Balanced :=
    .tag ⟨⟨_, rfl, by decide⟩, attrs⟩ (List.forall_mem_singleton.mpr (.text ⟨_, rfl, by decide⟩))
  have balanced : tree.Balanced :=
    .tag ⟨⟨_, rfl, by decide⟩, List.forall_mem_singleton.mpr (.flag (by decide))⟩
      (List.forall_mem_singleton.mpr held)
  have emitted : (tree.emit {}).outcome = .ok text := by decide +kernel
  exact ⟨balanced, emitted, emit_balanced balanced emitted⟩

end TemplateJsx
