import TemplateJsx.Proofs.ReadableTree

/-!
# One way to read what is emitted

What is emitted for a readable tree, whatever follows it, tells the tree. Each part is read off its
first characters: a word goes as far as its characters do, a value as far as its closing quote, and a
list of children as far as the next closing tag.
-/

set_option autoImplicit false

namespace TemplateJsx

open Text

namespace Header

/-! ## Attributes -/

def EndsAttrs (rest : List CodePoint) : Prop :=
  (∃ later, rest = .char '>' :: later) ∨ ∃ later, rest = .char ' ' :: .char '/' :: later

def ClearItem (item : Text × Option Text) : Prop :=
  Over CodePoint.isAlphanum item.1 ∧ ∀ value ∈ item.2, .char '\x22' ∉ value.toList

private theorem attrs_head (items : List (Text × Option Text)) {rest : List CodePoint}
    (ends : EndsAttrs rest) :
    ∀ c ∈ (items.flatMap itemChars ++ rest).head?, c = ' ' ∨ c = '>' := by
  intro c head
  cases items with
  | nil =>
      rcases ends with ⟨later, rfl⟩ | ⟨later, rfl⟩
      · exact .inr (Option.some.inj head).symm
      · exact .inl (Option.some.inj head).symm
  | cons item items => exact .inl (Option.some.inj head).symm

private theorem value_stops (value : Option Text) {rest : List CodePoint}
    (head : ∀ c ∈ rest.head?, c = ' ' ∨ c = '>') :
    ∀ c ∈ (valueChars value ++ rest).head?, c.isAlphanum = false := by
  intro c first
  cases value with
  | none => rcases head c first with rfl | rfl <;> decide
  | some text =>
      obtain rfl := Option.some.inj first
      decide

private theorem value_eq {value value' : Option Text}
    (clear : ∀ text ∈ value, .char '\x22' ∉ text.toList)
    (clear' : ∀ text ∈ value', .char '\x22' ∉ text.toList) {rest rest' : List CodePoint}
    (head : ∀ c ∈ rest.head?, c = ' ' ∨ c = '>') (head' : ∀ c ∈ rest'.head?, c = ' ' ∨ c = '>')
    (same : valueChars value ++ rest = valueChars value' ++ rest') :
    value = value' ∧ rest = rest' := by
  cases value with
  | none =>
      cases value' with
      | none => exact ⟨rfl, same⟩
      | some text' =>
          change rest = _ at same
          rw [same] at head
          exact absurd (head '=' rfl) (by decide)
  | some text =>
      cases value' with
      | none =>
          change _ = rest' at same
          rw [← same] at head'
          exact absurd ( head' '=' rfl) (by decide)
      | some text' =>
          simp only [valueChars, List.cons_append, List.append_assoc, List.nil_append,
            List.cons.injEq, true_and] at same
          obtain ⟨sameText, sameRest⟩ := words_eq (bne_of_not_mem (clear text rfl))
            (bne_of_not_mem (clear' text' rfl)) (by simp) (by simp) same
          exact ⟨congrArg some (Text.toList_inj.mp sameText), (List.cons.inj sameRest).2⟩

private theorem not_endsAttrs {item : Text × Option Text} (clear : ClearItem item)
    (rest : List CodePoint) : ¬ EndsAttrs (itemChars item ++ rest) := by
  obtain ⟨c, cs, shape, letter⟩ := clear.1.head
  rintro (⟨later, ends⟩ | ⟨later, ends⟩)
  · cases ends
  · rw [itemChars, shape] at ends
    cases ends
    cases letter

private theorem items_eq {items items' : List (Text × Option Text)}
    (clear : ∀ item ∈ items, ClearItem item) (clear' : ∀ item ∈ items', ClearItem item)
    {rest rest' : List CodePoint} (ends : EndsAttrs rest) (ends' : EndsAttrs rest')
    (same : items.flatMap itemChars ++ rest = items'.flatMap itemChars ++ rest') :
    items = items' ∧ rest = rest' := by
  induction items generalizing items' with
  | nil =>
      cases items' with
      | nil => exact ⟨rfl, same⟩
      | cons item' items' =>
          rw [List.flatMap_nil, List.nil_append, List.flatMap_cons, List.append_assoc] at same
          rw [same] at ends
          exact absurd ends (not_endsAttrs (clear' item' List.mem_cons_self) _)
  | cons item items ih =>
      cases items' with
      | nil =>
          rw [List.flatMap_nil, List.nil_append, List.flatMap_cons, List.append_assoc] at same
          rw [← same] at ends'
          exact absurd ends' (not_endsAttrs (clear item List.mem_cons_self) _)
      | cons item' items' =>
          obtain ⟨name, value⟩ := item
          obtain ⟨name', value'⟩ := item'
          obtain ⟨clearItem, clearItems⟩ := List.forall_mem_cons.mp clear
          obtain ⟨clearItem', clearItems'⟩ := List.forall_mem_cons.mp clear'
          simp only [List.flatMap_cons, itemChars, List.cons_append, List.append_assoc,
            List.cons.injEq, true_and] at same
          have head := attrs_head items ends
          have head' := attrs_head items' ends'
          obtain ⟨sameName, same⟩ := words_eq clearItem.1.within clearItem'.1.within
            (value_stops value head) (value_stops value' head') same
          obtain ⟨sameValue, same⟩ := value_eq clearItem.2 clearItem'.2 head head' same
          obtain ⟨sameItems, sameRest⟩ := ih clearItems clearItems' same
          have sameItem : (name, value) = (name', value') :=
            Prod.ext (Text.toList_inj.mp sameName) sameValue
          rw [sameItem, sameItems]
          exact ⟨rfl, sameRest⟩

private theorem Clear.items {header : Header} (clear : header.Clear) :
    ∀ item ∈ header.items, ClearItem item := by
  intro item member
  rcases List.mem_append.mp member with flag | value
  · obtain ⟨name, within, rfl⟩ := List.mem_map.mp flag
    exact ⟨clear.flags name within, nofun⟩
  · obtain ⟨pair, within, rfl⟩ := List.mem_map.mp value
    obtain ⟨word, unquoted⟩ := clear.values pair within
    refine ⟨word, ?_⟩
    intro text given
    rwa [← Option.some.inj given]

/-! ## Wrappers -/

/-- What begins an element or a loop, and so cannot be taken for a condition. -/
def BeginsBody (inner : List CodePoint) : Prop :=
  (∃ later, inner = .char '<' :: later) ∨
    ∃ path later, (∀ c ∈ path, isPathChar c = true) ∧
      inner = .char '\x7b' :: (path ++ .char '(' :: later)

private theorem body_ne_condition {inner : List CodePoint} (begins : BeginsBody inner)
    {condition : Text} (made : Over isPathChar condition) (inner' rest rest' : List CodePoint) :
    inner ++ rest ≠ conditionChars inner' (some condition) ++ rest' := by
  intro same
  rcases begins with ⟨later, rfl⟩ | ⟨path, later, madePath, rfl⟩
  · cases same
  · simp only [conditionChars, List.cons_append, List.append_assoc, List.cons.injEq,
      true_and] at same
    obtain ⟨_, same⟩ := words_eq madePath made.within (by simp [isPathChar, isBinderChar])
      (by simp [isPathChar, isBinderChar]) same
    cases same

private theorem condition_eq {inner inner' rest rest' : List CodePoint} (begins : BeginsBody inner)
    (begins' : BeginsBody inner') {condition condition' : Option Text}
    (made : ∀ text ∈ condition, Over isPathChar text)
    (made' : ∀ text ∈ condition', Over isPathChar text)
    (same : conditionChars inner condition ++ rest = conditionChars inner' condition' ++ rest') :
    condition = condition' ∧
      ∃ ending, inner ++ (ending ++ rest) = inner' ++ (ending ++ rest') := by
  cases condition with
  | none =>
      cases condition' with
      | none => exact ⟨rfl, [], same⟩
      | some text' => exact absurd same (body_ne_condition begins (made' text' rfl) _ _ _)
  | some text =>
      cases condition' with
      | none => exact absurd same.symm (body_ne_condition begins' (made text rfl) _ _ _)
      | some text' =>
          simp only [conditionChars, List.cons_append, List.append_assoc, List.nil_append,
            List.cons.injEq, true_and] at same
          obtain ⟨sameText, same⟩ := words_eq (made text rfl).within (made' text' rfl).within
            (by simp [isPathChar, isBinderChar]) (by simp [isPathChar, isBinderChar]) same
          simp only [List.cons.injEq, true_and] at same
          exact ⟨congrArg some (Text.toList_inj.mp sameText), ['\x7d'], same⟩

private theorem call_within {iterable : Text} (made : Over isPathChar iterable) :
    ∀ c ∈ iterable.toList ++ [.char '.', .char 'm', .char 'a', .char 'p'], isPathChar c = true := by
  intro c member
  rcases List.mem_append.mp member with inside | method
  · exact made.within c inside
  · exact List.all_eq_true.mp (by decide) c method

private theorem loop_eq {inner inner' rest rest' : List CodePoint}
    (begins : ∃ later, inner = .char '<' :: later)
    (begins' : ∃ later, inner' = .char '<' :: later) {loop loop' : Option Loop}
    (binder : ∀ given ∈ loop, Over isBinderChar given.binder)
    (binder' : ∀ given ∈ loop', Over isBinderChar given.binder)
    (iterable : ∀ given ∈ loop, Over isPathChar given.iterable)
    (iterable' : ∀ given ∈ loop', Over isPathChar given.iterable)
    (same : loopChars inner loop ++ rest = loopChars inner' loop' ++ rest') :
    loop = loop' ∧ ∃ ending, inner ++ (ending ++ rest) = inner' ++ (ending ++ rest') := by
  obtain ⟨later, rfl⟩ := begins
  obtain ⟨later', rfl⟩ := begins'
  cases loop with
  | none =>
      cases loop' with
      | none => exact ⟨rfl, [], same⟩
      | some loop' => cases same
  | some loop =>
      cases loop' with
      | none => cases same
      | some loop' =>
          have called : ∀ word tail : List CodePoint,
              word ++ .char '.' :: .char 'm' :: .char 'a' :: .char 'p' :: tail =
                (word ++ [.char '.', .char 'm', .char 'a', .char 'p']) ++ tail := by simp
          simp only [loopChars, List.cons_append, List.append_assoc, List.nil_append,
            List.cons.injEq, true_and] at same
          rw [called loop.iterable.toList, called loop'.iterable.toList] at same
          obtain ⟨sameCall, same⟩ := words_eq (call_within (iterable loop rfl))
            (call_within (iterable' loop' rfl)) (by simp [isPathChar, isBinderChar])
            (by simp [isPathChar, isBinderChar]) same
          have sameIterable := Text.toList_inj.mp (List.append_cancel_right sameCall)
          simp only [List.cons.injEq, true_and] at same
          obtain ⟨sameBinder, same⟩ := words_eq (binder loop rfl).within (binder' loop' rfl).within
            (by simp [isBinderChar]) (by simp [isBinderChar]) same
          simp only [List.cons.injEq, true_and] at same
          have sameLoop : loop = loop' := by
            obtain ⟨_, _⟩ := loop
            obtain ⟨_, _⟩ := loop'
            rw [Loop.mk.injEq]
            exact ⟨Text.toList_inj.mp sameBinder, sameIterable⟩
          refine ⟨congrArg some sameLoop, [')', ')', '\x7d'], ?_⟩
          simpa using same

private theorem begins_loopChars {inner : List CodePoint}
    (begins : ∃ later, inner = .char '<' :: later)
    {loop : Option Loop} (iterable : ∀ given ∈ loop, Over isPathChar given.iterable) :
    BeginsBody (loopChars inner loop) := by
  cases loop with
  | none => exact .inl begins
  | some loop =>
      refine .inr ⟨loop.iterable.toList ++ [.char '.', .char 'm', .char 'a', .char 'p'],
        .char '(' :: (loop.binder.toList ++
          .char ')' :: .char ' ' :: .char '=' :: .char '>' :: .char ' ' :: .char '(' ::
            (inner ++ [.char ')', .char ')', .char '\x7d'])), call_within (iterable loop rfl), ?_⟩
      simp only [loopChars, List.append_assoc, List.cons_append, List.nil_append]

end Header

/-! ## Nodes -/

def Closes (rest : List CodePoint) : Prop :=
  rest = [] ∨ ∃ later, rest = .char '<' :: .char '/' :: later

/-- The children can be told from any others that are readable. -/
def Node.ChildrenTold (children : List Node) : Prop :=
  ∀ {others : List Node}, (∀ other ∈ others, Readable other) → Separated others →
    ∀ {rest rest' : List CodePoint}, Closes rest → Closes rest' →
      children.flatMap output ++ rest = others.flatMap output ++ rest' →
      children = others ∧ rest = rest'

namespace Header

variable {header header' : Header} (clear : header.Clear) (clear' : header'.Clear)
  {children children' : List Node}

private theorem endsAttrs_closingChars (name : Text) (children : List Node)
    (rest : List CodePoint) : EndsAttrs (closingChars name children ++ rest) := by
  cases children with
  | nil => exact .inr ⟨_, rfl⟩
  | cons child children => exact .inl ⟨_, rfl⟩

private theorem closing_eq {name : Text} {rest rest' : List CodePoint}
    (told : Node.ChildrenTold children)
    (readable' : ∀ child ∈ children', child.Readable) (separated' : Node.Separated children')
    (same : closingChars name children ++ rest = closingChars name children' ++ rest') :
    children = children' ∧ rest = rest' := by
  cases children with
  | nil =>
      cases children' with
      | nil => exact ⟨rfl, by simpa [closingChars] using same⟩
      | cons child' children' => cases same
  | cons child children =>
      cases children' with
      | nil => cases same
      | cons child' children' =>
          simp only [closingChars, List.cons_append, List.append_assoc, List.cons.injEq,
            true_and] at same
          obtain ⟨sameChildren, same⟩ := told readable' separated' (.inr ⟨_, rfl⟩) (.inr ⟨_, rfl⟩) same
          refine ⟨sameChildren, ?_⟩
          simpa using same

include clear clear' in
private theorem element_eq {rest rest' : List CodePoint} (told : Node.ChildrenTold children)
    (readable' : ∀ child ∈ children', child.Readable) (separated' : Node.Separated children')
    (same : header.elementChars children ++ rest = header'.elementChars children' ++ rest') :
    header.name = header'.name ∧ header.items = header'.items ∧ children = children' ∧
      rest = rest' := by
  simp only [elementChars, List.cons_append, List.append_assoc, List.cons.injEq, true_and] at same
  have ends := endsAttrs_closingChars header.name children rest
  have ends' := endsAttrs_closingChars header'.name children' rest'
  obtain ⟨sameName, same⟩ := words_eq clear.name.within clear'.name.within
    (value_stops none (attrs_head header.items ends))
    (value_stops none (attrs_head header'.items ends')) same
  obtain ⟨sameItems, same⟩ := items_eq clear.items clear'.items ends ends' same
  have name := Text.toList_inj.mp sameName
  rw [name] at same
  obtain ⟨sameChildren, sameRest⟩ := closing_eq told readable' separated' same
  exact ⟨name, sameItems, sameChildren, sameRest⟩

private theorem plainAttrs_eq (header : Header) :
    header.plainAttrs = header.items.map fun item => match item.2 with
      | none => flag item.1
      | some value => quoted item.1 value := by
  simp [plainAttrs, items, Function.comp_def]

include clear in
private theorem Clear.begins_element (children : List Node) :
    ∃ c later, header.elementChars children = .char '<' :: c :: later ∧ c.isAlphanum = true := by
  obtain ⟨c, cs, shape, letter⟩ := clear.name.head
  exact ⟨c, _, by rw [elementChars, shape]; rfl, letter⟩

include clear clear' in
private theorem chars_eq {rest rest' : List CodePoint} (told : Node.ChildrenTold children)
    (readable' : ∀ child ∈ children', child.Readable) (separated' : Node.Separated children')
    (same : header.chars children ++ rest = header'.chars children' ++ rest') :
    header.opening = header'.opening ∧ children = children' ∧ rest = rest' := by
  have begins : ∃ later, header.elementChars children = .char '<' :: later := by
    obtain ⟨c, later, shape, _⟩ := clear.begins_element children
    exact ⟨_, shape⟩
  have begins' : ∃ later, header'.elementChars children' = .char '<' :: later := by
    obtain ⟨c, later, shape, _⟩ := clear'.begins_element children'
    exact ⟨_, shape⟩
  obtain ⟨sameCondition, ending, same⟩ := condition_eq (begins_loopChars begins clear.iterable)
    (begins_loopChars begins' clear'.iterable) clear.condition clear'.condition same
  obtain ⟨sameLoop, inner, same⟩ :=
    loop_eq begins begins' clear.binder clear'.binder clear.iterable clear'.iterable same
  obtain ⟨sameName, sameItems, sameChildren, same⟩ :=
    element_eq clear clear' told readable' separated' same
  refine ⟨?_, sameChildren, List.append_cancel_left (List.append_cancel_left same)⟩
  simp only [opening, plainAttrs_eq, sameName, sameCondition, sameLoop, sameItems]

include clear in
private theorem Clear.chars_head (children : List Node) :
    (∃ later, header.chars children = .char '\x7b' :: later) ∨
      ∃ c later, header.chars children = .char '<' :: c :: later ∧ c.isAlphanum = true := by
  rw [chars]
  cases header.condition with
  | some condition => exact .inl ⟨_, rfl⟩
  | none =>
      cases header.loop with
      | some loop => exact .inl ⟨_, rfl⟩
      | none => exact .inr (clear.begins_element children)

end Header

namespace Node

private theorem Readable.head {node : Node} (readable : node.Readable) :
    ∃ c later, node.output = c :: later ∧ isTextChar c = node.isText := by
  cases readable with
  | @text value made =>
      rw [output_text made]
      exact made.head
  | @tag header children clear readable =>
      rw [output_tag clear readable]
      rcases clear.chars_head children with ⟨later, shape⟩ | ⟨c, later, shape, _⟩
      · exact ⟨'\x7b', later, shape, rfl⟩
      · exact ⟨'<', c :: later, shape, rfl⟩

private theorem Readable.not_closes {node : Node} (readable : node.Readable)
    (rest : List CodePoint) : ¬ Closes (node.output ++ rest) := by
  obtain ⟨c, cs, shape, kind⟩ := readable.head
  rintro (empty | ⟨later, closing⟩)
  · rw [shape] at empty
    cases empty
  · cases readable with
    | text =>
        rw [shape] at closing
        obtain ⟨rfl, _⟩ := List.cons.inj closing
        cases kind
    | @tag header children clear readable =>
        rw [output_tag clear readable] at closing
        rcases clear.chars_head children with ⟨_, shape⟩ | ⟨c, _, shape, letter⟩
        · rw [shape] at closing
          cases closing
        · rw [shape] at closing
          cases closing
          cases letter

private theorem text_stops {node : Node} (isText : node.isText = true) {nodes : List Node}
    (readable : ∀ node ∈ nodes, node.Readable) (separated : Separated (node :: nodes))
    {rest : List CodePoint} (closes : Closes rest) :
    ∀ c ∈ (nodes.flatMap output ++ rest).head?, isTextChar c = false := by
  intro c first
  cases nodes with
  | nil =>
      rcases closes with rfl | ⟨later, rfl⟩
      · cases first
      · cases first
        rfl
  | cons next nodes =>
      obtain ⟨d, cs, shape, kind⟩ := (readable next List.mem_cons_self).head
      have notText : next.isText = false := by
        have apart := (List.isChain_cons_cons.mp separated).1
        simpa [isText] using apart
      rw [List.flatMap_cons, shape] at first
      cases first
      rw [kind, notText]

def TagTold (node : Node) : Prop :=
  node.isText = false → ∀ {other : Node}, other.Readable → other.isText = false →
    ∀ {rest rest' : List CodePoint}, node.output ++ rest = other.output ++ rest' →
      node = other ∧ rest = rest'

private theorem isText_eq {node other : Node} (readable : node.Readable)
    (readable' : other.Readable)
    {rest rest' : List CodePoint} (same : node.output ++ rest = other.output ++ rest') :
    node.isText = other.isText := by
  obtain ⟨c, cs, shape, kind⟩ := readable.head
  obtain ⟨c', cs', shape', kind'⟩ := readable'.head
  rw [shape, shape'] at same
  rw [← kind, ← kind', (List.cons.inj same).1]

private theorem text_eq {node other : Node} (readable : node.Readable) (readable' : other.Readable)
    (isText : node.isText = true) (isText' : other.isText = true) {rest rest' : List CodePoint}
    (stops : ∀ c ∈ rest.head?, isTextChar c = false)
    (stops' : ∀ c ∈ rest'.head?, isTextChar c = false)
    (same : node.output ++ rest = other.output ++ rest') : node = other ∧ rest = rest' := by
  cases readable with
  | tag => cases isText
  | text made =>
      cases readable' with
      | tag => cases isText'
      | text made' =>
          rw [output_text made, output_text made'] at same
          obtain ⟨sameValue, sameRest⟩ := words_eq made.within made'.within stops stops' same
          rw [Text.toList_inj.mp sameValue]
          exact ⟨rfl, sameRest⟩

theorem childrenTold {children : List Node} (readable : ∀ child ∈ children, child.Readable)
    (separated : Separated children) (told : ∀ child ∈ children, child.TagTold) :
    ChildrenTold children := by
  intro others readable' separated' rest rest' closes closes' same
  induction children generalizing others with
  | nil =>
      cases others with
      | nil => exact ⟨rfl, same⟩
      | cons other others =>
          rw [List.flatMap_nil, List.nil_append, List.flatMap_cons, List.append_assoc] at same
          rw [same] at closes
          exact absurd closes ((readable' other List.mem_cons_self).not_closes _)
  | cons child children ih =>
      cases others with
      | nil =>
          rw [List.flatMap_nil, List.nil_append, List.flatMap_cons, List.append_assoc] at same
          rw [← same] at closes'
          exact absurd closes' ((readable child List.mem_cons_self).not_closes _)
      | cons other others =>
          rw [List.flatMap_cons, List.flatMap_cons, List.append_assoc, List.append_assoc] at same
          obtain ⟨readableChild, readableChildren⟩ := List.forall_mem_cons.mp readable
          obtain ⟨readableOther, readableOthers⟩ := List.forall_mem_cons.mp readable'
          have sameKind := isText_eq readableChild readableOther same
          have first : child = other ∧
              children.flatMap output ++ rest = others.flatMap output ++ rest' := by
            cases kind : child.isText with
            | true =>
                have kind' := sameKind.symm.trans kind
                exact text_eq readableChild readableOther kind kind'
                  (text_stops kind readableChildren separated closes)
                  (text_stops kind' readableOthers separated' closes') same
            | false =>
                exact told child List.mem_cons_self kind readableOther (sameKind.symm.trans kind) same
          obtain ⟨rfl, sameLater⟩ := first
          obtain ⟨rfl, sameRest⟩ := ih readableChildren separated.of_cons
            (fun child member => told child (List.mem_cons_of_mem _ member)) readableOthers
            separated'.of_cons sameLater
          exact ⟨rfl, sameRest⟩

theorem tagTold {node : Node} (readable : node.Readable) : node.TagTold := by
  induction readable with
  | text => nofun
  | tag clear readable separated ih =>
      intro _ other readableOther isTag' rest rest' same
      cases readableOther with
      | text => cases isTag'
      | tag clear' readable' separated' =>
          rw [output_tag clear readable, output_tag clear' readable'] at same
          obtain ⟨sameOpening, sameChildren, sameRest⟩ := Header.chars_eq clear clear'
            (childrenTold readable separated ih) readable' separated' same
          rw [sameOpening, sameChildren]
          exact ⟨rfl, sameRest⟩

/-! ## Trees -/

theorem emit_readableTree {children : List Node} (readable : ∀ child ∈ children, child.Readable) :
    ((Node.block children {}).emit {}).outcome = .ok (Text.ofList (children.flatMap output)) := by
  rw [emit, emitAll_eq_concat]
  exact concat_output fun child member => emit_readable (readable child member)

/-- Readable trees are emitted, and no two of them as the same text. -/
theorem emit_readable_injective {tree other : Node} (readable : tree.ReadableTree)
    (readable' : other.ReadableTree) :
    (∃ text, (tree.emit {}).outcome = .ok text) ∧ (∃ text, (other.emit {}).outcome = .ok text) ∧
      ((tree.emit {}).outcome = (other.emit {}).outcome → tree = other) := by
  obtain ⟨children, rfl, readableChildren, separated⟩ := readable
  obtain ⟨others, rfl, readableOthers, separated'⟩ := readable'
  have emitted := emit_readableTree readableChildren
  have emitted' := emit_readableTree readableOthers
  refine ⟨⟨_, emitted⟩, ⟨_, emitted'⟩, ?_⟩
  intro same
  rw [emitted, emitted', Except.ok.injEq, Text.ofList_inj] at same
  have told : ChildrenTold children := childrenTold readableChildren separated fun child member =>
    tagTold (readableChildren child member)
  have sameChildren := told readableOthers separated' (.inl rfl) (.inl rfl)
    (by rw [List.append_nil, List.append_nil, same])
  rw [sameChildren.1]

theorem emit_tells_condition_from_loop :
    let inner : Node := .text (.str "\"/> now") {}
    let condition : Header := { name := "p", condition := some "a.map", values := [("id", "<p />")] }
    let loop : Header := { name := "p", loop := some ⟨"x", "a"⟩, flags := ["id"] }
    ((Node.block [.tag condition.opening [inner], inner] {}).emit {}).outcome ≠
      ((Node.block [.tag loop.opening [inner], inner] {}).emit {}).outcome := by
  intro inner condition loop
  have clearCondition : condition.Clear := by
    refine ⟨⟨by decide, List.all_eq_true.mp (by decide)⟩, ?_, nofun, nofun, nofun, ?_, by decide⟩
    · intro given member
      obtain rfl := Option.some.inj member
      exact ⟨by decide, List.all_eq_true.mp (by decide)⟩
    · simp only [List.forall_mem_singleton, condition]
      exact ⟨⟨by decide, List.all_eq_true.mp (by decide)⟩, by decide⟩
  have clearLoop : loop.Clear := by
    refine ⟨⟨by decide, List.all_eq_true.mp (by decide)⟩, nofun, ?_, ?_, ?_, nofun, .nil⟩
    · intro given member
      obtain rfl := Option.some.inj member
      exact ⟨by decide, List.all_eq_true.mp (by decide)⟩
    · intro given member
      obtain rfl := Option.some.inj member
      exact ⟨by decide, List.all_eq_true.mp (by decide)⟩
    · simp only [List.forall_mem_singleton, loop]
      exact ⟨by decide, List.all_eq_true.mp (by decide)⟩
  have readableInner : inner.Readable := .text ⟨by decide, List.all_eq_true.mp (by decide)⟩
  have readable : ∀ header : Header, header.Clear →
      (Node.block [.tag header.opening [inner], inner] {}).ReadableTree := by
    intro header clear
    have tag : (Node.tag header.opening [inner]).Readable :=
      .tag clear (by simpa using readableInner) (.singleton inner)
    exact ⟨_, rfl, by simp [tag, readableInner],
      List.isChain_cons_cons.mpr ⟨nofun, .singleton inner⟩⟩
  intro same
  have impossible := (emit_readable_injective (readable condition clearCondition)
    (readable loop clearLoop)).2.2 same
  revert impossible
  decide

end Node

end TemplateJsx
