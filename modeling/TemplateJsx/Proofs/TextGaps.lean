import Mathlib.Data.List.Perm.Basic
import TemplateJsx.Proofs.EmissionOrder
import TemplateJsx.Proofs.ExpansionProperties

/-!
# Texts stand in gaps

All that emission writes around the texts of a tree is settled by the rest of the tree: it is a list of
fixed strings with one place for a text between each two of them. Whatever the texts are, they are put
in these places one by one, in the order of emission.
-/

set_option autoImplicit false

namespace TemplateJsx

/-! ## What a text is shown as -/

/-- A text that is one interpolation from end to end is shown with one pair of braces less, and any
other text is shown as it is. -/
inductive Text.ShownAs : Text → Text → Prop where
  | interpolation {inner : Text} : inner ≠ "" →
      ShownAs ("\x7b\x7b" ++ inner ++ "\x7d\x7d") ("\x7b" ++ inner ++ "\x7d")
  | plain {value : Text} : (∀ inner : Text, inner ≠ "" → value ≠ "\x7b\x7b" ++ inner ++ "\x7d\x7d") →
      ShownAs value value

private theorem emittedText_shown (value : Text) : Text.ShownAs value (emittedText value) := by
  unfold emittedText
  split
  · next inner found =>
      obtain ⟨nonempty, shape⟩ := interpolation?_eq_some_iff.mp found
      have whole : value = "\x7b\x7b" ++ Text.ofList inner ++ "\x7d\x7d" := by
        rw [← Text.toList_inj, shape]
        simp
      have braced : Text.ofList (.char '\x7b' :: (inner ++ [.char '\x7d'])) =
          "\x7b" ++ Text.ofList inner ++ "\x7d" := by
        rw [← Text.toList_inj]
        simp
      rw [whole, braced]
      refine .interpolation ?_
      rw [ne_eq, ← Text.toList_inj, Text.toList_ofList]
      exact nonempty
  · next absent =>
      refine .plain ?_
      rintro inner nonempty rfl
      have found : interpolation? ("\x7b\x7b" ++ inner ++ "\x7d\x7d").toList = some inner.toList := by
        refine interpolation?_eq_some_iff.mpr ⟨?_, by simp⟩
        rw [ne_eq, Text.toList_eq_nil_iff]
        exact nonempty
      rw [found] at absent
      cases absent

/-! ## Patterns -/

inductive Piece where
  | fixed (text : Text)
  | place
deriving DecidableEq, Repr

namespace Piece

def places : List Piece → Nat
  | [] => 0
  | .fixed _ :: pieces => places pieces
  | .place :: pieces => places pieces + 1

def fill : List Piece → List Text → Text
  | [], _ => ""
  | .fixed text :: pieces, texts => text ++ fill pieces texts
  | .place :: pieces, text :: texts => text ++ fill pieces texts
  | .place :: _, [] => ""

def firstGap : List Piece → Text
  | .fixed text :: pieces => text ++ firstGap pieces
  | _ => ""

/-- What stands between each place and the next, and behind the last one. -/
def laterGaps : List Piece → List Text
  | [] => []
  | .fixed _ :: pieces => laterGaps pieces
  | .place :: pieces => firstGap pieces :: laterGaps pieces

private theorem places_append (first second : List Piece) :
    places (first ++ second) = places first + places second := by
  induction first with
  | nil => simp [places]
  | cons piece pieces ih =>
      cases piece with
      | fixed text => simpa [places] using ih
      | place =>
          simp only [List.cons_append, places, ih]
          omega

private theorem length_laterGaps (pieces : List Piece) :
    (laterGaps pieces).length = places pieces := by
  induction pieces with
  | nil => rfl
  | cons piece pieces ih => cases piece <;> simp [laterGaps, places, ih]

private theorem fill_append {first : List Piece} (second : List Piece) {texts : List Text}
    (others : List Text) (enough : places first = texts.length) :
    fill (first ++ second) (texts ++ others) = fill first texts ++ fill second others := by
  induction first generalizing texts with
  | nil =>
      obtain rfl := List.eq_nil_of_length_eq_zero enough.symm
      simp [fill]
  | cons piece pieces ih =>
      cases piece with
      | fixed text => simp only [List.cons_append, fill, ih enough, Text.append_assoc]
      | place =>
          cases texts with
          | nil => simp [places] at enough
          | cons text texts =>
              have fewer : places pieces = texts.length := by simpa [places] using enough
              simp only [List.cons_append, fill, ih fewer, Text.append_assoc]

private theorem fill_eq_gaps {pieces : List Piece} {texts : List Text}
    (enough : places pieces = texts.length) :
    fill pieces texts =
      firstGap pieces ++ Text.join (List.zipWith (· ++ ·) texts (laterGaps pieces)) := by
  induction pieces generalizing texts with
  | nil =>
      obtain rfl := List.eq_nil_of_length_eq_zero enough.symm
      simp [fill, firstGap]
  | cons piece pieces ih =>
      cases piece with
      | fixed text => simp only [fill, firstGap, laterGaps, ih enough, Text.append_assoc]
      | place =>
          cases texts with
          | nil => simp [places] at enough
          | cons text texts =>
              have fewer : places pieces = texts.length := by simpa [places] using enough
              simp only [fill, firstGap, laterGaps, ih fewer, List.zipWith_cons_cons,
                Text.join_cons, Text.append_assoc, Text.empty_append]

end Piece

/-! ## Skeletons -/

namespace Node

mutual

def skeleton : Node → Node
  | .block children origin => .block (skeletonList children) origin
  | .tag opening children => .tag opening (skeletonList children)
  | .text _ origin => .text (.str "") origin
  | .foreign content => .foreign content

def skeletonList : List Node → List Node
  | [] => []
  | node :: nodes => node.skeleton :: skeletonList nodes

end

private theorem skeletonList_eq_map (nodes : List Node) :
    skeletonList nodes = nodes.map skeleton := by
  induction nodes with
  | nil => rfl
  | cons node nodes ih => rw [skeletonList, ih, List.map_cons]

private theorem skeleton_eq_block {filled : Node} {children : List Node} {origin : Origin}
    (same : filled.skeleton = (Node.block children origin).skeleton) :
    ∃ filledChildren, filled = .block filledChildren origin ∧
      filledChildren.map skeleton = children.map skeleton := by
  cases filled with
  | block filledChildren _ =>
      simp only [skeleton, skeletonList_eq_map, block.injEq] at same
      exact ⟨filledChildren, by rw [same.2], same.1⟩
  | _ => simp only [skeleton, reduceCtorEq] at same

private theorem skeleton_eq_tag {filled : Node} {opening : Opening} {children : List Node}
    (same : filled.skeleton = (Node.tag opening children).skeleton) :
    ∃ filledChildren, filled = .tag opening filledChildren ∧
      filledChildren.map skeleton = children.map skeleton := by
  cases filled with
  | tag _ filledChildren =>
      simp only [skeleton, skeletonList_eq_map, tag.injEq] at same
      exact ⟨filledChildren, by rw [same.1], same.2⟩
  | _ => simp only [skeleton, reduceCtorEq] at same

private theorem skeleton_eq_text {filled : Node} {value : Json} {origin : Origin}
    (same : filled.skeleton = (Node.text value origin).skeleton) :
    ∃ filledValue, filled = .text filledValue origin := by
  cases filled with
  | text filledValue _ =>
      simp only [skeleton, text.injEq] at same
      exact ⟨filledValue, by rw [same.2]⟩
  | _ => simp only [skeleton, reduceCtorEq] at same

private theorem isHolder_skeleton (spelling : Spelling) (node : Node) :
    node.skeleton.isHolder spelling = node.isHolder spelling := by
  cases node <;> simp only [skeleton, isHolder]

private theorem map_skeleton_filter {spelling : Spelling} {nodes nodes' : List Node}
    (same : nodes.map skeleton = nodes'.map skeleton) (keep : Bool → Bool) :
    (nodes.filter fun node => keep (node.isHolder spelling)).map skeleton =
      (nodes'.filter fun node => keep (node.isHolder spelling)).map skeleton := by
  have later : ∀ nodes : List Node,
      (nodes.filter fun node => keep (node.isHolder spelling)).map skeleton =
        (nodes.map skeleton).filter fun node => keep (node.isHolder spelling) := by
    intro nodes
    rw [List.filter_map]
    simp only [Function.comp_def, isHolder_skeleton]
  rw [later, later, same]

private theorem among_of_skeleton (spelling : Spelling) {nodes nodes' : List Node}
    (same : nodes.map skeleton = nodes'.map skeleton) :
    Family.among spelling nodes = Family.among spelling nodes' := by
  have later : ∀ nodes : List Node,
      Family.among spelling (nodes.map skeleton) = Family.among spelling nodes := by
    intro nodes
    simp only [Family.among, List.any_map, Function.comp_def, isHolder_skeleton]
  rw [← later, same, later]

/-! ## Texts in the order of emission and as written -/

/-- A tree of blocks, tags and texts, with strings and flags in them. -/
abbrev Plain : Node → Prop := BuiltFrom Opening.Written Json.IsText fun _ => False

def textParts : Contributions Text where
  tag _ := []
  holder _ := []
  text
    | .str value => [value]
    | _ => []
  foreign _ := []

/-- The texts of a tree in the order of emission. -/
def texts (spelling : Spelling) : Node → List Text := gather spelling textParts

mutual

/-- The texts of a tree in the order in which they are written. -/
def writtenTexts : Node → List Text
  | .block children _ => writtenTextsList children
  | .tag _ children => writtenTextsList children
  | .text (.str value) _ => [value]
  | _ => []

def writtenTextsList : List Node → List Text
  | [] => []
  | node :: nodes => node.writtenTexts ++ writtenTextsList nodes

end

private theorem writtenTextsList_eq_flatMap (nodes : List Node) :
    writtenTextsList nodes = nodes.flatMap writtenTexts := by
  induction nodes with
  | nil => rfl
  | cons node nodes ih => rw [writtenTextsList, ih, List.flatMap_cons]

private theorem gatherHolder_texts {spelling : Spelling} {node : Node}
    (holds : node.isHolder spelling = true) :
    gatherHolder spelling textParts node = node.texts spelling := by
  cases node with
  | tag opening children => rw [gatherHolder, texts, gather, textParts]
  | _ => cases holds

theorem texts_perm_writtenTexts (spelling : Spelling) {node : Node} (plain : node.Plain) :
    (node.texts spelling).Perm node.writtenTexts := by
  induction plain with
  | @block children _ _ ih =>
      rw [texts, gather, gatherAll_eq_flatMap, writtenTexts, writtenTextsList_eq_flatMap]
      exact List.Perm.flatMap_left children ih
  | @tag opening children _ _ ih =>
      have holders : gatherHolders spelling textParts children =
          (children.filter (·.isHolder spelling)).flatMap (texts spelling) := by
        rw [gatherHolders_eq_flatMap]
        refine List.flatMap_congr ?_
        intro child member
        exact gatherHolder_texts (List.mem_filter.mp member).2
      rw [texts, gather, holders, gatherOthers_eq_flatMap, writtenTexts, writtenTextsList_eq_flatMap,
        textParts, List.nil_append]
      change (List.flatMap (texts spelling) _ ++ List.flatMap (texts spelling) _).Perm _
      rw [← List.flatMap_append]
      exact ((List.filter_append_perm _ children).flatMap_right _).trans
        (List.Perm.flatMap_left children ih)
  | text isText =>
      obtain ⟨content, rfl⟩ := isText
      rw [texts, gather, textParts, writtenTexts]
  | foreign impossible => exact impossible.elim

end Node

/-! ## Outcomes that follow a pattern -/

/-- What is settled before the texts are known, a fault or a pattern, and an outcome with texts that
agrees with it. -/
inductive Follows : Except Fault (List Piece) → List Text → Except Fault Text → Prop where
  | fails {fault : Fault} {texts : List Text} : Follows (.error fault) texts (.error fault)
  | fills {pieces : List Piece} {texts : List Text} : Piece.places pieces = texts.length →
      Follows (.ok pieces) texts (.ok (Piece.fill pieces (texts.map emittedText)))

namespace Follows

open Piece (fill places)

variable {shape shape' : Except Fault (List Piece)} {texts texts' : List Text}
  {outcome outcome' : Except Fault Text}

private theorem eq_error {fault : Fault} (follows : Follows (.error fault) texts outcome) :
    outcome = .error fault := by
  cases follows
  rfl

private theorem eq_ok {pieces : List Piece} (follows : Follows (.ok pieces) texts outcome) :
    places pieces = texts.length ∧ outcome = .ok (fill pieces (texts.map emittedText)) := by
  cases follows with
  | fills enough => exact ⟨enough, rfl⟩

def around (opened between closed : Text) (shape shape' : Except Fault (List Piece)) :
    Except Fault (List Piece) := do
  let pieces ← shape
  let pieces' ← shape'
  return .fixed opened :: (pieces ++ .fixed between :: (pieces' ++ [.fixed closed]))

private theorem surround (first : Follows shape texts outcome)
    (second : Follows shape' texts' outcome')
    {assemble : Text → Text → Text} {opened between closed : Text}
    (assembled : ∀ entries body, outcome = .ok entries → outcome' = .ok body →
      assemble entries body = opened ++ entries ++ between ++ body ++ closed) :
    Follows (around opened between closed shape shape') (texts ++ texts')
      (do return assemble (← outcome) (← outcome')) := by
  cases first with
  | fails => exact .fails
  | @fills pieces _ enough =>
      cases second with
      | fails => exact .fails
      | @fills pieces' _ enough' =>
          let whole := Piece.fixed opened :: (pieces ++ .fixed between :: (pieces' ++ [.fixed closed]))
          have filled : fill whole ((texts ++ texts').map emittedText) =
              assemble (fill pieces (texts.map emittedText))
                (fill pieces' (texts'.map emittedText)) := by
            have closing : fill (pieces' ++ [.fixed closed]) (texts'.map emittedText ++ []) =
                fill pieces' (texts'.map emittedText) ++ fill [.fixed closed] [] :=
              Piece.fill_append _ _ (by rw [List.length_map, enough'])
            rw [List.append_nil] at closing
            rw [assembled _ _ rfl rfl, List.map_append, fill,
              Piece.fill_append _ _ (by rw [List.length_map, enough]), fill, closing]
            simp only [fill, Text.append_assoc, Text.append_empty]
          change Follows (.ok whole) _ (.ok (assemble _ _))
          rw [← filled]
          refine .fills ?_
          simp only [whole, places, Piece.places_append, enough, enough', List.length_append,
            Nat.add_zero]

end Follows

/-! ## Elements and wrappers -/

private theorem wrapAll_surrounds (wrappers : List Wrapper) :
    ∃ before after, ∀ body, wrapAll wrappers body = before ++ body ++ after := by
  induction wrappers with
  | nil => exact ⟨"", "", fun body => by simp⟩
  | cons wrapper wrappers ih =>
      obtain ⟨before, after, inner⟩ := ih
      have outer : ∃ opened closed, ∀ body, wrapper.around body = opened ++ body ++ closed := by
        cases wrapper with
        | conditional condition => exact ⟨_, "\x7d", fun body => rfl⟩
        | iteration loop => exact ⟨_, "))\x7d", fun body => rfl⟩
        | slot name arguments => exact ⟨_, "),", fun body => rfl⟩
        | slotLoop loop key arguments =>
            exact ⟨_, "); return acc\x7d, \x7b\x7d)),", fun body => rfl⟩
      obtain ⟨opened, closed, outer⟩ := outer
      refine ⟨opened ++ before, after ++ closed, ?_⟩
      intro body
      rw [wrapAll_cons, inner, outer]
      simp only [Text.append_assoc]

private theorem elementText_surrounds (spelling : Spelling) (name attrs : Text) (family : Family) :
    ∃ opened between closed : Text, ∀ entries body : Text, (family.slots = false → entries = "") →
      (family.others = false → body = "") →
      elementText spelling name attrs family entries body =
        opened ++ entries ++ between ++ body ++ closed := by
  obtain ⟨slots, others⟩ := family
  let start := "<" ++ name ++ (if attrs = "" then ("" : Text) else " " ++ attrs)
  let entering : Text := if slots then " " ++ spelling.slotsProperty ++ "=\x7b\x7b" else ""
  let leaving : Text := if slots then "\x7d\x7d" else ""
  let closing : Text := if others then "</" ++ name ++ ">" else ""
  refine ⟨start ++ entering, leaving ++ (if others then (">" : Text) else " />"), closing, ?_⟩
  intro entries body noEntries noBody
  cases slots <;> cases others
  all_goals
    simp only [elementText, start, entering, leaving, closing, slotsText, noEntries, noBody,
      Bool.false_eq_true, if_false, if_true, Text.append_assoc, Text.append_empty,
      Text.empty_append]

/-! ## Trees that follow a pattern -/

namespace Node

/-- What an emitter makes of a node follows a pattern that the skeleton of the node settles. -/
def Patterned (emitter : Node → Traced Text) (lister : Node → List Text) (node : Node) : Prop :=
  ∃ shape, ∀ filled : Node, filled.Plain → filled.skeleton = node.skeleton →
    Follows shape (lister filled) (emitter filled).outcome

private theorem concat_patterned {emitter : Node → Traced Text} {lister : Node → List Text}
    {nodes : List Node} (each : ∀ node ∈ nodes, node.Patterned emitter lister) :
    ∃ shape, ∀ filled : List Node, (∀ node ∈ filled, node.Plain) →
      filled.map skeleton = nodes.map skeleton →
      Follows shape (filled.flatMap lister) (Traced.concat (filled.map emitter)).outcome := by
  induction nodes with
  | nil =>
      refine ⟨.ok [], ?_⟩
      intro filled _ same
      obtain rfl := List.map_eq_nil_iff.mp same
      exact .fills rfl
  | cons node nodes ih =>
      obtain ⟨shape, follows⟩ := each node List.mem_cons_self
      obtain ⟨shapes, allFollow⟩ := ih fun node member => each node (List.mem_cons_of_mem _ member)
      refine ⟨Follows.around "" "" "" shape shapes, ?_⟩
      intro filled plain same
      obtain ⟨first, rest, rfl, sameFirst, sameRest⟩ := List.map_eq_cons_iff.mp same
      obtain ⟨plainFirst, plainRest⟩ := List.forall_mem_cons.mp plain
      simp only [List.map_cons, List.flatMap_cons, Traced.concat, Traced.outcome_bind,
        Traced.outcome_pure]
      refine (follows first plainFirst sameFirst).surround (allFollow rest plainRest sameRest) ?_
      intro text others _ _
      simp only [Text.append_empty, Text.empty_append]

private theorem concat_filter_patterned (spelling : Spelling) (keep : Bool → Bool)
    {emitter : Node → Traced Text} {lister : Node → List Text} {nodes : List Node}
    (each : ∀ node ∈ nodes, keep (node.isHolder spelling) = true → node.Patterned emitter lister) :
    ∃ shape, ∀ filled : List Node, (∀ node ∈ filled, node.Plain) →
      filled.map skeleton = nodes.map skeleton →
      Follows shape ((filled.filter fun node => keep (node.isHolder spelling)).flatMap lister)
        (Traced.concat ((filled.filter fun node => keep (node.isHolder spelling)).map
          emitter)).outcome := by
  have kept : ∀ node ∈ nodes.filter fun node => keep (node.isHolder spelling),
      node.Patterned emitter lister := by
    intro node member
    obtain ⟨within, keeps⟩ := List.mem_filter.mp member
    exact each node within keeps
  obtain ⟨shape, follows⟩ := concat_patterned kept
  refine ⟨shape, ?_⟩
  intro filled plain same
  exact follows _ (fun node member => plain node (List.mem_filter.mp member).1)
    (map_skeleton_filter same keep)

/-- The expansion and the attributes of a tag know nothing of its children, and the children settle
which of the two kinds of children there are by their skeletons. -/
private theorem tag_patterned (spelling : Spelling) {children : List Node}
    (each : ∀ child ∈ children, child.Patterned (emit spelling) (texts spelling))
    (eachHolder : ∀ child ∈ children, child.isHolder spelling = true →
      child.Patterned (emitHolder spelling) (gatherHolder spelling textParts))
    {opening : Opening} (written : opening.Written) {expansion : Traced (List Wrapper × Opening)}
    (keeps : ∀ {wrappers left}, expansion.outcome = .ok (wrappers, left) →
      left.name = opening.name) :
    ∃ shape, ∀ filled : List Node, (∀ child ∈ filled, child.Plain) →
      filled.map skeleton = children.map skeleton →
      Follows shape
        (gatherHolders spelling textParts filled ++ gatherOthers spelling textParts filled)
        (emitTag spelling expansion filled (emitSlots spelling filled)
          (emitOthers spelling filled)).outcome := by
  obtain ⟨slotShape, slotsFollow⟩ :=
    concat_filter_patterned spelling (fun holds => holds) eachHolder
  obtain ⟨bodyShape, bodyFollows⟩ :=
    concat_filter_patterned spelling (fun holds => !holds) fun child member _ => each child member
  cases expanded : expansion.outcome with
  | error fault =>
      refine ⟨.error fault, ?_⟩
      intro filled _ _
      rw [emitTag_outcome, expanded]
      exact .fails
  | ok result =>
      obtain ⟨wrappers, left⟩ := result
      obtain ⟨name, named⟩ := written.name
      have leftNamed : left.name = .str name := (keeps expanded).trans named
      cases listed : (emitAttrs spelling left.attrs (some left.origin.place)).outcome with
      | error fault =>
          refine ⟨.error fault, ?_⟩
          intro filled plain _
          rw [emitTag_outcome, expanded, ok_bind]
          simp only [emitElement_outcome spelling leftNamed plain, listed, error_bind]
          exact .fails
      | ok attrs =>
          obtain ⟨opened, between, closed, element⟩ :=
            elementText_surrounds spelling (elementName name) attrs (Family.among spelling children)
          obtain ⟨before, after, wrapped⟩ := wrapAll_surrounds wrappers
          refine ⟨Follows.around (before ++ opened) between (closed ++ after) slotShape bodyShape, ?_⟩
          intro filled plain same
          rw [gatherHolders_eq_flatMap, gatherOthers_eq_flatMap, emitTag_outcome, expanded, ok_bind]
          simp only [emitElement_outcome spelling leftNamed plain, listed, ok_bind, bind_assoc,
            pure_bind]
          refine (slotsFollow filled plain same).surround (bodyFollows filled plain same) ?_
          intro entries body emittedEntries emittedBody
          have noEntries : (Family.among spelling children).slots = false → entries = "" := by
            intro none
            rw [← among_of_skeleton spelling same] at none
            rw [Family.holders_eq_nil none] at emittedEntries
            exact (Except.ok.inj emittedEntries).symm
          have noBody : (Family.among spelling children).others = false → body = "" := by
            intro none
            rw [← among_of_skeleton spelling same] at none
            rw [Family.others_eq_nil none] at emittedBody
            exact (Except.ok.inj emittedBody).symm
          rw [wrapped, among_of_skeleton spelling same, element entries body noEntries noBody]
          simp only [Text.append_assoc]

theorem emit_patterned (spelling : Spelling) {node : Node} (plain : node.Plain) :
    node.Patterned (emit spelling) (texts spelling) ∧
      (node.isHolder spelling = true →
        node.Patterned (emitHolder spelling) (gatherHolder spelling textParts)) := by
  induction plain with
  | block _ ih =>
      refine ⟨?_, fun holds => Bool.noConfusion holds⟩
      obtain ⟨shape, follows⟩ := concat_patterned fun child member => (ih child member).1
      refine ⟨shape, ?_⟩
      intro filled plain same
      obtain ⟨children, rfl, sameChildren⟩ := skeleton_eq_block same
      cases plain with
      | block plain =>
          rw [emit, emitAll_eq_concat, texts, gather, gatherAll_eq_flatMap]
          exact follows children plain sameChildren
  | @tag opening _ written _ ih =>
      have each := fun child member => (ih child member).1
      have eachHolder := fun child member => (ih child member).2
      constructor
      · obtain ⟨shape, follows⟩ := tag_patterned spelling each eachHolder written expand_name
        refine ⟨shape, ?_⟩
        intro filled plain same
        obtain ⟨children, rfl, sameChildren⟩ := skeleton_eq_tag same
        cases plain with
        | tag _ plain =>
            rw [emit, texts, gather]
            exact follows children plain sameChildren
      · intro holds
        obtain ⟨attr, slot⟩ := Option.isSome_iff_exists.mp holds
        have keeps : ∀ {wrappers left},
            (expandSlot spelling opening attr).outcome = .ok (wrappers, left) →
              left.name = opening.name := expandSlot_name
        obtain ⟨shape, follows⟩ := tag_patterned spelling each eachHolder written keeps
        refine ⟨shape, ?_⟩
        intro filled plain same
        obtain ⟨children, rfl, sameChildren⟩ := skeleton_eq_tag same
        cases plain with
        | tag _ plain =>
            simp only [emitHolder, slot]
            exact follows children plain sameChildren
  | text _ =>
      refine ⟨⟨.ok [.place], ?_⟩, fun holds => Bool.noConfusion holds⟩
      intro filled plain same
      obtain ⟨value, rfl⟩ := skeleton_eq_text same
      cases plain with
      | text isText =>
          obtain ⟨content, rfl⟩ := isText
          have filled : emittedText content = Piece.fill [.place] ([content].map emittedText) := by
            simp [Piece.fill]
          change Follows (.ok [.place]) [content] (.ok (emittedText content))
          rw [filled]
          exact .fills rfl
  | foreign impossible => exact impossible.elim

/-! ## Every text in its place -/

/-- Either a tree fails with one fault whatever its texts are, or the strings around its texts are
settled by the rest of it, and each text appears once between two of them. -/
theorem emit_texts_in_gaps (spelling : Spelling) {node : Node} (plain : node.Plain) :
    (∀ value, Text.ShownAs value (emittedText value)) ∧
    ((∃ fault, ∀ filled : Node, filled.Plain → filled.skeleton = node.skeleton →
        (filled.emit spelling).outcome = .error fault) ∨
      ∃ (first : Text) (rest : List Text), rest.length = node.writtenTexts.length ∧
        ∀ filled : Node, filled.Plain → filled.skeleton = node.skeleton →
          (filled.texts spelling).Perm filled.writtenTexts ∧
          (filled.emit spelling).outcome = .ok (first ++ Text.join
            (List.zipWith (· ++ ·) ((filled.texts spelling).map emittedText) rest))) := by
  refine ⟨emittedText_shown, ?_⟩
  obtain ⟨shape, follows⟩ := (emit_patterned spelling plain).1
  cases shape with
  | error fault =>
      exact .inl ⟨fault, fun filled filledPlain same => (follows filled filledPlain same).eq_error⟩
  | ok pieces =>
      refine .inr ⟨Piece.firstGap pieces, Piece.laterGaps pieces, ?_, ?_⟩
      · have ownTexts := (follows node plain rfl).eq_ok.1
        rw [Piece.length_laterGaps, ownTexts, (texts_perm_writtenTexts spelling plain).length_eq]
      · intro filled filledPlain same
        obtain ⟨enough, emitted⟩ := (follows filled filledPlain same).eq_ok
        refine ⟨texts_perm_writtenTexts spelling filledPlain, ?_⟩
        rw [emitted, Piece.fill_eq_gaps (by rw [List.length_map, enough])]

theorem emit_texts_in_gaps_of_slot :
    ∃ (first : Text) (rest : List Text), rest.length = 2 ∧
      ∀ filled : Node, filled.Plain →
        filled.skeleton = .block [.tag { name := .str "p" } [.text (.str "") {},
          .tag { name := .str "q", attrs := [{ name := .str "v-slot:top" }] }
            [.text (.str "") {}]]] {} →
        (filled.emit {}).outcome = .ok (first ++ Text.join
          (List.zipWith (· ++ ·) ((filled.texts {}).map emittedText) rest)) := by
  let node : Node := .block [.tag { name := .str "p" } [.text (.str "") {},
    .tag { name := .str "q", attrs := [{ name := .str "v-slot:top" }] } [.text (.str "") {}]]] {}
  have isPlain : node.Plain := by
    refine .block ?_
    simp only [List.forall_mem_singleton]
    refine .tag ⟨⟨_, rfl⟩, nofun⟩ ?_
    simp only [List.forall_mem_cons]
    refine ⟨.text ⟨_, rfl⟩, .tag ⟨⟨_, rfl⟩, ?_⟩ ?_, nofun⟩
    · simp only [List.forall_mem_singleton]
      exact .flag
    · simp only [List.forall_mem_singleton]
      exact .text ⟨_, rfl⟩
  have succeeds : (node.emit {}).outcome.isOk = true := by decide +kernel
  rcases (emit_texts_in_gaps {} isPlain).2 with ⟨fault, fails⟩ | ⟨first, rest, count, fills⟩
  · rw [fails node isPlain rfl] at succeeds
    cases succeeds
  · exact ⟨first, rest, count, fun filled filledPlain same => (fills filled filledPlain same).2⟩

end Node

end TemplateJsx
