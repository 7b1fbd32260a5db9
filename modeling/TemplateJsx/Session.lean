import TemplateJsx.Emission.Basic
import TemplateJsx.Tree.Agreement
import TemplateJsx.Tree.Dump
import TemplateJsx.Tree.Load

/-!
# Sessions

A session holds a tree and a place in it, a spelling, and the last diagnostic. Each request looks at
the place, moves it, or changes the tree. A request that fails leaves the session as it was, except
that a diagnostic is remembered.
-/

set_option autoImplicit false

namespace TemplateJsx

structure Session where
  spelling : Spelling := {}
  root : Node := .block [] {}
  current : Node := .block [] {}
  last : Option Diagnostic := none
  colours : Bool := false

inductive Request where
  | load (source : Json)
  | compile
  | dump (layout : Json.Layout)
  /-- Replaces the tree by what the current node is read back as. -/
  | reload (layout : Json.Layout)
  | root
  /-- Goes to a child; a negative number counts from the end. -/
  | child (index : Int)
  | without (names : List Json)
  | spell (spelling : Spelling)
  | colour (on : Bool)
  | lastReport

inductive Reply where
  | text (text : Text)
  | node (node : Node)
  | flag (flag : Bool)
  | spelling (spelling : Spelling)
  | report (report : Option Text)

namespace Session

def item? (nodes : List Node) : Int → Option Node
  | .ofNat index => nodes[index]?
  | .negSucc back => nodes.reverse[back]?

def replace (session : Session) (tree : Node) : Session :=
  { session with root := tree, current := tree }

/-- The answer to a request and the session after it, if it does not fail. -/
def answer (session : Session) : Request → Traced (Reply × Session)
  | .load source => do
      let tree ← Traced.lift (Node.ofSource source)
      let text ← Traced.lift (tree.dump .oneLine)
      return (.text text, session.replace tree)
  | .compile => do
      let text ← session.current.emit session.spelling
      return (.text text, session)
  | .dump layout => do
      let text ← Traced.lift (session.current.dump layout)
      return (.text text, session)
  | .reload layout => do
      let text ← Traced.lift (session.current.dump layout)
      let tree ← Traced.lift (Node.ofText text)
      return (.flag (tree.agrees session.current), session.replace tree)
  | .root => do
      let text ← Traced.lift (session.root.dump .oneLine)
      return (.text text, { session with current := session.root })
  | .child index =>
      match session.current.children? with
      | none => Traced.fail (.mismatch .parentWanted)
      | some children =>
          match item? children index with
          | some child => return (.node child, { session with current := child })
          | none => Traced.fail (.mismatch .childWanted)
  | .without names =>
      match session.current with
      | .tag opening children =>
          let tag := Node.tag (opening.without names) children
          return (.node tag, { session with current := tag })
      | _ => Traced.fail (.mismatch .tagWanted)
  | .spell spelling => return (.spelling spelling, { session with spelling })
  | .colour on => return (.flag on, { session with colours := on })
  | .lastReport => return (.report (session.last.map (·.report session.colours)), session)

def remember (session : Session) : Fault → Session
  | .diagnosed diagnostic => { session with last := some diagnostic }
  | _ => session

def step (session : Session) (request : Request) : Traced Reply × Session :=
  let answered := session.answer request
  match answered.outcome with
  | .ok (reply, next) => (⟨answered.events, .ok reply⟩, next)
  | .error fault => (⟨answered.events, .error fault⟩, session.remember fault)

end Session

end TemplateJsx
