import TemplateJsx.Directive.Basic
import TemplateJsx.Trace

/-!
# Expansion of directives

A directive is expanded by wrapping the text of its element. The tag loses the directive, and the
next one is looked for: where a tag stands on its own, a condition and then a loop. A tag that holds
the content of a slot begins with the attribute that names the slot, and a loop on it becomes part of
the entry of that slot.
-/

set_option autoImplicit false

namespace TemplateJsx

inductive Wrapper where
  | conditional (condition : Text)
  | iteration (loop : Loop)
  | slot (name arguments : Text)
  | slotLoop (loop : Loop) (key arguments : Text)
deriving DecidableEq, Repr

def Wrapper.around (body : Text) : Wrapper → Text
  | .conditional condition => "\x7b" ++ condition ++ " && " ++ body ++ "\x7d"
  | .iteration loop =>
      "\x7b" ++ loop.iterable ++ ".map((" ++ loop.binder ++ ") => (" ++ body ++ "))\x7d"
  | .slot name arguments => "\"" ++ name ++ "\": (" ++ arguments ++ ") => (" ++ body ++ "),"
  | .slotLoop loop key arguments =>
      "...(" ++ loop.iterable ++ ".reduce((acc, " ++ loop.binder ++ ") => \x7bacc[" ++ key ++
        "] = (" ++ arguments ++ ") => (" ++ body ++ "); return acc\x7d, \x7b\x7d)),"

def wrapAll (wrappers : List Wrapper) (body : Text) : Text :=
  wrappers.foldr (fun wrapper text => wrapper.around text) body

def expandAttr (spelling : Spelling) (opening : Opening) (attr : Attr) :
    Traced (Wrapper × Opening) := do
  let place := some opening.origin.place
  let directive ← Traced.lift (Directive.ofAttr spelling attr place)
  Traced.tell (.resolving attr.name opening.name)
  match directive with
  | .conditional condition => return (.conditional condition, opening.without [attr.name])
  | .iteration loop => return (.iteration loop, opening.without [attr.name])
  | .slot name arguments =>
      match opening.find? (.str spelling.forDirective) with
      | none => return (.slot name arguments, opening.without [attr.name])
      | some forAttr =>
          let loop ← Traced.lift (forAttr.loop place)
          return (.slotLoop loop (slotKey name) arguments,
            opening.without [attr.name, forAttr.name])

def expandNamed (spelling : Spelling) (name : Text) (opening : Opening) :
    Traced (List Wrapper × Opening) :=
  match opening.find? (.str name) with
  | none => pure ([], opening)
  | some attr => do
      let (wrapper, left) ← expandAttr spelling opening attr
      return ([wrapper], left)

/-- Expands the directives of a tag that stands on its own. Expanding the condition takes all
conditions away and expanding the loop all loops, so two steps are enough. -/
def expand (spelling : Spelling) (opening : Opening) : Traced (List Wrapper × Opening) := do
  let (conditions, opening) ← expandNamed spelling spelling.ifDirective opening
  let (loops, opening) ← expandNamed spelling spelling.forDirective opening
  return (conditions ++ loops, opening)

def expandSlot (spelling : Spelling) (opening : Opening) (attr : Attr) :
    Traced (List Wrapper × Opening) := do
  let (entry, opening) ← expandAttr spelling opening attr
  let (wrappers, opening) ← expand spelling opening
  return (entry :: wrappers, opening)

end TemplateJsx
