import TemplateJsx.Diagnostic.Fault

/-!
# Traced computations

Work on a template leaves a trace of events, whether it succeeds or stops with a fault.
-/

set_option autoImplicit false

namespace TemplateJsx

inductive Event where
  | loading (path : String)
  | resolving (directive tag : Json)
  /-- Several attributes of one name become one. -/
  | merging (count : Nat) (name : Text)
  | compileFailed
deriving DecidableEq, Repr

def Event.line : Event → Text
  | .loading path => "DEBUG pugjsx.nodes.loader: Loading tree from " ++ path
  | .resolving directive tag =>
      "DEBUG pugjsx.compiler.directives: Resolving " ++ directive.display ++ " on <" ++
        tag.display ++ ">"
  | .merging count name =>
      "DEBUG pugjsx.compiler.attributes: Merging " ++ Text.ofList (Number.decimal count) ++ " " ++
        Text.literal name ++ " attributes"
  | .compileFailed => "DEBUG pugjsx.cli: Compile failed\n<traceback>"

structure Traced (α : Type) where
  events : List Event
  outcome : Except Fault α

namespace Traced

variable {α β : Type}

protected def pure (value : α) : Traced α := ⟨[], .ok value⟩

protected def bind (first : Traced α) (next : α → Traced β) : Traced β :=
  match first.outcome with
  | .error fault => ⟨first.events, .error fault⟩
  | .ok value =>
      let second := next value
      ⟨first.events ++ second.events, second.outcome⟩

instance : Monad Traced where
  pure := Traced.pure
  bind := Traced.bind

def tell (event : Event) : Traced Unit := ⟨[event], .ok ()⟩

def lift (outcome : Except Fault α) : Traced α := ⟨[], outcome⟩

def fail (fault : Fault) : Traced α := ⟨[], .error fault⟩

end Traced

end TemplateJsx
