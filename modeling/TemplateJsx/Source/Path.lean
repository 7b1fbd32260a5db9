import TemplateJsx.Text.Search

/-!
# Paths

A path is kept in its shortest spelling: empty parts and parts that name the place itself are left
out. A path to the parent stays, since it depends on the files.
-/

set_option autoImplicit false

namespace TemplateJsx.Source

/-- A path: its root, which is empty for a relative path, and its parts. -/
structure Path where
  root : String
  parts : List String
deriving DecidableEq, Repr

namespace Path

/-- The root of a path with this many slashes in front. Exactly two slashes are a root of their
own. -/
def rootOf : Nat → String
  | 0 => ""
  | 2 => "//"
  | _ => "/"

def ofString (s : String) : Path :=
  let slashes := (s.toList.takeWhile (· = '/')).length
  let parts := (Text.pieces '/' s.toList).map String.ofList
  { root := rootOf slashes
    parts := parts.filter fun part => part ≠ "" ∧ part ≠ "." }

/-- The spelling of a path. The path to the place itself is a point. -/
def text (path : Path) : String :=
  let spelled := path.root ++ "/".intercalate path.parts
  if spelled = "" then "." else spelled

end Path

end TemplateJsx.Source
