import TemplateJsx.Source.Limits

/-!
# Files

The files that can be read, by their paths from the working directory. Every part of the path of a
file but the last is a directory.
-/

set_option autoImplicit false

namespace TemplateJsx.Source

inductive Entry where
  | file (bytes : ByteArray)
  | directory

structure FileTree where
  entries : List (List String × Entry) := []

/-- Where a walk along a path has come to. -/
inductive Place where
  /-- A place in the working directory, given by its parts from there. -/
  | within (parts : List String)
  | outside
deriving DecidableEq, Repr

def Place.above (parts : List String) : Place :=
  if parts.isEmpty then .outside else .within parts.dropLast

namespace FileTree

def add (name : String) (entry : Entry) (files : FileTree) : FileTree :=
  { entries := files.entries ++ [((Path.ofString name).parts, entry)] }

/-- What stands at a place, given by its parts from the working directory. -/
def entry? (files : FileTree) (place : List String) : Option Entry :=
  match files.entries.find? (·.1 = place) with
  | some (_, entry) => some entry
  | none =>
      if place.isEmpty || files.entries.any (place.isPrefixOf ·.1) then some .directory
      else none

/-- Walks on from a place, one part after the other. Outside the working directory nothing is known
but that there are directories upwards. -/
def walk (files : FileTree) : Place → List String → Except FileFault ByteArray
  | .outside, [] => .error .isDirectory
  | .outside, part :: parts =>
      if part = ".." then walk files .outside parts
      else if isLongName part then .error .nameTooLong
      else .error .missing
  | .within place, [] =>
      match files.entry? place with
      | some (.file bytes) => .ok bytes
      | some .directory => .error .isDirectory
      | none => .error .missing
  | .within place, part :: parts =>
      match files.entry? place with
      | none => .error .missing
      | some (.file _) => .error .notDirectory
      | some .directory =>
          if part = ".." then walk files (Place.above place) parts
          else if isLongName part then .error .nameTooLong
          else walk files (.within (place ++ [part])) parts

def read (files : FileTree) (path : Path) : Except FileFault ByteArray :=
  match path.refusal? with
  | some fault => .error fault
  | none => files.walk (if path.root = "" then .within [] else .outside) path.parts

end FileTree

end TemplateJsx.Source
