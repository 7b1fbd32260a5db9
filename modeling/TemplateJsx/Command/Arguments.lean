import TemplateJsx.Text.Digit
import TemplateJsx.Text.Literal
import TemplateJsx.Text.Search

/-!
# Arguments of the command

The command takes at most one operand, the source, and three flags. Long flags may be cut short as
long as they stay apart, and short ones may be written together. Everything after two hyphens is an
operand, and so is what looks like a negative number or holds a blank. An operand too many, like an
unknown flag, is refused at the end; a flag with a value is refused where it stands.
-/

set_option autoImplicit false

namespace TemplateJsx.Command

open Text

inductive Flag where
  | help
  | dumpTree
  | verbose
deriving DecidableEq, Repr

/-- All spellings of flags, in the order in which they are offered. -/
def spellings : List (String × Flag) :=
  [("-h", .help), ("--help", .help), ("--dump-ast", .dumpTree), ("-v", .verbose),
    ("--verbose", .verbose)]

def Flag.title : Flag → String
  | .help => "-h/--help"
  | .dumpTree => "--dump-ast"
  | .verbose => "-v/--verbose"

structure Options where
  source : String := "target.json"
  dumpTree : Bool := false
  verbose : Bool := false
deriving DecidableEq, Repr

inductive Invocation where
  | help
  | refused (message : Text)
  | run (options : Options)
deriving DecidableEq, Repr

/-! ## Single arguments -/

inductive Item where
  | operand (text : String)
  /-- A flag, whether its short form was used, and a value attached to it. -/
  | option (flag : Flag) (short : Bool) (attached : Option String)
  | unknown (text : String)
  /-- The two hyphens that end the flags. -/
  | terminator
deriving DecidableEq, Repr

def allDigits (cs : List Char) : Bool := cs.all isDecimalDigit

def isNumber (cs : List Char) : Bool :=
  (allDigits cs && !cs.isEmpty) ||
    (match cs.dropWhile isDecimalDigit with
      | '.' :: fraction => allDigits fraction && !fraction.isEmpty
      | _ => false)

def dropFinalNewline (cs : List Char) : List Char :=
  match cs.reverse with
  | '\n' :: rest => rest.reverse
  | _ => cs

def isNegativeNumber : List Char → Bool
  | '-' :: cs => isNumber (dropFinalNewline cs)
  | _ => false

def cutAtEquals (cs : List Char) : String × Option String :=
  match cs.dropWhile (· ≠ '=') with
  | [] => (String.ofList cs, none)
  | _ :: value => (String.ofList (cs.takeWhile (· ≠ '=')), some (String.ofList value))

/-- An argument that is no flag, although it begins with a hyphen. -/
def otherwise (text : String) : Item :=
  if isNegativeNumber text.toList || text.toList.contains ' ' then .operand text
  else .unknown text

def ambiguous (text : String) (candidates : List String) : Text :=
  "ambiguous option: " ++ text ++ " could match " ++ ", ".intercalate candidates

def shortened (text : String) : Except Text Item :=
  let (name, attached) := cutAtEquals text.toList
  match spellings.filter fun (spelling, _) => startsWith name spelling with
  | [] => .ok (otherwise text)
  | [(_, flag)] => .ok (.option flag false attached)
  | several => .error (ambiguous text (several.map (·.1)))

/-- Understands an argument that begins with one hyphen and is no whole flag: a short flag with more
behind it. -/
def clustered (text : String) (letter : Char) (rest : List Char) : Item :=
  match spellings.lookup (String.ofList ['-', letter]) with
  | some flag => .option flag true (some (String.ofList rest))
  | none => otherwise text

def Item.ofArgument (text : String) : Except Text Item :=
  match text.toList with
  | '-' :: second :: rest =>
      match spellings.lookup text with
      | some flag => .ok (.option flag (second ≠ '-') none)
      | none =>
          let (name, attached) := cutAtEquals text.toList
          match attached, spellings.lookup name with
          | some value, some flag => .ok (.option flag (second ≠ '-') (some value))
          | _, _ => if second = '-' then shortened text else .ok (clustered text second rest)
  | _ => .ok (.operand text)

/-- Understands the arguments one by one. After two hyphens all of them are operands. -/
def itemsOf : List String → Except Text (List Item)
  | [] => .ok []
  | text :: texts =>
      if text = "--" then .ok (.terminator :: texts.map .operand)
      else
        match Item.ofArgument text with
        | .error message => .error message
        | .ok item =>
            match itemsOf texts with
            | .error message => .error message
            | .ok items => .ok (item :: items)

/-! ## All arguments -/

/-- What has been understood so far: the flags in effect, the source if it has been given, and the
arguments nobody asked for. -/
structure Progress where
  options : Options := {}
  taken : Bool := false
  extras : List String := []
deriving DecidableEq, Repr

def ignoredValue (flag : Flag) (value : String) : Text :=
  "argument " ++ flag.title ++ ": ignored explicit argument " ++ literal value

def clusterFlags (flag : Flag) : List Char → Except Text (List Flag)
  | [] => .ok [flag]
  | letter :: letters =>
      match spellings.lookup (String.ofList ['-', letter]) with
      | none => .error (ignoredValue flag (String.ofList (letter :: letters)))
      | some next =>
          match clusterFlags next letters with
          | .error message => .error message
          | .ok flags => .ok (flag :: flags)

/-- The flags that one argument stands for. Only letters behind a short flag can be more flags. -/
def attachedFlags (flag : Flag) (short : Bool) : Option String → Except Text (List Flag)
  | none => .ok [flag]
  | some value =>
      if short && !value.isEmpty then clusterFlags flag value.toList
      else .error (ignoredValue flag value)

/-- Turns flags on. A flag for help ends the work on the arguments. -/
def Options.turnOn : List Flag → Options → Option Options
  | [], options => some options
  | .help :: _, _ => none
  | .dumpTree :: flags, options => Options.turnOn flags { options with dumpTree := true }
  | .verbose :: flags, options => Options.turnOn flags { options with verbose := true }

def Progress.take (source : String) (progress : Progress) : Progress :=
  { progress with options := { progress.options with source }, taken := true }

def Progress.extra (text : String) (progress : Progress) : Progress :=
  { progress with extras := progress.extras ++ [text] }

/-- Goes through the arguments. `swallow` tells that the source has just been given, so that two
hyphens right behind it say nothing. -/
def follow (progress : Progress) (swallow : Bool) : List Item → Invocation
  | [] =>
      if progress.extras.isEmpty then .run progress.options
      else .refused ("unrecognized arguments: " ++ " ".intercalate progress.extras)
  | .operand text :: items =>
      if progress.taken then follow (progress.extra text) false items
      else follow (progress.take text) true items
  | .terminator :: items =>
      if progress.taken && !swallow then follow (progress.extra "--") false items
      else follow progress false items
  | .unknown text :: items => follow (progress.extra text) false items
  | .option flag short attached :: items =>
      match attachedFlags flag short attached with
      | .error message => .refused message
      | .ok flags =>
          match Options.turnOn flags progress.options with
          | none => .help
          | some options => follow { progress with options } false items

def Invocation.ofArguments (arguments : List String) : Invocation :=
  match itemsOf arguments with
  | .error message => .refused message
  | .ok items => follow {} false items

end TemplateJsx.Command
