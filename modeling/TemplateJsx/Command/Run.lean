import TemplateJsx.Command.Arguments
import TemplateJsx.Emission.Basic
import TemplateJsx.Source.Load
import TemplateJsx.Text.Stream
import TemplateJsx.Tree.Dump

/-!
# The command

The command loads one tree, emits it and prints the result. Everything else that it has to say goes
to the error output: what it does, if asked to, the tree, if asked to, and what went wrong. The output
is strict, so a result that holds a surrogate cannot be printed; the error output is lenient.
-/

set_option autoImplicit false

namespace TemplateJsx.Command

/-- How the command ends: with an exit code, or with a fault that it does not handle. -/
inductive Ending where
  | exit (code : Nat)
  | escaped (fault : Fault)
deriving DecidableEq, Repr

structure Outcome where
  ending : Ending
  output : String := ""
  errors : String := ""
deriving DecidableEq, Repr

def usage : String := "usage: pugjsx [-h] [--dump-ast] [-v] [source]\n"

def helpText : String :=
  usage ++
  "\nCompile a Vue-flavored pug-parser AST to JSX-like text\n" ++
  "\npositional arguments:\n" ++
  "  source         pug-parser JSON AST file, or '-' for stdin (default:\n" ++
  "                 target.json)\n" ++
  "\noptions:\n" ++
  "  -h, --help     show this help message and exit\n" ++
  "  --dump-ast     Print the loaded tree to stderr\n" ++
  "  -v, --verbose  Enable debug logging\n"

def eventLines (verbose : Bool) (events : List Event) : Text :=
  if verbose then Text.join (events.map fun event => event.line ++ "\n") else ""

def loadFailure (colours : Bool) (source : String) : Fault → Text × Ending
  | .file .missing => ("pugjsx: no such file: " ++ source ++ "\n", .exit 2)
  | .notJson cause => ("pugjsx: " ++ source ++ " is not valid JSON: " ++ cause.message ++ "\n", .exit 2)
  | .diagnosed diagnostic => (diagnostic.report colours ++ "\n", .exit 1)
  | fault => ("", .escaped fault)

def emitFailure (colours verbose : Bool) : Fault → Text × Ending
  | .diagnosed diagnostic =>
      (eventLines verbose [.compileFailed] ++ diagnostic.report colours ++ "\n", .exit 1)
  | fault => ("", .escaped fault)

def treeText (show? : Bool) (tree : Node) : Except Fault Text :=
  if show? then
    match tree.dump (.blanks 2) with
    | .error fault => .error fault
    | .ok text => .ok (text ++ "\n")
  else .ok ""

/-- Emits a loaded tree. `told` is what has been said before. -/
def compile (options : Options) (colours : Bool) (told : Text) (tree : Node) : Outcome :=
  match treeText options.dumpTree tree with
  | .error fault => { ending := .escaped fault, errors := told.lenient }
  | .ok shown =>
      let emitted := tree.emit {}
      let told := told ++ shown ++ eventLines options.verbose emitted.events
      match emitted.outcome with
      | .ok text =>
          match (text ++ "\n").strict? with
          | some output => { ending := .exit 0, output, errors := told.lenient }
          | none => { ending := .escaped .unprintable, errors := told.lenient }
      | .error fault =>
          let (said, ending) := emitFailure colours options.verbose fault
          { ending, errors := (told ++ said).lenient }

def execute (options : Options) (colours : Bool) (loaded : Traced Node) : Outcome :=
  let told := eventLines options.verbose loaded.events
  match loaded.outcome with
  | .ok tree => compile options colours told tree
  | .error fault =>
      let (said, ending) := loadFailure colours options.source fault
      { ending, errors := (told ++ said).lenient }

/-- What the command finds outside: the text of the standard input, the content of files, and
whether diagnostics are coloured. -/
structure Surroundings where
  input : String := ""
  read : Source.Path → Except FileFault ByteArray
  colours : Bool := false

/-- Loads the tree of a source: a hyphen is the standard input, anything else a file. -/
def loadSource (surroundings : Surroundings) (source : String) : Traced Node :=
  if source = "-" then Traced.lift (Source.loadText surroundings.input)
  else
    let path := Source.Path.ofString source
    Source.loadFile .utf8 path (surroundings.read path)

def Invocation.perform (surroundings : Surroundings) : Invocation → Outcome
  | .help => { ending := .exit 0, output := helpText }
  | .refused message =>
      { ending := .exit 2, errors := (usage ++ "pugjsx: error: " ++ message ++ "\n").lenient }
  | .run options =>
      execute options surroundings.colours (loadSource surroundings options.source)

def run (surroundings : Surroundings) (arguments : List String) : Outcome :=
  (Invocation.ofArguments arguments).perform surroundings

end TemplateJsx.Command
