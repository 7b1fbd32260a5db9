import TemplateJsx.Command.Run

/-!
# The program

Reads what the command needs from the system, runs it, and prints what it says.
-/

set_option autoImplicit false

namespace TemplateJsx

open Command

def readFile (path : Source.Path) : IO (Except FileFault ByteArray) := do
  match path.refusal? with
  | some fault => return .error fault
  | none =>
      try
        return .ok (← IO.FS.readBinFile path.text)
      catch
        | .noFileOrDirectory .. => return .error .missing
        | .inappropriateType .. => return .error .isDirectory
        | .invalidArgument .. => return .error .nameTooLong
        | _ => return .error .notDirectory

def sourceOf : Invocation → Option String
  | .run options => some options.source
  | _ => none

def surroundings (invocation : Invocation) : IO Surroundings := do
  let force := (← IO.getEnv "FORCE_COLOR").getD ""
  let refuse := (← IO.getEnv "NO_COLOR").getD ""
  let terminal ← (← IO.getStderr).isTty
  let colours := Terminal.wantsColours force refuse terminal
  match sourceOf invocation with
  | none => return { read := fun _ => .error .missing, colours }
  | some "-" =>
      let input ← (← IO.getStdin).readToEnd
      return { input, read := fun _ => .error .missing, colours }
  | some source =>
      let content ← readFile (Source.Path.ofString source)
      return { read := fun _ => content, colours }

def exitCode : Ending → UInt32
  | .exit code => code.toUInt32
  | .escaped _ => 1

end TemplateJsx

open TemplateJsx Command in
/-- Runs the command with the arguments of the program. -/
def main (arguments : List String) : IO UInt32 := do
  let invocation := Invocation.ofArguments arguments
  let outcome := invocation.perform (← surroundings invocation)
  IO.print outcome.output
  IO.eprint outcome.errors
  return exitCode outcome.ending
