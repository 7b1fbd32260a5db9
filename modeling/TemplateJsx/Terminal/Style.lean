import TemplateJsx.Text.Basic

/-!
# Terminal styles

Styled text is wrapped in escape sequences: one for each style in front, and the one that ends all
styles behind.
-/

set_option autoImplicit false

namespace TemplateJsx.Terminal

inductive Style where
  | reset
  | bold
  | dim
  | cyan
  | green
  | yellow
  | brightRed
  | brightBlue
deriving DecidableEq, Repr

namespace Style

def sequence : Style → Text
  | .reset => "\x1b[0m"
  | .bold => "\x1b[1m"
  | .dim => "\x1b[2m"
  | .cyan => "\x1b[36m"
  | .green => "\x1b[32m"
  | .yellow => "\x1b[33m"
  | .brightRed => "\x1b[91m"
  | .brightBlue => "\x1b[94m"

def ofName? : String → Option Style
  | "reset" => some .reset
  | "bold" => some .bold
  | "dim" => some .dim
  | "cyan" => some .cyan
  | "green" => some .green
  | "yellow" => some .yellow
  | "bright_red" => some .brightRed
  | "bright_blue" => some .brightBlue
  | _ => none

end Style

/-- Wraps a text in styles, if colours are on and there is a style at all. -/
def paint (colours : Bool) (styles : List Style) (text : Text) : Text :=
  if colours && !styles.isEmpty then
    Text.join (styles.map Style.sequence) ++ text ++ Style.reset.sequence
  else text

/-- What a piece of a diagnostic is, which decides how it is styled. -/
inductive Emphasis where
  | code
  | place
  | hint
  | faint
  | link
deriving DecidableEq, Repr

def Emphasis.styles : Emphasis → List Style
  | .code => [.brightRed, .bold]
  | .place => [.cyan]
  | .hint => [.green]
  | .faint => [.dim]
  | .link => [.brightBlue]

def emphasize (colours : Bool) (emphasis : Emphasis) (text : Text) : Text :=
  paint colours emphasis.styles text

/-- Whether diagnostics are coloured. A wish for colours counts before a wish against them, an empty
wish is none, and without a wish a terminal gets colours. -/
def wantsColours (force refuse : String) (terminal : Bool) : Bool :=
  if !force.isEmpty then true
  else if !refuse.isEmpty then false
  else terminal

end TemplateJsx.Terminal
