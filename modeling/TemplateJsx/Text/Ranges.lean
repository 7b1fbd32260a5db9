/-!
# Ranges of code points

A character class is kept as a list of closed ranges in increasing order. Looking a code point up
stops at the first range that begins above it.
-/

set_option autoImplicit false

namespace TemplateJsx.Text

def inRanges : List (Nat × Nat) → Nat → Bool
  | [], _ => false
  | (low, high) :: ranges, point =>
      if point < low then false
      else if point ≤ high then true
      else inRanges ranges point

end TemplateJsx.Text
