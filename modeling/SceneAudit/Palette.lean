/-!
# Colours on a terminal

Text is coloured by escape codes around it. Plain colour is taken back by the code for the default
colour, and bold colour by the code for no attributes at all.

## Main definitions

* `Colour`, `Palette`: colours, and whether they are used.
* `Palette.paint`, `Palette.strong`: text in plain and in bold colour.
-/

namespace SceneAudit

/-- A colour of a label. -/
inductive Colour where
  | red
  | green
  | yellow
  | cyan
  deriving DecidableEq, Repr

/-- The number of a colour among the colours of a terminal. -/
def Colour.number : Colour → Nat
  | red => 9
  | green => 10
  | yellow => 11
  | cyan => 14

/-- Whether labels are coloured. -/
inductive Palette where
  | plain
  | coloured
  deriving DecidableEq, Repr

namespace Palette

/-- The escape code with the given parameters. -/
def code (parameters : String) : String :=
  "\x1b[" ++ parameters ++ "m"

/-- The escape code that switches to a colour. -/
def foreground (colour : Colour) : String :=
  code ("38;5;" ++ toString colour.number)

/-- Text in a colour. -/
def paint : Palette → Colour → String → String
  | plain, _, text => text
  | coloured, colour, text => foreground colour ++ text ++ code "39"

/-- Bold text in a colour. -/
def strong : Palette → Colour → String → String
  | plain, _, text => text
  | coloured, colour, text => foreground colour ++ code "1" ++ text ++ code "0"

end Palette

end SceneAudit
