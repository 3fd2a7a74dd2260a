/-!
# Ink

Listings and diagnostics may be coloured.  A printer names the colour of each piece of text, and
the ink decides whether the terminal escapes are written.
-/

namespace TensorLang

/-- The colours and weights that listings and diagnostics use. -/
inductive Colour where
  | blue
  | magenta
  | cyan
  | white
  | yellow
  | red
  | brightGreen
  | brightRed
  | dimmed
  | boldCyan
  deriving DecidableEq

/-- The parameter of the terminal's select-graphic-rendition escape for a colour. -/
def Colour.code : Colour → String
  | .blue => "34"
  | .magenta => "35"
  | .cyan => "36"
  | .white => "37"
  | .yellow => "33"
  | .red => "31"
  | .brightGreen => "92"
  | .brightRed => "91"
  | .dimmed => "2"
  | .boldCyan => "1;36"

/-- Whether text is written plainly or with colour escapes. -/
inductive Ink where
  | plain
  | coloured
  deriving DecidableEq

/-- The terminal escape that turns a colour on. -/
def Colour.escape (colour : Colour) : String := "\x1b[" ++ colour.code ++ "m"

/-- The terminal escape that turns all colours off. -/
def resetEscape : String := "\x1b[0m"

/-- The text in the given colour, closed by a reset; plain ink leaves the text as it is.  Where the
text itself turns all colours off, the colour is turned on again. -/
def Ink.paint (ink : Ink) (colour : Colour) (text : String) : String :=
  match ink with
  | .plain => text
  | .coloured =>
      let escape := colour.escape
      escape ++ text.replace resetEscape (resetEscape ++ escape) ++ resetEscape

@[simp]
theorem Ink.paint_plain (colour : Colour) (text : String) : Ink.plain.paint colour text = text :=
  rfl

/-- An opening brace, as text. -/
def braceOpen : String := "\x7b"

/-- A closing brace, as text. -/
def braceClose : String := "\x7d"

/-- The text between a pair of grave accents. -/
def quoteName (name : String) : String := "`" ++ name ++ "`"

end TensorLang
