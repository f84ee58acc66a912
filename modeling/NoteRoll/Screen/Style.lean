/-!
# Styled text

Colours, styles and lines of styled text, as a terminal shows them.
-/

namespace NoteRoll

/-- A colour of the terminal. -/
inductive Color where
  | reset
  | black
  | red
  | green
  | yellow
  | blue
  | magenta
  | cyan
  | gray
  | darkGray
  | lightCyan
  | lightMagenta
  | white
  | rgb (r g b : Nat)
  deriving DecidableEq, Repr

/-- The name of a colour. -/
def Color.name : Color → String
  | .reset => "Reset"
  | .black => "Black"
  | .red => "Red"
  | .green => "Green"
  | .yellow => "Yellow"
  | .blue => "Blue"
  | .magenta => "Magenta"
  | .cyan => "Cyan"
  | .gray => "Gray"
  | .darkGray => "DarkGray"
  | .lightCyan => "LightCyan"
  | .lightMagenta => "LightMagenta"
  | .white => "White"
  | .rgb r g b => "Rgb(" ++ toString r ++ ", " ++ toString g ++ ", " ++ toString b ++ ")"

/-- How text looks. A colour that is not given leaves the one below. -/
structure Style where
  fg : Option Color := none
  bg : Option Color := none
  bold : Bool := false
  deriving DecidableEq, Repr

namespace Style

/-- The style of text of a colour. -/
def ofColor (c : Color) : Style := { fg := some c }

/-- A style with what another one gives laid over it. -/
def patch (below above : Style) : Style where
  fg := above.fg.or below.fg
  bg := above.bg.or below.bg
  bold := above.bold || below.bold

end Style

/-- Some text of one style. -/
structure Span where
  text : String
  style : Style := {}
  deriving DecidableEq, Repr

/-- A line of styled text. -/
abbrev Line := List Span

end NoteRoll
