/-!
# Text/Style — colours on a terminal

A styled text stands between an escape sequence that switches its colour and weight on and one that
switches everything off.  Whether styles are shown at all is one decision for a whole output, so the
functions take it as their first argument and give plain text where it is `false`.
-/

namespace Ascription

/-- The colours in use. -/
inductive Colour
  | red
  | green
  | yellow
  | blue
  | cyan
  deriving DecidableEq

/-- The weights in use. -/
inductive Weight
  | bold
  | dimmed
  deriving DecidableEq

/-- A colour and a weight, either of which may be missing. -/
structure Style where
  weight : Option Weight
  colour : Option Colour

def Weight.code : Weight → String
  | .bold => "1"
  | .dimmed => "2"

def Colour.code : Colour → String
  | .red => "31"
  | .green => "32"
  | .yellow => "33"
  | .blue => "34"
  | .cyan => "36"

namespace Style

/-- The character that opens an escape sequence. -/
def escape : String := "\x1b"

/-- The sequence that ends every style. -/
def reset : String := escape ++ "[0m"

/-- The sequence that starts a style: the weight, then the colour. -/
def start (s : Style) : String :=
  escape ++ "[" ++ ";".intercalate ((s.weight.map Weight.code).toList ++
    (s.colour.map Colour.code).toList) ++ "m"

/-- **A styled text.** A reset inside the text would end the style early, so the style is started
again behind it. -/
def apply (shown : Bool) (s : Style) (text : String) : String :=
  if shown then s.start ++ (reset ++ s.start).intercalate (text.splitOn reset) ++ reset else text

/-- `text` padded on the right to `width` characters. -/
def padRight (width : Nat) (text : String) : String :=
  text ++ String.ofList (List.replicate (width - text.length) ' ')

/-- `text` padded on the left to `width` characters. -/
def padLeft (width : Nat) (text : String) : String :=
  String.ofList (List.replicate (width - text.length) ' ') ++ text

/-! ## The styles in use -/

def bold : Style := ⟨some .bold, none⟩
def dimmed : Style := ⟨some .dimmed, none⟩
def red : Style := ⟨none, some .red⟩
def green : Style := ⟨none, some .green⟩
def blue : Style := ⟨none, some .blue⟩
def cyan : Style := ⟨none, some .cyan⟩
def boldRed : Style := ⟨some .bold, some .red⟩
def boldGreen : Style := ⟨some .bold, some .green⟩
def boldYellow : Style := ⟨some .bold, some .yellow⟩
def boldBlue : Style := ⟨some .bold, some .blue⟩
def boldCyan : Style := ⟨some .bold, some .cyan⟩

end Style

end Ascription
