import Phrasebook.Text.Replace

/-!
# Styled text

Weights and colors of terminal text as escape sequences. A theme without colors shows plain text.
-/

namespace Phrasebook

/-- The weight of a text. -/
inductive Weight where
  | normal
  | bold
  | dimmed
  deriving DecidableEq, Repr

/-- The color of a text. -/
inductive Ink where
  | default
  | red
  | green
  | yellow
  | blue
  | magenta
  | cyan
  deriving DecidableEq, Repr

/-- The codes of a weight. -/
def Weight.codes : Weight → List String
  | normal => []
  | bold => ["1"]
  | dimmed => ["2"]

/-- The codes of a color. -/
def Ink.codes : Ink → List String
  | default => []
  | red => ["31"]
  | green => ["32"]
  | yellow => ["33"]
  | blue => ["34"]
  | magenta => ["35"]
  | cyan => ["36"]

/-- Whether escape sequences are written. -/
structure Theme where
  colored : Bool
  deriving DecidableEq, Repr

namespace Theme

/-- The sequence that ends all styles. -/
def reset : String := "\x1b[0m"

/-- The sequence that starts a style. -/
def opening (weight : Weight) (ink : Ink) : String :=
  "\x1b[" ++ String.intercalate ";" (weight.codes ++ ink.codes) ++ "m"

/-- The text in a style. A reset inside the text is followed by the style again. -/
def paint (theme : Theme) (weight : Weight) (ink : Ink) (text : String) : String :=
  if theme.colored then
    let start := opening weight ink
    let inner := (Text.replace reset.toList (reset ++ start).toList text.toList).1
    start ++ String.ofList inner ++ reset
  else
    text

/-- The text in a color. -/
def ink (theme : Theme) (ink : Ink) (text : String) : String :=
  theme.paint .normal ink text

end Theme

end Phrasebook
