import FaultDrill.Text.Blank
/-!
# Terminal styles

A styled text stands between a mark that sets the style and one that ends it. Without colour it
stands alone. Where the text itself ends a style, the style is set again.
-/
namespace FaultDrill.Report

/-- A colour of a terminal. -/
inductive Color where
  | red
  | green
  | yellow
  | blue
  | magenta
  | cyan
  deriving DecidableEq, Repr

/-- The number that a terminal knows a colour by. -/
def Color.code : Color → String
  | red => "31"
  | green => "32"
  | yellow => "33"
  | blue => "34"
  | magenta => "35"
  | cyan => "36"

/-- How a text is shown. -/
structure Style where
  bold : Bool
  dimmed : Bool
  color : Option Color
  deriving DecidableEq, Repr

namespace Style

/-- Bold, without colour. -/
def bright : Style := ⟨true, false, none⟩

/-- Dimmed, without colour. -/
def faint : Style := ⟨false, true, none⟩

/-- Bold, in a colour. -/
def strong (c : Color) : Style := ⟨true, false, some c⟩

/-- In a colour. -/
def plain (c : Color) : Style := ⟨false, false, some c⟩

/-- The codes of a style. -/
def codes (s : Style) : List String :=
  (if s.bold then ["1"] else []) ++ (if s.dimmed then ["2"] else []) ++
    (s.color.map Color.code).toList

/-- The mark that sets a style. -/
def mark (s : Style) : String := "\x1b[" ++ ";".intercalate s.codes ++ "m"

/-- The mark that ends a style. -/
def reset : String := "\x1b[0m"

/-- A text in a style, when colour is on. -/
def paint (color : Bool) (s : Style) (text : String) : String :=
  if !color || s.codes.isEmpty then text
  else
    let text := Text.replaceAll reset.toList (reset ++ s.mark).toList text.toList
    s.mark ++ String.ofList text ++ reset

end Style
end FaultDrill.Report
