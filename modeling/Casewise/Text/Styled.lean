/-!
# Casewise.Text.Styled -- text with colours

A styled text is a sequence of spans, each plain or in a style. Printed to a terminal that shows
colours, a styled span starts by putting everything back to normal, then sets its weight and its
colour, and ends by putting everything back again. Printed anywhere else it is its bare text.
-/

namespace Casewise.Text

/-- **A colour of letters.** -/
inductive Colour where
  | red
  | green
  | yellow
deriving Repr, DecidableEq, Inhabited

/-- **How the letters of a span look.** -/
structure Style where
  colour : Colour
  bold : Bool
deriving Repr, DecidableEq, Inhabited

/-- **A text in one style**, or in none. -/
structure Span where
  style : Option Style
  text : String
deriving Repr, DecidableEq, Inhabited

/-- **Text in several styles.** -/
abbrev Styled := List Span

/-- A control sequence that sets one property of the letters after it. -/
def control (code : List Char) : List Char := '\x1b' :: '[' :: (code ++ ['m'])

def Colour.sequence : Colour → List Char
  | .red => control ['3', '1']
  | .green => control ['3', '2']
  | .yellow => control ['3', '3']

namespace Style

/-- What puts everything back to normal. -/
def reset : List Char := control ['0']

/-- What stands before a text in a style. -/
def opening (style : Style) : List Char :=
  reset ++ (if style.bold then control ['1'] else []) ++ style.colour.sequence

end Style

namespace Span

def plain (text : String) : Span := ⟨none, text⟩

/-- A span as it is printed. -/
def chars (coloured : Bool) (span : Span) : List Char :=
  match span.style with
  | some style =>
    if coloured then style.opening ++ span.text.toList ++ Style.reset else span.text.toList
  | none => span.text.toList

end Span

namespace Styled

def chars (coloured : Bool) (spans : Styled) : List Char := spans.flatMap (Span.chars coloured)

/-- **A styled text as it is printed**, with or without colours. -/
def render (coloured : Bool) (spans : Styled) : String := String.ofList (spans.chars coloured)

/-- Printing goes span by span. -/
theorem chars_append (coloured : Bool) (a b : Styled) :
    Styled.chars coloured (a ++ b) = Styled.chars coloured a ++ Styled.chars coloured b :=
  List.flatMap_append

/-- Without colours only the texts are printed. -/
theorem chars_false (spans : Styled) :
    Styled.chars false spans = spans.flatMap fun span => span.text.toList := by
  have bare : Span.chars false = fun span => span.text.toList := by
    funext span
    unfold Span.chars
    cases span.style <;> simp
  rw [Styled.chars, bare]

end Styled

end Casewise.Text
