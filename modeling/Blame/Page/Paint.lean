import Blame.Number.Text
import Blame.Settings

/-!
# Painted text

Terminal output is made of spans, each a text that may have a style. Without colour a page is the texts
of its spans; with colour, a painter has its way with those that have a style. The painter of a
terminal puts escape sequences around them.
-/

namespace Blame.Page

inductive Colour where
  | red
  | yellow
  | blue
  | cyan
  | white
  deriving DecidableEq, Repr

inductive Emphasis where
  | bold
  | dark
  deriving DecidableEq, Repr

def Colour.code : Colour → Nat
  | red => 31
  | yellow => 33
  | blue => 34
  | cyan => 36
  | white => 97

def Emphasis.code : Emphasis → Nat
  | bold => 1
  | dark => 2

/-- How a text is to look. -/
structure Style where
  colour : Option Colour := none
  emphasis : List Emphasis := []
  deriving DecidableEq, Repr

/-- A text with or without a style. -/
structure Span where
  text : Text
  style : Option Style := none
  deriving DecidableEq, Repr

/-- The start of every escape sequence. -/
def escape : CodePoint := CodePoint.ofNat 0x1B

/-- The sequence that switches on a code; zero switches all off. -/
def sequenceChars (code : Nat) : List CodePoint := escape :: .char '[' :: (Number.natDigits code ++ [.char 'm'])

/-- The text between escape sequences: that of the colour is next to it, each emphasis goes before. -/
def Style.paint (s : Style) (text : List CodePoint) : List CodePoint :=
  let coloured := match s.colour with
    | some c => sequenceChars c.code ++ text
    | none => text
  s.emphasis.foldl (fun t e => sequenceChars e.code ++ t) coloured ++ sequenceChars 0

/-- How texts are made to look. -/
abbrev Painter := Style → List CodePoint → List CodePoint

/-- The characters of a span, painted if there is a painter. -/
def Span.chars (painter : Option Painter) (s : Span) : List CodePoint :=
  match painter, s.style with
  | some paint, some style => paint style s.text.toList
  | _, _ => s.text.toList

/-- A line of spans. -/
abbrev Line := List Span

/-- Lines as a text, each ended by a line feed. -/
def linesText (painter : Option Painter) (lines : List Line) : Text :=
  Text.ofList (lines.flatMap fun l => l.flatMap (Span.chars painter) ++ [.char '\n'])

/-- Whether styled text may be coloured at all: variables of the environment decide first, then whether
standard output is a terminal. -/
def mayColour (env : Environment) (stdoutIsTerminal : Bool) : Bool :=
  if (env.nonEmpty? "ANSI_COLORS_DISABLED").isSome then false
  else if (env.nonEmpty? "NO_COLOR").isSome then false
  else if (env.nonEmpty? "FORCE_COLOR").isSome then true
  else env.get? "TERM" ≠ some ("dumb" : Text) && stdoutIsTerminal

/-- The painter of a terminal, which leaves texts alone where they may not be coloured. -/
def terminalPainter (env : Environment) (stdoutIsTerminal : Bool) : Painter := fun style text =>
  if mayColour env stdoutIsTerminal then style.paint text else text

/-- A text filled up with blanks on the right. -/
def padRight (width : Nat) (s : Text) : Text :=
  Text.ofList (s.toList ++ List.replicate (width - s.length) (.char ' '))

/-- A text filled up with blanks on the left. -/
def padLeft (width : Nat) (s : Text) : Text :=
  Text.ofList (List.replicate (width - s.length) (.char ' ') ++ s.toList)

end Blame.Page
