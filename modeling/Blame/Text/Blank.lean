import Blame.Text.Printable

/-!
# Blank characters

The characters that count as blank at the ends of a setting: the Unicode spaces and separators, and the
ASCII controls that separate lines, fields or records.
-/

namespace Blame.Text

/-- First and last code point of each run of blank characters. -/
def blankRuns : List (Nat × Nat) := [
  (0x9, 0xD), (0x1C, 0x20), (0x85, 0x85), (0xA0, 0xA0), (0x1680, 0x1680), (0x2000, 0x200A),
  (0x2028, 0x2029), (0x202F, 0x202F), (0x205F, 0x205F), (0x3000, 0x3000)]

def isBlank (c : CodePoint) : Bool := inRuns blankRuns c.toNat

/-- The list without the leading and trailing elements that satisfy `p`. -/
def trimEnds (p : CodePoint → Bool) (cs : List CodePoint) : List CodePoint :=
  ((cs.dropWhile p).reverse.dropWhile p).reverse

/-- The text without blank characters at its ends. -/
def strip (s : Text) : Text := Text.ofList (trimEnds isBlank s.toList)

end Blame.Text
