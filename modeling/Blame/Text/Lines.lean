import Blame.Text.Basic

/-!
# Line ends

A text file may end its lines by a line feed, a carriage return or both; in memory a line feed stands
for each of them.
-/

namespace Blame.Text

/-- Every line end as a single line feed. -/
def unixLines : List CodePoint → List CodePoint
  | [] => []
  | .char '\r' :: .char '\n' :: rest => .char '\n' :: unixLines rest
  | .char '\r' :: rest => .char '\n' :: unixLines rest
  | c :: rest => c :: unixLines rest

/-- The pieces between the occurrences of a character; there is always one more than occurrences. -/
def splitChar (sep : CodePoint) : List CodePoint → List (List CodePoint)
  | [] => [[]]
  | c :: rest =>
    if c = sep then [] :: splitChar sep rest
    else
      match splitChar sep rest with
      | [] => [[c]]
      | piece :: pieces => (c :: piece) :: pieces

/-- The pieces put together with a character between each two. -/
def joinChar (sep : CodePoint) : List (List CodePoint) → List CodePoint
  | [] => []
  | [piece] => piece
  | piece :: pieces => piece ++ sep :: joinChar sep pieces

/-- Whether `part` occurs in `cs`. -/
def occursIn (part : List CodePoint) : List CodePoint → Bool
  | [] => part.isEmpty
  | c :: rest => part.isPrefixOf (c :: rest) || occursIn part rest

end Blame.Text
