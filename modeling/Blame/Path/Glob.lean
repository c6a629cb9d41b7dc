import Blame.Text.Basic

/-!
# Globs

Patterns for file names: `*` stands for any characters, slashes and line ends included, `?` for one, and
brackets for one of a set. A set starts with `!` to hold all other characters, may have ranges, and holds
a `]` that comes first; a bracket that is never closed stands for itself. No character quotes another.
-/

namespace Blame.Path.Glob

/-- A part of a set: the characters from `low` to `high`. -/
structure CharRange where
  low : CodePoint
  high : CodePoint
  deriving DecidableEq, Repr

/-- One element of a pattern. -/
inductive Item where
  | star
  | any
  | exactly (c : CodePoint)
  | oneOf (ranges : List CharRange)
  | noneOf (ranges : List CharRange)
  deriving DecidableEq, Repr

def CharRange.holds (r : CharRange) (c : CodePoint) : Bool := decide (r.low ≤ c) && decide (c ≤ r.high)

/-- Whether one character fits an item; a star is no item for one character. -/
def Item.fits (i : Item) (c : CodePoint) : Bool :=
  match i with
  | star => false
  | any => true
  | exactly d => c == d
  | oneOf rs => rs.any (·.holds c)
  | noneOf rs => !rs.any (·.holds c)

/-- Cuts the inside of a bracket at the hyphens that join two characters: such a hyphen has at least one
character before it that is not the end of a range. `room` counts the characters of the piece `current`,
kept in reverse, that have to come before a hyphen may cut. -/
def cutRanges (room : Nat) (current : List CodePoint) : List CodePoint → List (List CodePoint)
  | [] => [current.reverse]
  | c :: rest =>
    match room with
    | room + 1 => cutRanges room (c :: current) rest
    | 0 => if c = .char '-' then current.reverse :: cutRanges 2 [] rest else cutRanges 0 (c :: current) rest

/-- A hyphen at the end joins nothing and is a character of the last piece. -/
def closeLast : List (List CodePoint) → List (List CodePoint)
  | [piece, []] => [piece ++ [.char '-']]
  | piece :: pieces => piece :: closeLast pieces
  | [] => []

/-- Takes out every range that would run backwards, from the last to the first, with both its ends. -/
def dropBackward : List (List CodePoint) → List (List CodePoint)
  | [] => []
  | piece :: pieces =>
    match dropBackward pieces with
    | next :: others =>
      match piece.getLast?, next.head? with
      | some low, some high =>
        if high < low then (piece.dropLast ++ next.drop 1) :: others else piece :: next :: others
      | _, _ => piece :: next :: others
    | [] => [piece]

/-- A character of a set, or the hyphen of a range. -/
inductive SetToken where
  | char (c : CodePoint)
  | hyphen
  deriving DecidableEq, Repr

/-- The pieces as one row of tokens. -/
def setTokens : List (List CodePoint) → List SetToken
  | [] => []
  | [piece] => piece.map .char
  | piece :: pieces => piece.map .char ++ .hyphen :: setTokens pieces

/-- Reads the ranges off a row of tokens; a hyphen without a character on both sides is a character. -/
def readRanges : List SetToken → List CharRange
  | [] => []
  | .char c :: .hyphen :: .char d :: rest => ⟨c, d⟩ :: readRanges rest
  | .char c :: rest => ⟨c, c⟩ :: readRanges rest
  | .hyphen :: .hyphen :: .char d :: rest => ⟨.char '-', d⟩ :: readRanges rest
  | .hyphen :: rest => ⟨.char '-', .char '-'⟩ :: readRanges rest

/-- The item that the inside of a bracket stands for. -/
def bracketItem (inside : List CodePoint) : Item :=
  let room := if inside.head? = some (.char '!') then 2 else 1
  let tokens := setTokens (dropBackward (closeLast (cutRanges room [] inside)))
  match tokens with
  | [] => .oneOf []
  | .char '!' :: rest => if rest.isEmpty then .any else .noneOf (readRanges rest)
  | _ => .oneOf (readRanges tokens)

/-- The inside of a bracket, if it is closed: a `!` and a `]` at its start belong to it. -/
def bracketInside? (rest : List CodePoint) : Option (List CodePoint) :=
  let sign := if rest.head? = some (.char '!') then 1 else 0
  let first := if (rest.drop sign).head? = some (.char ']') then sign + 1 else sign
  let tail := (rest.drop first).takeWhile (· ≠ .char ']')
  if first + tail.length < rest.length then some (rest.take first ++ tail) else none

/-- Reads a pattern; `skip` counts characters that belong to the bracket read last. -/
def readItems (skip : Nat) : List CodePoint → List Item
  | [] => []
  | c :: rest =>
    match skip with
    | skip + 1 => readItems skip rest
    | 0 =>
      if c = .char '*' then .star :: readItems 0 rest
      else if c = .char '?' then .any :: readItems 0 rest
      else if c = .char '[' then
        match bracketInside? rest with
        | some inside => bracketItem inside :: readItems (inside.length + 1) rest
        | none => .exactly (.char '[') :: readItems 0 rest
      else .exactly c :: readItems 0 rest

/-- For each end piece of a text, from the whole text to the empty one, whether some end piece of it is
marked; the marks are given in the same order. -/
def markEarlier : List Bool → List Bool
  | [] => []
  | b :: rest =>
    let marks := markEarlier rest
    (b || marks.head?.getD false) :: marks

/-- For each end piece of a text, from the whole text to the empty one, whether the items match it. -/
def matchEnds (cs : List CodePoint) : List Item → List Bool
  | [] => cs.map (fun _ => false) ++ [true]
  | .star :: items => markEarlier (matchEnds cs items)
  | item :: items =>
    cs.zipWith (fun c after => item.fits c && after) ((matchEnds cs items).drop 1) ++ [false]

/-- Whether the pattern matches the whole text. -/
def fits (pattern : Text) (text : List CodePoint) : Bool :=
  (matchEnds text (readItems 0 pattern.toList)).head?.getD false

end Blame.Path.Glob
