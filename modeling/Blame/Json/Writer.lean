import Blame.Json.Value
import Blame.Number.Text
import Blame.Text.Quoted

/-!
# Writing JSON

Documents are written in ASCII, on one line or with one item a line. Characters beyond ASCII become
escapes of their UTF-16 units.
-/

namespace Blame.Json

open Number Text

/-- One UTF-16 unit as an escape. -/
def unitEscape (n : Nat) : List CodePoint := .char '\\' :: .char 'u' :: hexDigits 4 n

/-- A character inside a JSON string. -/
def escapeChar (c : CodePoint) : List CodePoint :=
  if c = .char '"' then [.char '\\', .char '"']
  else if c = .char '\\' then [.char '\\', .char '\\']
  else if c = .char '\n' then [.char '\\', .char 'n']
  else if c = .char '\r' then [.char '\\', .char 'r']
  else if c = .char '\t' then [.char '\\', .char 't']
  else if c.toNat = 0x08 then [.char '\\', .char 'b']
  else if c.toNat = 0x0C then [.char '\\', .char 'f']
  else if 0x20 ≤ c.toNat ∧ c.toNat ≤ 0x7E then [c]
  else if c.toNat < 0x10000 then unitEscape c.toNat
  else
    let n := c.toNat - 0x10000
    unitEscape (0xD800 + n / 0x400) ++ unitEscape (0xDC00 + n % 0x400)

/-- A text as a JSON string. -/
def stringLiteral (s : Text) : Text :=
  Text.ofList (.char '"' :: (s.toList.flatMap escapeChar ++ [.char '"']))

/-- A double as a JSON number; infinities and nan have spellings of their own. -/
def floatLiteral : Double → Text
  | .infinite false => "Infinity"
  | .infinite true => "-Infinity"
  | .nan => "NaN"
  | x => x.text

/-- How a document is laid out: on one line, or with each item on a line of its own, indented by a number
of blanks for each level. -/
inductive Layout where
  | oneLine
  | indented (width : Nat)
  deriving DecidableEq, Repr

/-- What separates two items at a given depth. -/
def Layout.separator (l : Layout) (depth : Nat) : Text :=
  match l with
  | oneLine => ", "
  | indented w => ",\n" ++ Text.ofList (List.replicate (w * depth) (.char ' '))

/-- What stands between a bracket and the items next to it, which lie at the given depth. -/
def Layout.lineBreak (l : Layout) (depth : Nat) : Text :=
  match l with
  | oneLine => ""
  | indented w => "\n" ++ Text.ofList (List.replicate (w * depth) (.char ' '))

mutual

/-- Writes a value that stands at a given depth. -/
def writeAt (l : Layout) (depth : Nat) : Json → Text
  | null => "null"
  | bool true => "true"
  | bool false => "false"
  | int n => intText n
  | float x => floatLiteral x
  | str s => stringLiteral s
  | list [] => "[]"
  | list (v :: rest) =>
    "[" ++ l.lineBreak (depth + 1) ++ writeAt l (depth + 1) v ++ writeItems l (depth + 1) rest
      ++ l.lineBreak depth ++ "]"
  | obj [] => "\x7b\x7d"
  | obj ((k, v) :: rest) =>
    "\x7b" ++ l.lineBreak (depth + 1) ++ stringLiteral k ++ ": " ++ writeAt l (depth + 1) v
      ++ writeMembers l (depth + 1) rest ++ l.lineBreak depth ++ "\x7d"

/-- Writes further items, each after a separator. -/
def writeItems (l : Layout) (depth : Nat) : List Json → Text
  | [] => ""
  | v :: rest => l.separator depth ++ writeAt l depth v ++ writeItems l depth rest

/-- Writes further members, each after a separator. -/
def writeMembers (l : Layout) (depth : Nat) : List (Text × Json) → Text
  | [] => ""
  | (k, v) :: rest =>
    l.separator depth ++ stringLiteral k ++ ": " ++ writeAt l depth v ++ writeMembers l depth rest

end

/-- A document in a given layout. -/
def write (l : Layout) (v : Json) : Text := writeAt l 0 v

end Blame.Json
