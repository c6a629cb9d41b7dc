import Blame.Text.Blank

/-!
# Reading integers

A written integer may stand between blanks, have a sign, use the decimal digits of any script and
separate digits by single underscores.
-/

namespace Blame.Text

/-- The code points of the digit zero in the scripts of Unicode 14; the other nine digits follow each. -/
def zeroDigits : List Nat := [
  0x30, 0x660, 0x6F0, 0x7C0, 0x966, 0x9E6, 0xA66, 0xAE6, 0xB66, 0xBE6,
  0xC66, 0xCE6, 0xD66, 0xDE6, 0xE50, 0xED0, 0xF20, 0x1040, 0x1090, 0x17E0,
  0x1810, 0x1946, 0x19D0, 0x1A80, 0x1A90, 0x1B50, 0x1BB0, 0x1C40, 0x1C50, 0xA620,
  0xA8D0, 0xA900, 0xA9D0, 0xA9F0, 0xAA50, 0xABF0, 0xFF10, 0x104A0, 0x10D30, 0x11066,
  0x110F0, 0x11136, 0x111D0, 0x112F0, 0x11450, 0x114D0, 0x11650, 0x116C0, 0x11730, 0x118E0,
  0x11950, 0x11C50, 0x11D50, 0x11DA0, 0x16A60, 0x16AC0, 0x16B50, 0x1D7CE, 0x1D7D8, 0x1D7E2,
  0x1D7EC, 0x1D7F6, 0x1E140, 0x1E2F0, 0x1E950, 0x1FBF0]

/-- The value of a decimal digit of any script. -/
def digitValue? (c : CodePoint) : Option Nat :=
  (zeroDigits.find? fun z => decide (z ≤ c.toNat) && decide (c.toNat ≤ z + 9)).map (c.toNat - ·)

/-- More digits than this are refused. -/
def digitLimit : Nat := 4300

/-- The blanks allowed around an integer; the separators of records are not among them. -/
def isNumberBlank (c : CodePoint) : Bool :=
  isBlank c && !(decide (0x1C ≤ c.toNat) && decide (c.toNat ≤ 0x1F))

/-- The values of the digits of an unsigned integer; a single underscore may stand between two digits. -/
def readDigits? : List CodePoint → Option (List Nat)
  | [] => none
  | [c] => (digitValue? c).map ([·])
  | c :: .char '_' :: rest =>
    match digitValue? c, readDigits? rest with
    | some d, some ds => some (d :: ds)
    | _, _ => none
  | c :: rest =>
    match digitValue? c, readDigits? rest with
    | some d, some ds => some (d :: ds)
    | _, _ => none

/-- Reads an unsigned integer. -/
def readNat? (cs : List CodePoint) : Option Nat :=
  match readDigits? cs with
  | some ds => if digitLimit < ds.length then none else some (ds.foldl (fun n d => n * 10 + d) 0)
  | none => none

/-- Reads an integer in any accepted spelling. -/
def readInt? (s : Text) : Option Int :=
  match trimEnds isNumberBlank s.toList with
  | .char '-' :: rest => (readNat? rest).map fun n => -(n : Int)
  | .char '+' :: rest => (readNat? rest).map fun n => (n : Int)
  | cs => (readNat? cs).map fun n => (n : Int)

end Blame.Text
