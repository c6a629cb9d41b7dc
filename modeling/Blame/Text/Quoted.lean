import Blame.Text.Printable

/-!
# Quoted text

How a text is shown inside a message: between single quotes, or between double quotes if it holds single
quotes and no double ones, with escapes for the quote, the backslash and all that is not printable.
-/

namespace Blame.Text

/-- The quote that goes around a text. -/
def quoteFor (cs : List CodePoint) : CodePoint :=
  if cs.contains (.char '\'') && !cs.contains (.char '"') then .char '"' else .char '\''

/-- A number in lower case hexadecimal digits, at least `width` of them. -/
def hexDigits (width n : Nat) : List CodePoint :=
  let ds := (Nat.toDigits 16 n).map CodePoint.char
  List.replicate (width - ds.length) (.char '0') ++ ds

/-- A code point by its number, after a backslash and a letter that tells the number of digits. -/
def numberEscape (c : CodePoint) : List CodePoint :=
  if c.toNat < 0x100 then .char '\\' :: .char 'x' :: hexDigits 2 c.toNat
  else if c.toNat < 0x10000 then .char '\\' :: .char 'u' :: hexDigits 4 c.toNat
  else .char '\\' :: .char 'U' :: hexDigits 8 c.toNat

/-- A character as it stands between the given quotes. -/
def quoteChar (quote c : CodePoint) : List CodePoint :=
  if c = quote || c = .char '\\' then [.char '\\', c]
  else if c = .char '\n' then [.char '\\', .char 'n']
  else if c = .char '\r' then [.char '\\', .char 'r']
  else if c = .char '\t' then [.char '\\', .char 't']
  else if isPrintable c then [c]
  else numberEscape c

/-- The quoted form of a list of characters. -/
def quoteChars (cs : List CodePoint) : List CodePoint :=
  let quote := quoteFor cs
  quote :: (cs.flatMap (quoteChar quote) ++ [quote])

/-- The quoted form of a text. -/
def quoted (s : Text) : Text := Text.ofList (quoteChars s.toList)

end Blame.Text
