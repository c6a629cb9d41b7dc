import Blame.Json.Value
import Blame.Number.Text
import Blame.Text.Digits

/-!
# Reading JSON

A reader for whole documents that stops at the first fault and says where it is. Beyond the standard it
takes `NaN`, `Infinity` and `-Infinity`. Offsets count characters.
-/

namespace Blame.Json

open Number Text

/-- What the reader expected or refused. -/
inductive Fault where
  | value
  | propertyName
  | colon
  | comma
  | extraData
  | unterminated
  | controlCharacter
  | escape
  | unicodeEscape
  | byteOrderMark
  deriving DecidableEq, Repr

def Fault.message : Fault → Text
  | value => "Expecting value"
  | propertyName => "Expecting property name enclosed in double quotes"
  | colon => "Expecting ':' delimiter"
  | comma => "Expecting ',' delimiter"
  | extraData => "Extra data"
  | unterminated => "Unterminated string starting at"
  | controlCharacter => "Invalid control character at"
  | escape => "Invalid \\escape"
  | unicodeEscape => "Invalid \\uXXXX escape"
  | byteOrderMark => "Unexpected UTF-8 BOM (decode using utf-8-sig)"

/-- A limit of the reader that a document goes beyond: an integer has too many digits, or lists and objects
lie too deep in each other, the innermost being a list or an object. -/
inductive Excess where
  | digits (count : Nat)
  | listDepth
  | objectDepth
  deriving DecidableEq, Repr

def Excess.message : Excess → Text
  | digits count =>
    ("Exceeds the limit (" ++ natText digitLimit ++ " digits) for integer string conversion: value has " ++ natText count ++ " digits; ")
      ++ "use sys.set_int_max_str_digits() to increase the limit"
  | listDepth => "maximum recursion depth exceeded while decoding a JSON array from a unicode string"
  | objectDepth => "maximum recursion depth exceeded while decoding a JSON object from a unicode string"

/-- Why a document could not be read. -/
inductive ReadError where
  | malformed (fault : Fault) (offset : Nat)
  | excess (e : Excess)
  deriving DecidableEq, Repr

/-- The characters still to be read and the offset of the first of them. -/
structure Input where
  rest : List CodePoint
  offset : Nat

namespace Input

def advance (i : Input) (n : Nat) : Input := ⟨i.rest.drop n, i.offset + n⟩

def isSpace (c : CodePoint) : Bool := c = .char ' ' || c = .char '\t' || c = .char '\n' || c = .char '\r'

def skipSpace (i : Input) : Input := i.advance (i.rest.takeWhile isSpace).length

def fail {α : Type} (i : Input) (f : Fault) : Except ReadError α := .error (.malformed f i.offset)

end Input

/-- The value of a hexadecimal digit. -/
def hexValue? (c : CodePoint) : Option Nat :=
  if c.isDigit then some (c.toNat - '0'.toNat)
  else if .char 'a' ≤ c ∧ c ≤ .char 'f' then some (c.toNat - 'a'.toNat + 10)
  else if .char 'A' ≤ c ∧ c ≤ .char 'F' then some (c.toNat - 'A'.toNat + 10)
  else none

/-- The number that four hexadecimal digits at the front stand for. -/
def hex4? : List CodePoint → Option Nat
  | a :: b :: c :: d :: _ =>
    match hexValue? a, hexValue? b, hexValue? c, hexValue? d with
    | some a, some b, some c, some d => some (((a * 16 + b) * 16 + c) * 16 + d)
    | _, _, _, _ => none
  | _ => none

def isHighSurrogate (n : Nat) : Bool := decide (0xD800 ≤ n) && decide (n < 0xDC00)

def isLowSurrogate (n : Nat) : Bool := decide (0xDC00 ≤ n) && decide (n < 0xE000)

/-- Reads what follows the `u` of an escape at `offset`: the code point and the number of characters it
takes. The text has to go on after the digits; two escapes that form a surrogate pair are one character, and half of
a pair stands for itself. -/
def readUnit (offset : Nat) (rest : List CodePoint) : Except ReadError (CodePoint × Nat) :=
  if rest.length ≤ 4 then .error (.malformed .unicodeEscape offset)
  else
    match hex4? rest with
    | none => .error (.malformed .unicodeEscape offset)
    | some n =>
      match rest.drop 4 with
      | .char '\\' :: .char 'u' :: more =>
        if isHighSurrogate n && 4 < more.length then
          match hex4? more with
          | none => .error (.malformed .unicodeEscape (offset + 6))
          | some m =>
            if isLowSurrogate m then
              .ok (CodePoint.ofNat (0x10000 + (n - 0xD800) * 0x400 + (m - 0xDC00)), 10)
            else .ok (CodePoint.ofNat n, 4)
        else .ok (CodePoint.ofNat n, 4)
      | _ => .ok (CodePoint.ofNat n, 4)

/-- The character of a one letter escape. -/
def simpleEscape? : CodePoint → Option CodePoint
  | .char '"' => some (.char '"')
  | .char '\\' => some (.char '\\')
  | .char '/' => some (.char '/')
  | .char 'b' => some (CodePoint.ofNat 0x08)
  | .char 'f' => some (CodePoint.ofNat 0x0C)
  | .char 'n' => some (.char '\n')
  | .char 'r' => some (.char '\r')
  | .char 't' => some (.char '\t')
  | _ => none

/-- Reads an escape whose backslash is at `offset`; `start` is where the string begins. -/
def readEscape (start offset : Nat) : List CodePoint → Except ReadError (CodePoint × Nat)
  | [] => .error (.malformed .unterminated start)
  | .char 'u' :: rest =>
    match readUnit (offset + 1) rest with
    | .ok (c, n) => .ok (c, n + 1)
    | .error e => .error e
  | c :: _ =>
    match simpleEscape? c with
    | some d => .ok (d, 1)
    | none => .error (.malformed .escape offset)

/-- Reads a string after its opening quote, which is at `start`; `skip` counts characters that belong to
the escape read last, `read` holds the characters so far in reverse. -/
def readString (start : Nat) (read : List CodePoint) (offset skip : Nat) :
    List CodePoint → Except ReadError (Text × Input)
  | [] => .error (.malformed .unterminated start)
  | c :: rest =>
    match skip with
    | skip + 1 => readString start read (offset + 1) skip rest
    | 0 =>
      if c = .char '"' then .ok (Text.ofList read.reverse, ⟨rest, offset + 1⟩)
      else if c = .char '\\' then
        match readEscape start offset rest with
        | .ok (d, n) => readString start (d :: read) (offset + 1) n rest
        | .error e => .error e
      else if c.toNat < 0x20 then .error (.malformed .controlCharacter offset)
      else readString start (c :: read) (offset + 1) 0 rest

/-- The number that decimal digits stand for. -/
def digitsValue (ds : List CodePoint) : Nat := ds.foldl (fun n c => n * 10 + (c.toNat - '0'.toNat)) 0

/-- The digits of the fraction at the front, if a point and a digit are there. -/
def fractionDigits : List CodePoint → List CodePoint
  | .char '.' :: rest => rest.takeWhile CodePoint.isDigit
  | _ => []

/-- The exponent at the front and its length; without a digit there is none. -/
def readExponent : List CodePoint → Option (Int × Nat)
  | e :: rest =>
    if e = .char 'e' || e = .char 'E' then
      let signed := match rest with
        | .char '+' :: more => (false, 1, more)
        | .char '-' :: more => (true, 1, more)
        | _ => (false, 0, rest)
      let ds := signed.2.2.takeWhile CodePoint.isDigit
      if ds.isEmpty then none
      else
        let n : Int := (digitsValue ds : Int)
        some (if signed.1 then -n else n, 1 + signed.2.1 + ds.length)
    else none
  | [] => none

/-- The digits of the whole part: a lone zero, or digits that start with another one. -/
def wholeDigits : List CodePoint → List CodePoint
  | .char '0' :: _ => [.char '0']
  | cs => cs.takeWhile CodePoint.isDigit

/-- Reads a number: an integer, or a double as soon as there is a fraction or an exponent. -/
def readNumber (i : Input) : Except ReadError (Json × Input) :=
  let negative := i.rest.head? = some (.char '-')
  let sign := if negative then 1 else 0
  let cs := i.rest.drop sign
  let whole := wholeDigits cs
  if whole.isEmpty then i.fail .value
  else
    let afterWhole := cs.drop whole.length
    let fraction := fractionDigits afterWhole
    let fractionLength := if fraction.isEmpty then 0 else fraction.length + 1
    let exponent := readExponent (afterWhole.drop fractionLength)
    match fraction.isEmpty, exponent with
    | true, none =>
      if digitLimit < whole.length then .error (.excess (.digits whole.length))
      else
        let n : Int := (digitsValue whole : Int)
        .ok (int (if negative then -n else n), i.advance (sign + whole.length))
    | _, _ =>
      let (e, n) := exponent.getD (0, 0)
      let x := Double.ofDecimal negative (digitsValue (whole ++ fraction)) (e - (fraction.length : Int))
      .ok (float x, i.advance (sign + whole.length + fractionLength + n))

/-- The words that stand for values. -/
def words : List (List CodePoint × Json) :=
  [((Text.toList "null"), null), ((Text.toList "true"), bool true), ((Text.toList "false"), bool false),
    ((Text.toList "NaN"), float .nan), ((Text.toList "Infinity"), float (.infinite false)),
    ((Text.toList "-Infinity"), float (.infinite true))]

/-- Reads a word or a number. -/
def readScalar (i : Input) : Except ReadError (Json × Input) :=
  match words.find? fun w => w.1.isPrefixOf i.rest with
  | some (word, v) => .ok (v, i.advance word.length)
  | none => readNumber i

mutual

/-- Reads one value that starts at the front; `fuel` bounds the number of steps, and `room` how many lists
and objects may still lie in each other. -/
def readValue (fuel room : Nat) (i : Input) : Except ReadError (Json × Input) :=
  match fuel with
  | 0 => i.fail .value
  | fuel + 1 =>
    match i.rest with
    | .char '"' :: rest =>
      match readString i.offset [] (i.offset + 1) 0 rest with
      | .ok (s, j) => .ok (str s, j)
      | .error e => .error e
    | .char '[' :: _ =>
      if room = 0 then .error (.excess .listDepth)
      else
        let j := (i.advance 1).skipSpace
        match j.rest with
        | .char ']' :: _ => .ok (list [], j.advance 1)
        | _ => readItems fuel (room - 1) [] j
    | .char '\x7b' :: _ =>
      if room = 0 then .error (.excess .objectDepth)
      else
        let j := (i.advance 1).skipSpace
        match j.rest with
        | .char '\x7d' :: _ => .ok (obj [], j.advance 1)
        | _ => readMembers fuel (room - 1) [] j
    | _ => readScalar i

/-- Reads the items of a list from the next one on; `read` holds those before it in reverse. -/
def readItems (fuel room : Nat) (read : List Json) (i : Input) : Except ReadError (Json × Input) :=
  match fuel with
  | 0 => i.fail .value
  | fuel + 1 =>
    match readValue fuel room i with
    | .error e => .error e
    | .ok (v, j) =>
      let j := j.skipSpace
      match j.rest with
      | .char ']' :: _ => .ok (list (v :: read).reverse, j.advance 1)
      | .char ',' :: _ => readItems fuel room (v :: read) (j.advance 1).skipSpace
      | _ => j.fail .comma

/-- Reads the members of an object from the next one on; `read` holds those before it. -/
def readMembers (fuel room : Nat) (read : List (Text × Json)) (i : Input) :
    Except ReadError (Json × Input) :=
  match fuel with
  | 0 => i.fail .value
  | fuel + 1 =>
    match i.rest with
    | .char '"' :: rest =>
      match readString i.offset [] (i.offset + 1) 0 rest with
      | .error e => .error e
      | .ok (key, j) =>
        let j := j.skipSpace
        match j.rest with
        | .char ':' :: _ =>
          match readValue fuel room (j.advance 1).skipSpace with
          | .error e => .error e
          | .ok (v, k) =>
            let k := k.skipSpace
            let read := setMember key v read
            match k.rest with
            | .char '\x7d' :: _ => .ok (obj read, k.advance 1)
            | .char ',' :: _ => readMembers fuel room read (k.advance 1).skipSpace
            | _ => k.fail .comma
        | _ => j.fail .colon
    | _ => i.fail .propertyName

end

/-- Reads a document that consists of the given characters; `nesting` is how deep lists and objects may lie in each
other. -/
def read (nesting : Nat) (cs : List CodePoint) : Except ReadError Json :=
  if cs.head? = some (CodePoint.ofNat 0xFEFF) then .error (.malformed .byteOrderMark 0)
  else
    match readValue (2 * cs.length + 2) nesting (Input.mk cs 0).skipSpace with
    | .error e => .error e
    | .ok (v, i) =>
      let i := i.skipSpace
      if i.rest.isEmpty then .ok v else i.fail .extraData

/-- The line and the column of an offset, both counted from one. -/
def position (cs : List CodePoint) (offset : Nat) : Nat × Nat :=
  let before := cs.take offset
  (before.count (.char '\n') + 1, (before.reverse.takeWhile (· ≠ .char '\n')).length + 1)

/-- The message for a document that could not be read. -/
def ReadError.message (cs : List CodePoint) : ReadError → Text
  | malformed fault offset =>
    let (line, column) := position cs offset
    (fault.message ++ ": line " ++ natText line ++ " column " ++ natText column ++ " (char " ++ natText offset ++ ")")
  | excess e => e.message

end Blame.Json
