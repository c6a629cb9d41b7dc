import Blame.Number.Text
import Blame.Text.Quoted

/-!
# UTF-8

Decoding of a list of bytes into characters, and encoding of a text into bytes. A fault names the bytes that cannot
be decoded and why: the longest start of a sequence that is still well formed, or a single byte that starts none. A
half of a surrogate pair has no bytes, but in a name given to the system some halves stand for bytes that are part of
no character.
-/

namespace Blame.Text.Utf8

open Number

/-- Why bytes are not UTF-8. -/
inductive Cause where
  | invalidStart
  | invalidContinuation
  | truncated
  deriving DecidableEq, Repr

def Cause.message : Cause → Text
  | invalidStart => "invalid start byte"
  | invalidContinuation => "invalid continuation byte"
  | truncated => "unexpected end of data"

/-- The bytes from `offset` on, `length` of them, cannot be decoded; `first` is the first of them. -/
structure Fault where
  offset : Nat
  length : Nat
  first : UInt8
  cause : Cause
  deriving DecidableEq, Repr

/-- The message names the byte, or the range of positions if there are several. -/
def Fault.message (f : Fault) : Text :=
  let what :=
    if f.length = 1 then
      ("byte 0x" ++ Text.ofList (hexDigits 2 f.first.toNat) ++ " in position " ++ natText f.offset)
    else ("bytes in position " ++ natText f.offset ++ "-" ++ natText (f.offset + f.length - 1))
  ("'utf-8' codec can't decode " ++ what ++ ": " ++ f.cause.message)

/-- What the first byte of a sequence announces: the bits it carries, and the ranges in which the bytes
after it have to lie. -/
structure Lead where
  bits : Nat
  ranges : List (Nat × Nat)

/-- The range of a continuation byte without further limits. -/
def anyContinuation : Nat × Nat := (0x80, 0xBF)

/-- The sequence a byte starts. The second byte is limited where a shorter form, a surrogate or a value
beyond the last code point would arise. -/
def lead? (b : Nat) : Option Lead :=
  if b < 0x80 then some ⟨b, []⟩
  else if b < 0xC2 then none
  else if b < 0xE0 then some ⟨b - 0xC0, [anyContinuation]⟩
  else if b < 0xF0 then
    let second := if b = 0xE0 then (0xA0, 0xBF) else if b = 0xED then (0x80, 0x9F) else anyContinuation
    some ⟨b - 0xE0, [second, anyContinuation]⟩
  else if b < 0xF5 then
    let second := if b = 0xF0 then (0x90, 0xBF) else if b = 0xF4 then (0x80, 0x8F) else anyContinuation
    some ⟨b - 0xF0, [second, anyContinuation, anyContinuation]⟩
  else none

/-- Reads continuation bytes: the code point, or how many were well formed and what stopped them. -/
def continuation (acc taken : Nat) : List (Nat × Nat) → List UInt8 → Except (Nat × Cause) Nat
  | [], _ => .ok acc
  | _ :: _, [] => .error (taken, .truncated)
  | (low, high) :: ranges, b :: rest =>
    if low ≤ b.toNat ∧ b.toNat ≤ high then
      continuation (acc * 64 + (b.toNat - 0x80)) (taken + 1) ranges rest
    else .error (taken, .invalidContinuation)

/-- Decodes from a given offset; `skip` counts bytes that belong to the character read last. -/
def decodeFrom (offset skip : Nat) : List UInt8 → Except Fault (List CodePoint)
  | [] => .ok []
  | b :: rest =>
    match skip with
    | skip + 1 => decodeFrom (offset + 1) skip rest
    | 0 =>
      match lead? b.toNat with
      | none => .error ⟨offset, 1, b, .invalidStart⟩
      | some l =>
        match continuation l.bits 0 l.ranges rest with
        | .error (taken, cause) => .error ⟨offset, taken + 1, b, cause⟩
        | .ok code =>
          match decodeFrom (offset + 1) l.ranges.length rest with
          | .ok cs => .ok (CodePoint.ofNat code :: cs)
          | .error f => .error f

/-- The characters that a list of bytes stands for. -/
def decode (bytes : List UInt8) : Except Fault (List CodePoint) := decodeFrom 0 0 bytes

/-- A text cannot be encoded: `codec` has no bytes for the code points from `offset` on, `length` of them, and
`first` is the first of them. -/
structure Unencodable where
  codec : Text
  offset : Nat
  length : Nat
  first : CodePoint
  reason : Text
  deriving DecidableEq, Repr

/-- The message names the code point, or the range of positions if there are several. -/
def Unencodable.message (e : Unencodable) : Text :=
  let what :=
    if e.length = 1 then
      "character '" ++ Text.ofList (numberEscape e.first) ++ "' in position " ++ natText e.offset
    else "characters in position " ++ natText e.offset ++ "-" ++ natText (e.offset + e.length - 1)
  "'" ++ e.codec ++ "' codec can't encode " ++ what ++ ": " ++ e.reason

/-- Encodes code points one by one, the first of which is at `offset`. The halves that stand next to one without
bytes are refused with it. -/
def encodeFrom (bytes? : CodePoint → Option (List UInt8)) (offset : Nat) :
    List CodePoint → Except Unencodable (List UInt8)
  | [] => .ok []
  | c :: rest =>
    match bytes? c with
    | some bytes => (encodeFrom bytes? (offset + 1) rest).map (bytes ++ ·)
    | none =>
      .error ⟨"utf-8", offset, ((c :: rest).takeWhile CodePoint.isHalf).length, c, "surrogates not allowed"⟩

/-- The bytes of a character. -/
def bytes? : CodePoint → Option (List UInt8)
  | .char c => some (String.utf8EncodeChar c)
  | .half _ => none

/-- The bytes of a code point in a name: the halves from `U+DC80` to `U+DCFF` stand for single bytes. -/
def nameBytes? : CodePoint → Option (List UInt8)
  | .char c => some (String.utf8EncodeChar c)
  | .half n => if 0x480 ≤ n.val ∧ n.val < 0x500 then some [UInt8.ofNat (n.val - 0x400)] else none

/-- The bytes of a text. -/
def encode (s : Text) : Except Unencodable (List UInt8) := encodeFrom bytes? 0 s.toList

/-- The bytes of a name that is given to the system. -/
def encodeName (cs : List CodePoint) : Except Unencodable (List UInt8) := encodeFrom nameBytes? 0 cs

variable {cs : List CodePoint}

theorem encodeFrom_error_iff (bytes? : CodePoint → Option (List UInt8)) (offset : Nat) :
    (∃ e, encodeFrom bytes? offset cs = .error e) ↔ ∃ c ∈ cs, bytes? c = none := by
  induction cs generalizing offset with
  | nil => exact iff_of_false nofun nofun
  | cons c rest ih =>
    rw [encodeFrom]
    cases hc : bytes? c with
    | none => exact iff_of_true ⟨_, rfl⟩ ⟨c, List.mem_cons_self, hc⟩
    | some bytes =>
      have hrest : (∃ d ∈ c :: rest, bytes? d = none) ↔ ∃ d ∈ rest, bytes? d = none := by simp [hc]
      rw [hrest, ← ih (offset + 1)]
      cases encodeFrom bytes? (offset + 1) rest with
      | ok more => exact iff_of_false nofun nofun
      | error e => exact iff_of_true ⟨e, rfl⟩ ⟨e, rfl⟩

end Blame.Text.Utf8
