import Blame.Json.Writer
import Blame.Text.Lines
import Blame.Text.Utf8

/-!
# Plain texts

A plain text consists of line feeds and the printable characters of ASCII (`IsPlain`). It has one byte for each of
them and is read off these bytes again. Whatever a document holds, it is written as a plain text
(`isPlain_write`).
-/

namespace Blame

/-- A line feed or a printable character of ASCII. -/
def CodePoint.IsPlain (c : CodePoint) : Prop := c = .char '\n' ∨ 0x20 ≤ c.toNat ∧ c.toNat ≤ 0x7E

instance (c : CodePoint) : Decidable c.IsPlain := inferInstanceAs (Decidable (_ ∨ _))

/-- All of the code points are plain. -/
def Text.ArePlain (cs : List CodePoint) : Prop := ∀ c ∈ cs, c.IsPlain

instance (cs : List CodePoint) : Decidable (Text.ArePlain cs) := inferInstanceAs (Decidable (∀ c ∈ cs, c.IsPlain))

def Text.IsPlain (s : Text) : Prop := ArePlain s.toList

instance (s : Text) : Decidable s.IsPlain := inferInstanceAs (Decidable (Text.ArePlain _))

namespace CodePoint
variable {c : CodePoint}

theorem IsPlain.exists_char (h : c.IsPlain) : ∃ a : Char, c = .char a ∧ a.toNat < 0x80 := by
  cases c with
  | char a =>
    refine ⟨a, rfl, ?_⟩
    rcases h with h | ⟨-, h⟩
    · cases h
      decide
    · exact Nat.lt_of_le_of_lt h (by decide)
  | half n =>
    rcases h with h | ⟨-, h⟩
    · cases h
    · have hsize : (half n).toNat = 0xD800 + n.val := rfl
      omega

theorem IsPlain.of_isDigit (h : c.isDigit = true) : c.IsPlain := by
  cases c with
  | char a =>
    have hdigit : a.isDigit = true := h
    simp only [Char.isDigit, Bool.and_eq_true, decide_eq_true_eq] at hdigit
    have hlow : 48 ≤ a.toNat := hdigit.1
    have hhigh : a.toNat ≤ 57 := hdigit.2
    exact .inr ⟨by change 0x20 ≤ a.toNat; omega, by change a.toNat ≤ 0x7E; omega⟩
  | half n => cases h

end CodePoint

namespace Text
variable {cs ds : List CodePoint} {s t : Text}

theorem ArePlain.append (h : ArePlain cs) (h' : ArePlain ds) : ArePlain (cs ++ ds) := fun c hc =>
  (List.mem_append.1 hc).elim (h c) (h' c)

theorem ArePlain.cons {c : CodePoint} (h : c.IsPlain) (h' : ArePlain cs) : ArePlain (c :: cs) :=
  List.forall_mem_cons.2 ⟨h, h'⟩

theorem ArePlain.of_subset (h : ArePlain ds) (hs : cs ⊆ ds) : ArePlain cs := fun c hc => h c (hs hc)

theorem arePlain_replicate {c : CodePoint} (h : c.IsPlain) (n : Nat) : ArePlain (List.replicate n c) := fun _ hd =>
  List.eq_of_mem_replicate hd ▸ h

theorem IsPlain.append (h : s.IsPlain) (h' : t.IsPlain) : (s ++ t).IsPlain := ArePlain.append h h'

/-- The byte of a plain character. -/
def plainByte (c : CodePoint) : UInt8 := UInt8.ofNat c.toNat

theorem utf8EncodeChar_of_lt {a : Char} (h : a.toNat < 0x80) : String.utf8EncodeChar a = [UInt8.ofNat a.toNat] := by
  have hval : a.val ≤ 0x7F := Nat.lt_succ_iff.1 h
  rw [String.utf8EncodeChar_eq_singleton (Char.utf8Size_eq_one_iff.2 hval)]
  rfl

namespace Utf8

theorem encodeFrom_of_plain (h : ArePlain cs) (offset : Nat) : encodeFrom bytes? offset cs = .ok (cs.map plainByte) := by
  induction cs generalizing offset with
  | nil => rfl
  | cons c rest ih =>
    obtain ⟨a, rfl, ha⟩ := (h c List.mem_cons_self).exists_char
    rw [encodeFrom, bytes?, utf8EncodeChar_of_lt ha]
    dsimp only
    rw [ih fun d hd => h d (List.mem_cons_of_mem _ hd)]
    rfl

theorem decodeFrom_of_plain (h : ArePlain cs) (offset : Nat) : decodeFrom offset 0 (cs.map plainByte) = .ok cs := by
  induction cs generalizing offset with
  | nil => rfl
  | cons c rest ih =>
    obtain ⟨a, rfl, ha⟩ := (h c List.mem_cons_self).exists_char
    have hbyte : (plainByte (.char a)).toNat = a.toNat := by
      change (UInt8.ofNat a.toNat).toNat = a.toNat
      rw [UInt8.toNat_ofNat']
      omega
    have hlead : lead? (plainByte (.char a)).toNat = some ⟨a.toNat, []⟩ := by
      rw [lead?, hbyte, if_pos ha]
    have hcode : CodePoint.ofNat a.toNat = .char a := by
      rw [CodePoint.ofNat, dif_neg (by omega), Char.ofNat_toNat]
    rw [List.map_cons, decodeFrom, hlead]
    dsimp only [continuation, List.length_nil]
    rw [ih fun d hd => h d (List.mem_cons_of_mem _ hd), hcode]

theorem encode_of_plain (h : s.IsPlain) : encode s = .ok (s.toList.map plainByte) := encodeFrom_of_plain h 0

theorem decode_of_plain (h : ArePlain cs) : decode (cs.map plainByte) = .ok cs := decodeFrom_of_plain h 0

end Utf8

theorem unixLines_of_plain (h : ArePlain cs) : unixLines cs = cs := by
  induction cs with
  | nil => rfl
  | cons c rest ih =>
    have hc : c ≠ .char '\r' := by
      rintro rfl
      exact absurd (h _ List.mem_cons_self) (by decide)
    rw [unixLines, ih fun d hd => h d (List.mem_cons_of_mem c hd)]
    · rintro more rfl
      exact absurd rfl hc
    · rintro rfl
      exact absurd rfl hc

end Text

namespace Number

open Text

theorem arePlain_natDigits (n : Nat) : ArePlain (natDigits n) := fun _ hc => .of_isDigit (isDigit_of_mem_natDigits hc)

theorem arePlain_intChars (n : Int) : ArePlain (intChars n) := by
  unfold intChars
  split
  · exact .cons (by decide) (arePlain_natDigits _)
  · exact arePlain_natDigits _

theorem arePlain_write (f : FloatFormat) (d : Decimal) : ArePlain (f.write d) := by
  have hdigits := arePlain_natDigits d.digits
  have hzeros (n : Nat) : ArePlain (List.replicate n (.char '0')) := arePlain_replicate (by decide) n
  unfold FloatFormat.write
  dsimp only
  split
  · split
    · exact .cons (by decide) (.cons (by decide) ((hzeros _).append hdigits))
    · have hpadded := hdigits.append
        (hzeros ((d.exponent + (natDigits d.digits).length - 1).toNat + 1 - (natDigits d.digits).length))
      refine (hpadded.of_subset (List.take_subset _ _)).append (.cons (by decide) ?_)
      split
      · exact hzeros 1
      · exact hpadded.of_subset (List.drop_subset _ _)
  · have hmantissa : ArePlain (if ((natDigits d.digits).drop 1).isEmpty then []
        else .char '.' :: (natDigits d.digits).drop 1) := by
      split
      · exact fun _ hc => absurd hc List.not_mem_nil
      · exact .cons (by decide) (hdigits.of_subset (List.drop_subset _ _))
    refine ((hdigits.of_subset (List.take_subset _ _)).append hmantissa).append (.cons (by decide) (.cons ?_ ?_))
    · split <;> decide
    · exact (hzeros _).append (arePlain_natDigits _)

theorem Double.isPlain_text (x : Double) : x.text.IsPlain := by
  cases x with
  | finite q =>
    change ArePlain (rationalChars q)
    unfold rationalChars
    split
    · decide
    · split
      · exact .cons (by decide) (arePlain_write _ _)
      · exact arePlain_write _ _
  | negZero => decide
  | infinite negative => cases negative <;> decide
  | nan => decide

end Number

namespace Json

open Number Text

/-- A hexadecimal digit. -/
def hexChar (d : Nat) : CodePoint := .char (Nat.digitChar d)

theorem hexDigits_four {n : Nat} (h : n < 0x10000) : hexDigits 4 n =
    [hexChar (n / 0x1000), hexChar (n / 0x100 % 0x10), hexChar (n / 0x10 % 0x10), hexChar (n % 0x10)] := by
  have hzero : CodePoint.char '0' = hexChar 0 := rfl
  have hstep (m : Nat) : Nat.toDigits 16 m =
      if m < 16 then [Nat.digitChar m] else Nat.toDigits 16 (m / 16) ++ [Nat.digitChar (m % 16)] :=
    Nat.toDigits_eq_if (by decide)
  have h3 : n / 16 / 16 / 16 < 16 := by omega
  have hdiv : n / 0x1000 = n / 16 / 16 / 16 := by omega
  have hdiv' : n / 0x100 = n / 16 / 16 := by omega
  rw [hdiv, hdiv', hexDigits, hstep n]
  split
  · rename_i hn
    rw [Nat.mod_eq_of_lt hn, Nat.div_eq_of_lt hn, hzero]
    rfl
  rw [hstep (n / 16)]
  split
  · rename_i hn
    rw [Nat.mod_eq_of_lt hn, Nat.div_eq_of_lt hn, hzero]
    rfl
  rw [hstep (n / 16 / 16)]
  split
  · rename_i hn
    rw [Nat.mod_eq_of_lt hn, Nat.div_eq_of_lt hn, hzero]
    rfl
  rw [hstep (n / 16 / 16 / 16), if_pos h3]
  rfl

theorem isPlain_hexChar {d : Nat} (h : d < 0x10) : (hexChar d).IsPlain :=
  (by decide : ∀ d : Fin 0x10, (hexChar d.val).IsPlain) ⟨d, h⟩

theorem arePlain_unitEscape {n : Nat} (h : n < 0x10000) : ArePlain (unitEscape n) := by
  rw [unitEscape, hexDigits_four h]
  refine .cons (by decide) (.cons (by decide) (.cons ?_ (.cons ?_ (.cons ?_ (.cons ?_ nofun)))))
  all_goals exact isPlain_hexChar (by omega)

theorem toNat_lt (c : CodePoint) : c.toNat < 0x110000 := by
  cases c with
  | char a =>
    have hvalid : a.toNat < 0xD800 ∨ 0xDFFF < a.toNat ∧ a.toNat < 0x110000 := a.valid
    change a.toNat < 0x110000
    omega
  | half n =>
    change 0xD800 + n.val < 0x110000
    omega

theorem arePlain_escapeChar (c : CodePoint) : ArePlain (escapeChar c) := by
  have hc := toNat_lt c
  unfold escapeChar
  split; · decide
  split; · decide
  split; · decide
  split; · decide
  split; · decide
  split; · decide
  split; · decide
  split
  · rename_i hplain
    exact .cons (.inr hplain) nofun
  split
  · exact arePlain_unitEscape ‹_›
  · exact (arePlain_unitEscape (by omega)).append (arePlain_unitEscape (by omega))

theorem isPlain_stringLiteral (s : Text) : (stringLiteral s).IsPlain := by
  refine ArePlain.cons (by decide) (ArePlain.append (fun c hc => ?_) (by decide))
  obtain ⟨d, -, hd⟩ := List.mem_flatMap.1 hc
  exact arePlain_escapeChar d c hd

theorem isPlain_floatLiteral (x : Double) : (floatLiteral x).IsPlain := by
  unfold floatLiteral
  split
  · decide
  · decide
  · decide
  · exact x.isPlain_text

theorem Layout.isPlain_separator (l : Layout) (depth : Nat) : (l.separator depth).IsPlain := by
  cases l with
  | oneLine => exact (by decide : IsPlain ", ")
  | indented width => exact IsPlain.append (by decide) (arePlain_replicate (by decide) _)

theorem Layout.isPlain_lineBreak (l : Layout) (depth : Nat) : (l.lineBreak depth).IsPlain := by
  cases l with
  | oneLine => exact (nofun : ArePlain [])
  | indented width => exact IsPlain.append (by decide) (arePlain_replicate (by decide) _)

mutual

theorem isPlain_writeAt (l : Layout) (depth : Nat) : (v : Json) → (writeAt l depth v).IsPlain
  | null => by rw [writeAt]; decide
  | bool true => by rw [writeAt]; decide
  | bool false => by rw [writeAt]; decide
  | int n => by rw [writeAt]; exact arePlain_intChars n
  | float x => by rw [writeAt]; exact isPlain_floatLiteral x
  | str s => by rw [writeAt]; exact isPlain_stringLiteral s
  | list [] => by rw [writeAt]; decide
  | list (v :: rest) => by
    have hopen := IsPlain.append (s := "[") (by decide) (l.isPlain_lineBreak (depth + 1))
    have hitems := (hopen.append (isPlain_writeAt l (depth + 1) v)).append (isPlain_writeItems l (depth + 1) rest)
    rw [writeAt]
    exact (hitems.append (l.isPlain_lineBreak depth)).append (by decide)
  | obj [] => by rw [writeAt]; decide
  | obj ((k, v) :: rest) => by
    have hopen := IsPlain.append (s := "\x7b") (by decide) (l.isPlain_lineBreak (depth + 1))
    have hkey := (hopen.append (isPlain_stringLiteral k)).append (t := ": ") (by decide)
    have hmembers := (hkey.append (isPlain_writeAt l (depth + 1) v)).append (isPlain_writeMembers l (depth + 1) rest)
    rw [writeAt]
    exact (hmembers.append (l.isPlain_lineBreak depth)).append (by decide)

theorem isPlain_writeItems (l : Layout) (depth : Nat) : (items : List Json) → (writeItems l depth items).IsPlain
  | [] => by rw [writeItems]; decide
  | v :: rest => by
    rw [writeItems]
    exact ((l.isPlain_separator depth).append (isPlain_writeAt l depth v)).append (isPlain_writeItems l depth rest)

theorem isPlain_writeMembers (l : Layout) (depth : Nat) :
    (members : List (Text × Json)) → (writeMembers l depth members).IsPlain
  | [] => by rw [writeMembers]; decide
  | (k, v) :: rest => by
    have hkey := ((l.isPlain_separator depth).append (isPlain_stringLiteral k)).append (t := ": ") (by decide)
    rw [writeMembers]
    exact (hkey.append (isPlain_writeAt l depth v)).append (isPlain_writeMembers l depth rest)

end

/-- A document is written as a plain text. -/
theorem isPlain_write (l : Layout) (v : Json) : (write l v).IsPlain := isPlain_writeAt l 0 v

end Json

end Blame
