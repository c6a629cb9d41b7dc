import Blame.Json.Reader
import Blame.Proofs.PlainTexts
import Mathlib.Data.List.Chain

/-!
# Written documents read back

A document is read back from what is written of it, in any layout (`read_write`), if reading could have given it in
the first place (`Restorable`): no text has the two halves of a surrogate pair next to each other, which would be
read as one character, no integer is too long, no key stands twice in an object, and lists and objects do not lie
deeper in each other than the reader lets them. Doubles are left out.
-/

namespace Blame

theorem CodePoint.ofNat_toNat (c : CodePoint) : CodePoint.ofNat c.toNat = c := by
  cases c with
  | char a =>
    have hvalid : a.toNat < 0xD800 ∨ 0xDFFF < a.toNat ∧ a.toNat < 0x110000 := a.valid
    change CodePoint.ofNat a.toNat = char a
    rw [CodePoint.ofNat, dif_neg (by omega), Char.ofNat_toNat]
  | half n =>
    have hn : 0xD800 ≤ 0xD800 + n.val ∧ 0xD800 + n.val < 0xE000 := by omega
    change CodePoint.ofNat (0xD800 + n.val) = half n
    rw [CodePoint.ofNat, dif_pos hn]
    simp

namespace Json

open Number Text

/-- The code points are not the halves of one surrogate pair. -/
def Apart (c d : CodePoint) : Prop := ¬ (isHighSurrogate c.toNat = true ∧ isLowSurrogate d.toNat = true)

/-- No two halves of a surrogate pair stand next to each other. -/
def Unpaired (cs : List CodePoint) : Prop := cs.IsChain Apart

/-- A value that is read back when it is written, if lists and objects may lie `room` deep in each other. -/
inductive Restorable : Nat → Json → Prop
  | null {room : Nat} : Restorable room null
  | bool {room : Nat} (b : Bool) : Restorable room (bool b)
  | int {room : Nat} {n : Int} (h : (natDigits n.natAbs).length ≤ digitLimit) : Restorable room (int n)
  | str {room : Nat} {s : Text} (h : Unpaired s.toList) : Restorable room (str s)
  | list {room : Nat} {items : List Json} (h : ∀ v ∈ items, Restorable room v) : Restorable (room + 1) (list items)
  | obj {room : Nat} {members : List (Text × Json)} (hkeys : ∀ m ∈ members, Unpaired m.1.toList)
      (hnodup : (members.map Prod.fst).Nodup) (h : ∀ m ∈ members, Restorable room m.2) :
      Restorable (room + 1) (obj members)

/-! ### Texts -/

variable {c : CodePoint} {cs tail rest : List CodePoint} {n offset : Nat}

theorem hexValue?_hexChar {d : Nat} (h : d < 0x10) : hexValue? (hexChar d) = some d :=
  (by decide : ∀ d : Fin 0x10, hexValue? (hexChar d.val) = some d.val) ⟨d, h⟩

theorem hex4?_hexDigits (h : n < 0x10000) (tail : List CodePoint) : hex4? (hexDigits 4 n ++ tail) = some n := by
  rw [hexDigits_four h]
  simp only [List.cons_append, List.nil_append, hex4?]
  rw [hexValue?_hexChar (by omega), hexValue?_hexChar (by omega), hexValue?_hexChar (by omega),
    hexValue?_hexChar (by omega)]
  dsimp only
  congr 1
  omega

theorem length_hexDigits_four (h : n < 0x10000) : (hexDigits 4 n).length = 4 := by
  rw [hexDigits_four h]
  rfl

/-- What may follow an escape of the unit `n`: something, and if it is an escape of another unit then one that is not
read together with the first. -/
def MayFollow (n : Nat) (tail : List CodePoint) : Prop :=
  tail ≠ [] ∧ ∀ more, tail = .char '\\' :: .char 'u' :: more →
    ∃ m, hex4? more = some m ∧ ¬ (isHighSurrogate n = true ∧ isLowSurrogate m = true)

theorem readUnit_single (h : n < 0x10000) (hfollow : MayFollow n tail) (offset : Nat) :
    readUnit offset (hexDigits 4 n ++ tail) = .ok (CodePoint.ofNat n, 4) := by
  have hlength := length_hexDigits_four h
  have htail := List.length_pos_iff.2 hfollow.1
  rw [readUnit, if_neg (by rw [List.length_append]; omega), hex4?_hexDigits h, List.drop_left' hlength]
  dsimp only
  split
  · rename_i more
    obtain ⟨m, hm, hapart⟩ := hfollow.2 more rfl
    rw [hm]
    split
    · rename_i hhigh
      dsimp only
      rw [if_neg fun hlow => hapart ⟨(Bool.and_eq_true_iff.1 hhigh).1, hlow⟩]
    · rfl
  · rfl

theorem readUnit_pair {m : Nat} (hn : 0xD800 ≤ n ∧ n < 0xDC00) (hm : 0xDC00 ≤ m ∧ m < 0xE000) (htail : tail ≠ [])
    (offset : Nat) : readUnit offset (hexDigits 4 n ++ (unitEscape m ++ tail)) =
      .ok (CodePoint.ofNat (0x10000 + (n - 0xD800) * 0x400 + (m - 0xDC00)), 10) := by
  have hlength : (hexDigits 4 n).length = 4 := length_hexDigits_four (by omega)
  have hlength' : (hexDigits 4 m).length = 4 := length_hexDigits_four (by omega)
  have hmore := List.length_pos_iff.2 htail
  have hhigh : isHighSurrogate n = true := by simp [isHighSurrogate, hn]
  have hlow : isLowSurrogate m = true := by simp [isLowSurrogate, hm]
  rw [readUnit, if_neg (by simp only [List.length_append, unitEscape]; simp; omega), hex4?_hexDigits (by omega),
    List.drop_left' hlength]
  simp only [unitEscape, List.cons_append]
  rw [hhigh, decide_eq_true (by rw [List.length_append]; omega), Bool.and_self, if_pos rfl, hex4?_hexDigits (by omega)]
  dsimp only
  rw [hlow, if_pos rfl]

theorem readString_skip (start : Nat) (read skipped : List CodePoint) (offset : Nat) :
    readString start read offset skipped.length (skipped ++ tail) =
      readString start read (offset + skipped.length) 0 tail := by
  induction skipped generalizing offset with
  | nil => rfl
  | cons c skipped ih =>
    rw [List.length_cons, List.cons_append, readString, ih, Nat.add_right_comm, Nat.add_assoc]

/-- An escape is read as one code point. -/
theorem readString_escape (escape : List CodePoint) {start offset : Nat} {d : CodePoint} (read : List CodePoint)
    (h : readEscape start offset (escape ++ tail) = .ok (d, escape.length)) :
    readString start read offset 0 (.char '\\' :: escape ++ tail) =
      readString start (d :: read) (offset + (escape.length + 1)) 0 tail := by
  rw [List.cons_append, readString, if_neg (by decide), if_pos rfl, h]
  dsimp only
  rw [readString_skip, Nat.add_right_comm, Nat.add_assoc]

theorem readString_letter {letter d : CodePoint} {start offset : Nat} (read : List CodePoint)
    (hne : letter ≠ .char 'u') (h : simpleEscape? letter = some d) :
    readString start read offset 0 ([.char '\\', letter] ++ tail) = readString start (d :: read) (offset + 2) 0 tail := by
  refine readString_escape [letter] read ?_
  rw [List.cons_append, readEscape]
  · rw [h]
    rfl
  · exact hne

theorem length_unitEscape (h : n < 0x10000) : (unitEscape n).length = 6 := by
  rw [unitEscape, List.length_cons, List.length_cons, length_hexDigits_four h]

theorem readString_unit {start : Nat} (read : List CodePoint) (h : n < 0x10000) (hfollow : MayFollow n tail)
    (offset : Nat) : readString start read offset 0 (unitEscape n ++ tail) =
      readString start (CodePoint.ofNat n :: read) (offset + (unitEscape n).length) 0 tail := by
  refine readString_escape (.char 'u' :: hexDigits 4 n) read ?_
  rw [List.cons_append, readEscape, readUnit_single h hfollow, List.length_cons, length_hexDigits_four h]

theorem readString_pair {start m : Nat} (read : List CodePoint) (hn : 0xD800 ≤ n ∧ n < 0xDC00)
    (hm : 0xDC00 ≤ m ∧ m < 0xE000) (htail : tail ≠ []) (offset : Nat) :
    readString start read offset 0 (unitEscape n ++ unitEscape m ++ tail) =
      readString start (CodePoint.ofNat (0x10000 + (n - 0xD800) * 0x400 + (m - 0xDC00)) :: read)
        (offset + (unitEscape n ++ unitEscape m).length) 0 tail := by
  have hread : readEscape start offset (.char 'u' :: (hexDigits 4 n ++ unitEscape m) ++ tail) =
      .ok (CodePoint.ofNat (0x10000 + (n - 0xD800) * 0x400 + (m - 0xDC00)),
        (.char 'u' :: (hexDigits 4 n ++ unitEscape m)).length) := by
    rw [List.cons_append, List.append_assoc, readEscape, readUnit_pair hn hm htail, List.length_cons, List.length_append,
      length_hexDigits_four (by omega), length_unitEscape (by omega)]
  have hescape := readString_escape (.char 'u' :: (hexDigits 4 n ++ unitEscape m)) read hread
  rw [List.length_cons, List.length_append, length_hexDigits_four (by omega), length_unitEscape (by omega)] at hescape
  rw [List.length_append, length_unitEscape (by omega), length_unitEscape (by omega)]
  exact hescape

theorem readString_escapeChar {start : Nat} (read : List CodePoint) (hfollow : MayFollow c.toNat tail) (offset : Nat) :
    readString start read offset 0 (escapeChar c ++ tail) =
      readString start (c :: read) (offset + (escapeChar c).length) 0 tail := by
  have hc := toNat_lt c
  have hself := CodePoint.ofNat_toNat c
  unfold escapeChar
  split
  · exact readString_letter read (by decide) (by subst_vars; rfl)
  split
  · exact readString_letter read (by decide) (by subst_vars; rfl)
  split
  · exact readString_letter read (by decide) (by subst_vars; rfl)
  split
  · exact readString_letter read (by decide) (by subst_vars; rfl)
  split
  · exact readString_letter read (by decide) (by subst_vars; rfl)
  split
  · rename_i h
    rw [h] at hself
    exact readString_letter read (by decide) (congrArg some hself)
  split
  · rename_i h
    rw [h] at hself
    exact readString_letter read (by decide) (congrArg some hself)
  split
  · rename_i hquote hbackslash _ _ _ _ _ hplain
    rw [List.singleton_append, readString, if_neg hquote, if_neg hbackslash, if_neg (Nat.not_lt.2 hplain.1)]
    rfl
  split
  · rename_i hunit
    rw [readString_unit read hunit hfollow, hself]
  · have hsum : 0x10000 + (0xD800 + (c.toNat - 0x10000) / 0x400 - 0xD800) * 0x400 +
        (0xDC00 + (c.toNat - 0x10000) % 0x400 - 0xDC00) = c.toNat := by omega
    dsimp only
    rw [readString_pair read (by omega) (by omega) hfollow.1, hsum, hself]

theorem mayFollow_quote (n : Nat) (rest : List CodePoint) : MayFollow n (.char '"' :: rest) :=
  ⟨List.cons_ne_nil _ _, by rintro more ⟨⟩⟩

theorem mayFollow_letter {letter : CodePoint} (hne : letter ≠ .char 'u') (n : Nat) (tail : List CodePoint) :
    MayFollow n ([.char '\\', letter] ++ tail) :=
  ⟨List.cons_ne_nil _ _, fun _ h => absurd (List.cons.inj (List.cons.inj h).2).1 hne⟩

theorem mayFollow_unitEscape {m : Nat} (hm : m < 0x10000)
    (h : ¬ (isHighSurrogate n = true ∧ isLowSurrogate m = true)) (tail : List CodePoint) :
    MayFollow n (unitEscape m ++ tail) := by
  refine ⟨List.cons_ne_nil _ _, fun more hmore => ⟨m, ?_, h⟩⟩
  rw [← (List.cons.inj (List.cons.inj hmore).2).2]
  exact hex4?_hexDigits hm tail

/-- What a code point is written as may follow an escape where the code point may follow the unit. -/
theorem mayFollow_escapeChar {d : CodePoint} (h : Apart c d) (tail : List CodePoint) :
    MayFollow c.toNat (escapeChar d ++ tail) := by
  have hd := toNat_lt d
  unfold escapeChar
  split; · exact mayFollow_letter (by decide) _ tail
  split; · exact mayFollow_letter (by decide) _ tail
  split; · exact mayFollow_letter (by decide) _ tail
  split; · exact mayFollow_letter (by decide) _ tail
  split; · exact mayFollow_letter (by decide) _ tail
  split; · exact mayFollow_letter (by decide) _ tail
  split; · exact mayFollow_letter (by decide) _ tail
  split
  · rename_i hbackslash _ _ _ _ _ _
    exact ⟨List.cons_ne_nil _ _, fun more hmore => absurd (List.cons.inj hmore).1 hbackslash⟩
  split
  · exact mayFollow_unitEscape ‹_› h tail
  · rw [List.append_assoc]
    refine mayFollow_unitEscape (by omega) (fun hboth => ?_) _
    have hlow := hboth.2
    simp only [isLowSurrogate, Bool.and_eq_true, decide_eq_true_eq] at hlow
    omega

/-- A text is read after its opening quote. -/
theorem readString_escaped {start : Nat} (h : Unpaired cs) (read : List CodePoint) (offset : Nat) :
    readString start read offset 0 (cs.flatMap escapeChar ++ .char '"' :: rest) =
      .ok (Text.ofList (read.reverse ++ cs), ⟨rest, offset + (cs.flatMap escapeChar).length + 1⟩) := by
  induction cs generalizing read offset with
  | nil =>
    rw [List.flatMap_nil, List.nil_append, readString, if_pos rfl, List.append_nil]
    rfl
  | cons c cs ih =>
    have hfollow : MayFollow c.toNat (cs.flatMap escapeChar ++ .char '"' :: rest) := by
      cases cs with
      | nil => exact mayFollow_quote _ _
      | cons d cs =>
        rw [List.flatMap_cons, List.append_assoc]
        exact mayFollow_escapeChar h.rel _
    rw [List.flatMap_cons, List.append_assoc, readString_escapeChar read hfollow, ih h.tail, List.reverse_cons,
      List.append_assoc, List.singleton_append, List.length_append, Nat.add_assoc offset]

/-! ### Numbers -/

/-- What follows a number does not go on with it. -/
def Delimited (rest : List CodePoint) : Prop :=
  ∀ c ∈ rest.head?, c.isDigit = false ∧ c ≠ .char '.' ∧ c ≠ .char 'e' ∧ c ≠ .char 'E'

theorem digitsValue_natDigits (n : Nat) : digitsValue (natDigits n) = n := by
  have hfold := Nat.ofDigitChars_ten_toDigits (n := n)
  rw [Nat.ofDigitChars] at hfold
  rw [digitsValue, natDigits, List.foldl_map]
  refine Eq.trans ?_ hfold
  congr
  funext m a
  rw [Nat.mul_comm]
  rfl

theorem eq_zero_of_head_natDigits {n : Nat} (h : (natDigits n).head? = some (.char '0')) : n = 0 := by
  induction n using Nat.strongRecOn with
  | ind n ih =>
    rw [natDigits, Nat.toDigits_eq_if (by decide)] at h
    split at h
    · rename_i hn
      exact (by decide : ∀ d : Fin 10, CodePoint.char (Nat.digitChar d.val) = .char '0' → d.val = 0) ⟨n, hn⟩
        (Option.some.inj h)
    · rename_i hn
      rw [List.map_append] at h
      change (natDigits (n / 10) ++ _).head? = _ at h
      rw [List.head?_append_of_ne_nil _ (natDigits_ne_nil _)] at h
      have hzero := ih (n / 10) (by omega) h
      omega

theorem takeWhile_digits (h : Delimited rest) (n : Nat) :
    (natDigits n ++ rest).takeWhile CodePoint.isDigit = natDigits n := by
  rw [List.takeWhile_append_of_pos fun _ hc => isDigit_of_mem_natDigits hc]
  cases rest with
  | nil => rw [List.takeWhile_nil, List.append_nil]
  | cons c rest =>
    rw [List.takeWhile_cons_of_neg (by rw [(h c rfl).1]; exact Bool.false_ne_true), List.append_nil]

theorem wholeDigits_append (h : Delimited rest) (n : Nat) : wholeDigits (natDigits n ++ rest) = natDigits n := by
  unfold wholeDigits
  split
  · rename_i more hmore
    have hzero : n = 0 := by
      refine eq_zero_of_head_natDigits ?_
      rw [← List.head?_append_of_ne_nil _ (natDigits_ne_nil n), hmore]
      rfl
    rw [hzero]
    rfl
  · exact takeWhile_digits h n

theorem fractionDigits_of_delimited (h : Delimited rest) : fractionDigits rest = [] := by
  unfold fractionDigits
  split
  · exact absurd rfl (h _ rfl).2.1
  · rfl

theorem readExponent_of_delimited (h : Delimited rest) : readExponent rest = none := by
  cases rest with
  | nil => rfl
  | cons c rest =>
    obtain ⟨-, -, he, hcapital⟩ := h c rfl
    unfold readExponent
    simp [he, hcapital]

/-- The sign of a number. -/
def signChars (negative : Bool) : List CodePoint := if negative then [.char '-'] else []

theorem intChars_eq (n : Int) : intChars n = signChars (decide (n < 0)) ++ natDigits n.natAbs := by
  unfold intChars signChars
  by_cases h : n < 0 <;> simp [h]

theorem readNumber_digits (negative : Bool) {n : Nat} (hlimit : (natDigits n).length ≤ digitLimit)
    (hrest : Delimited rest) (offset : Nat) :
    readNumber ⟨signChars negative ++ (natDigits n ++ rest), offset⟩ =
      .ok (int (if negative then -(n : Int) else n),
        ⟨rest, offset + ((signChars negative).length + (natDigits n).length)⟩) := by
  have hsign : (signChars negative ++ (natDigits n ++ rest)).head? = some (.char '-') ↔ negative = true := by
    cases negative with
    | true => exact iff_of_true rfl rfl
    | false =>
      refine iff_of_false (fun h => ?_) Bool.false_ne_true
      change (natDigits n ++ rest).head? = _ at h
      rw [List.head?_append_of_ne_nil _ (natDigits_ne_nil n)] at h
      exact notMem_natDigits (by decide) n (List.mem_of_head? h)
  have hlength : (if negative = true then 1 else 0) = (signChars negative).length := by cases negative <;> rfl
  have hne : (natDigits n).isEmpty = false := List.isEmpty_eq_false_iff.2 (natDigits_ne_nil n)
  unfold readNumber
  simp only [hsign, hlength, List.drop_left, wholeDigits_append hrest, hne, Bool.false_eq_true, if_false,
    fractionDigits_of_delimited hrest, List.isEmpty_nil, if_true, List.drop_zero, readExponent_of_delimited hrest,
    Nat.not_lt.2 hlimit, digitsValue_natDigits]
  rw [Input.advance, ← List.append_assoc, ← List.length_append, List.drop_left]

/-! ### Words and numbers -/

/-- A character that starts neither a text nor a list nor an object. -/
def StartsScalar (c : CodePoint) : Prop := c ≠ .char '"' ∧ c ≠ .char '[' ∧ c ≠ .char '\x7b'

instance (c : CodePoint) : Decidable (StartsScalar c) := inferInstanceAs (Decidable (_ ∧ _))

theorem readValue_scalar {fuel room : Nat} (h : StartsScalar c) (offset : Nat) :
    readValue (fuel + 1) room ⟨c :: rest, offset⟩ = readScalar ⟨c :: rest, offset⟩ := by
  rw [readValue]
  dsimp only
  split
  · rename_i heq
    exact absurd (List.cons.inj heq).1 h.1
  · rename_i heq
    exact absurd (List.cons.inj heq).1 h.2.1
  · rename_i heq
    exact absurd (List.cons.inj heq).1 h.2.2
  · rfl

/-- No word starts with a digit, and none with a sign and a digit. -/
theorem find?_words (negative : Bool) (hc : c.isDigit = true) (rest : List CodePoint) :
    (words.find? fun w => w.1.isPrefixOf (signChars negative ++ c :: rest)) = none := by
  have hne (a : Char) (ha : a.isDigit = false) : (CodePoint.char a == c) = false := by
    refine beq_eq_false_iff_ne.2 ?_
    rintro rfl
    exact Bool.false_ne_true (ha.symm.trans hc)
  cases negative <;> simp [words, signChars, List.find?, List.isPrefixOf, hne]

theorem readScalar_int {n : Int} (hlimit : (natDigits n.natAbs).length ≤ digitLimit) (hrest : Delimited rest)
    (offset : Nat) :
    ∃ offset', readScalar ⟨intChars n ++ rest, offset⟩ = .ok (int n, ⟨rest, offset'⟩) := by
  obtain ⟨c, cs, hdigits⟩ := List.exists_cons_of_ne_nil (natDigits_ne_nil n.natAbs)
  have hc : c.isDigit = true := isDigit_of_mem_natDigits (n := n.natAbs) (hdigits ▸ List.mem_cons_self)
  have hvalue : (if decide (n < 0) = true then -(n.natAbs : Int) else n.natAbs) = n := by
    simp only [decide_eq_true_eq]
    split <;> omega
  have hread := readNumber_digits (decide (n < 0)) hlimit hrest offset
  rw [hvalue, hdigits, List.cons_append] at hread
  rw [intChars_eq, List.append_assoc, hdigits, List.cons_append, readScalar]
  dsimp only
  rw [find?_words _ hc]
  exact ⟨_, hread⟩

/-! ### Values -/

variable {l : Layout} {depth room fuel : Nat} {v : Json} {items : List Json}

/-- The value is read back, whatever follows it, if there are steps enough for its text. -/
def ReadsBack (l : Layout) (depth room : Nat) (v : Json) : Prop :=
  ∀ fuel rest offset, Delimited rest → 2 * (writeAt l depth v).length + 1 ≤ fuel →
    ∃ offset', readValue fuel room ⟨(writeAt l depth v).toList ++ rest, offset⟩ = .ok (v, ⟨rest, offset'⟩)

/-- The characters are blank to the reader. -/
def AreSpaces (cs : List CodePoint) : Prop := ∀ c ∈ cs, Input.isSpace c = true

theorem skipSpace_append {spaces : List CodePoint} (h : AreSpaces spaces) (hc : Input.isSpace c = false) (offset : Nat) :
    (Input.mk (spaces ++ c :: tail) offset).skipSpace = ⟨c :: tail, offset + spaces.length⟩ := by
  have hspaces : (spaces ++ c :: tail).takeWhile Input.isSpace = spaces := by
    rw [List.takeWhile_append_of_pos h, List.takeWhile_cons_of_neg (by rw [hc]; exact Bool.false_ne_true), List.append_nil]
  rw [Input.skipSpace, hspaces, Input.advance, List.drop_left]

theorem skipSpace_cons (hc : Input.isSpace c = false) (offset : Nat) :
    (Input.mk (c :: tail) offset).skipSpace = ⟨c :: tail, offset⟩ := by
  have hnone : AreSpaces [] := nofun
  exact skipSpace_append hnone hc offset

theorem areSpaces_lineBreak (l : Layout) (depth : Nat) : AreSpaces (l.lineBreak depth).toList := by
  cases l with
  | oneLine => exact nofun
  | indented width =>
    refine List.forall_mem_cons.2 ⟨rfl, fun c hc => ?_⟩
    rw [List.eq_of_mem_replicate hc]
    rfl

/-- A separator is a comma and what is blank. -/
theorem separator_eq (l : Layout) (depth : Nat) :
    ∃ spaces, AreSpaces spaces ∧ (l.separator depth).toList = .char ',' :: spaces := by
  cases l with
  | oneLine => exact ⟨[.char ' '], fun c hc => List.mem_singleton.1 hc ▸ rfl, rfl⟩
  | indented width => exact ⟨_, areSpaces_lineBreak (.indented width) depth, rfl⟩

/-- What a value is written as starts with no blank and no closing bracket. -/
theorem head_writeAt (h : Restorable room v) (l : Layout) (depth : Nat) :
    ∃ c cs, (writeAt l depth v).toList = c :: cs ∧ Input.isSpace c = false ∧ c ≠ .char ']' := by
  cases h with
  | null => exact ⟨_, _, rfl, by decide, by decide⟩
  | bool b => cases b <;> exact ⟨_, _, rfl, by decide, by decide⟩
  | @int _ n hlimit =>
    have hdigit {c : CodePoint} (hc : c ∈ natDigits n.natAbs) : Input.isSpace c = false ∧ c ≠ .char ']' := by
      have hd := isDigit_of_mem_natDigits hc
      constructor
      · rw [← Bool.not_eq_true]
        intro hspace
        simp only [Input.isSpace, Bool.or_eq_true, decide_eq_true_eq] at hspace
        rcases hspace with ((rfl | rfl) | rfl) | rfl <;> cases hd
      · rintro rfl
        cases hd
    obtain ⟨c, cs, hdigits⟩ := List.exists_cons_of_ne_nil (natDigits_ne_nil n.natAbs)
    rw [writeAt]
    change ∃ c cs, intChars n = _ ∧ _
    unfold intChars
    split
    · exact ⟨_, _, rfl, by decide, by decide⟩
    · exact ⟨c, cs, hdigits, hdigit (hdigits ▸ List.mem_cons_self)⟩
  | str hs => exact ⟨_, _, by rw [writeAt]; rfl, by decide, by decide⟩
  | @list _ items hitems =>
    cases items with
    | nil => exact ⟨_, _, rfl, by decide, by decide⟩
    | cons v rest => exact ⟨_, _, by rw [writeAt]; rfl, by decide, by decide⟩
  | @obj _ members hkeys hnodup hmembers =>
    cases members with
    | nil => exact ⟨_, _, rfl, by decide, by decide⟩
    | cons m rest => exact ⟨_, _, by rw [writeAt]; rfl, by decide, by decide⟩

theorem delimited_cons (h : c ∈ ([.char ',', .char ']', .char '\x7d', .char '\n'] : List CodePoint)) :
    Delimited (c :: rest) := by
  rintro d ⟨⟩
  exact (by decide : ∀ c ∈ ([.char ',', .char ']', .char '\x7d', .char '\n'] : List CodePoint),
    c.isDigit = false ∧ c ≠ .char '.' ∧ c ≠ .char 'e' ∧ c ≠ .char 'E') c h

theorem delimited_lineBreak (hc : c = .char ']' ∨ c = .char '\x7d') (l : Layout) (depth : Nat) :
    Delimited ((l.lineBreak depth).toList ++ c :: rest) := by
  cases l with
  | oneLine => exact delimited_cons (by rcases hc with rfl | rfl <;> decide)
  | indented width => exact delimited_cons (by decide)

theorem delimited_writeItems (l : Layout) (depth : Nat) (items : List Json) (h : Delimited tail) :
    Delimited ((writeItems l depth items).toList ++ tail) := by
  cases items with
  | nil => exact h
  | cons v rest =>
    obtain ⟨spaces, -, hsep⟩ := separator_eq l depth
    rw [writeItems, toList_append, toList_append, hsep]
    exact delimited_cons (by decide)

section
variable {i : Input} {spaces : List CodePoint}

theorem readItems_last (hv : readValue fuel room i = .ok (v, ⟨spaces ++ .char ']' :: rest, offset⟩))
    (hspaces : AreSpaces spaces) (read : List Json) :
    ∃ offset', readItems (fuel + 1) room read i = .ok (list (read.reverse ++ [v]), ⟨rest, offset'⟩) := by
  rw [readItems, hv]
  dsimp only
  rw [skipSpace_append hspaces (by decide), List.reverse_cons]
  exact ⟨_, rfl⟩

theorem readItems_next (hv : readValue fuel room i = .ok (v, ⟨.char ',' :: (spaces ++ c :: tail), offset⟩))
    (hspaces : AreSpaces spaces) (hc : Input.isSpace c = false) (read : List Json) :
    ∃ offset', readItems (fuel + 1) room read i = readItems fuel room (v :: read) ⟨c :: tail, offset'⟩ := by
  rw [readItems, hv]
  dsimp only
  rw [skipSpace_cons (by decide)]
  exact ⟨_, congrArg (readItems fuel room (v :: read)) (skipSpace_append hspaces hc (offset + 1))⟩

end

/-- The items of a list from the next one on, up to the closing bracket. -/
theorem readItems_write (hread : ∀ w ∈ v :: items, ReadsBack l depth room w)
    (hrestorable : ∀ w ∈ v :: items, Restorable room w) (read : List Json) (offset : Nat)
    (hfuel : 2 * ((writeAt l depth v).length + (writeItems l depth items).length) + 2 ≤ fuel) (depth' : Nat)
    (rest : List CodePoint) :
    ∃ offset', readItems fuel room read ⟨(writeAt l depth v).toList ++ ((writeItems l depth items).toList ++
        ((l.lineBreak depth').toList ++ .char ']' :: rest)), offset⟩ =
      .ok (list (read.reverse ++ v :: items), ⟨rest, offset'⟩) := by
  have hclose : Delimited ((l.lineBreak depth').toList ++ .char ']' :: rest) := delimited_lineBreak (.inl rfl) l depth'
  induction items generalizing v read offset fuel with
  | nil =>
    obtain ⟨fuel, rfl⟩ : ∃ n, fuel = n + 1 := ⟨fuel - 1, by omega⟩
    obtain ⟨offset', hv⟩ := hread v List.mem_cons_self fuel _ offset hclose (by omega)
    exact readItems_last hv (areSpaces_lineBreak l depth') read
  | cons w items ih =>
    obtain ⟨fuel, rfl⟩ : ∃ n, fuel = n + 1 := ⟨fuel - 1, by omega⟩
    obtain ⟨spaces, hspaces, hsep⟩ := separator_eq l depth
    obtain ⟨c, cs, hw, hc, -⟩ := head_writeAt (hrestorable w (by simp)) l depth
    have hmore : (writeItems l depth (w :: items)).toList =
        .char ',' :: (spaces ++ ((writeAt l depth w).toList ++ (writeItems l depth items).toList)) := by
      rw [writeItems, toList_append, toList_append, hsep, List.cons_append, List.cons_append, List.append_assoc]
    have hlength : (writeAt l depth w).length + (writeItems l depth items).length + 1 ≤
        (writeItems l depth (w :: items)).length := by
      simp only [Text.length, hmore, List.length_cons, List.length_append]
      omega
    obtain ⟨offset₁, hv⟩ := hread v List.mem_cons_self fuel _ offset
      (delimited_writeItems l depth (w :: items) hclose) (by omega)
    rw [hmore, hw] at hv ⊢
    simp only [List.cons_append, List.append_assoc] at hv ⊢
    obtain ⟨offset₂, hnext⟩ := readItems_next hv hspaces hc read
    obtain ⟨offset₃, hrest⟩ := ih (fun u hu => hread u (List.mem_cons_of_mem v hu))
      (fun u hu => hrestorable u (List.mem_cons_of_mem v hu)) (v :: read) offset₂
      (by omega : 2 * ((writeAt l depth w).length + (writeItems l depth items).length) + 2 ≤ fuel)
    rw [hw, List.reverse_cons, List.append_assoc] at hrest
    exact ⟨offset₃, hnext.trans hrest⟩

/-! ### Objects -/

theorem setMember_of_notMem {key : Text} {members : List (Text × Json)} (h : key ∉ members.map Prod.fst) :
    setMember key v members = members ++ [(key, v)] := by
  induction members with
  | nil => rfl
  | cons m rest ih =>
    rw [List.map_cons, List.mem_cons, not_or] at h
    rw [setMember, if_neg (Ne.symm h.1), ih h.2]
    rfl

theorem readString_literal {key : Text} (h : Unpaired key.toList) (rest : List CodePoint) (offset : Nat) :
    ∃ offset', readString offset [] (offset + 1) 0 (key.toList.flatMap escapeChar ++ .char '"' :: rest) =
      .ok (key, ⟨rest, offset'⟩) :=
  ⟨_, readString_escaped h [] (offset + 1)⟩

section
variable {key : Text} {spaces : List CodePoint} {read : List (Text × Json)}

/-- The characters of a member, whose value starts with `c`. -/
def memberChars (key : Text) (value : List CodePoint) : List CodePoint :=
  (stringLiteral key).toList ++ .char ':' :: .char ' ' :: value

/-- The key of a member is read, and then its value. -/
theorem readMembers_member (hkey : Unpaired key.toList) (hnew : key ∉ read.map Prod.fst) (hc : Input.isSpace c = false)
    (hv : ∀ offset, ∃ offset', readValue fuel room ⟨c :: cs, offset⟩ = .ok (v, ⟨tail, offset'⟩)) (offset : Nat) :
    ∃ offset', readMembers (fuel + 1) room read ⟨memberChars key (c :: cs), offset⟩ =
      match (Input.mk tail offset').skipSpace.rest with
      | .char '\x7d' :: _ => .ok (obj (read ++ [(key, v)]), (Input.mk tail offset').skipSpace.advance 1)
      | .char ',' :: _ =>
        readMembers fuel room (read ++ [(key, v)]) ((Input.mk tail offset').skipSpace.advance 1).skipSpace
      | _ => (Input.mk tail offset').skipSpace.fail .comma := by
  obtain ⟨offset₁, hstring⟩ := readString_literal hkey (.char ':' :: .char ' ' :: c :: cs) offset
  obtain ⟨offset₂, hvalue⟩ := hv (offset₁ + 1 + 1)
  have hblank : AreSpaces [.char ' '] := List.forall_mem_singleton.2 rfl
  have hskip : ((Input.mk (.char ':' :: .char ' ' :: c :: cs) offset₁).advance 1).skipSpace =
      ⟨c :: cs, offset₁ + 1 + 1⟩ := skipSpace_append hblank hc (offset₁ + 1)
  have hchars : memberChars key (c :: cs) =
      .char '"' :: (key.toList.flatMap escapeChar ++ .char '"' :: .char ':' :: .char ' ' :: c :: cs) := by
    simp [memberChars, stringLiteral]
  refine ⟨offset₂, ?_⟩
  rw [hchars, readMembers]
  split
  · rename_i chars heq
    rw [← (List.cons.inj heq).2, hstring]
    dsimp only
    rw [skipSpace_cons (by decide)]
    split
    · rename_i hcolon
      generalize hmore : read ++ [(key, v)] = more
      rw [← setMember_of_notMem hnew] at hmore
      rw [hskip, hvalue]
      subst hmore
      rfl
    · rename_i hno
      exact absurd rfl (hno _)
  · rename_i hno
    exact absurd rfl (hno _)

theorem readMembers_last (hkey : Unpaired key.toList) (hnew : key ∉ read.map Prod.fst) (hc : Input.isSpace c = false)
    (hv : ∀ offset, ∃ offset', readValue fuel room ⟨c :: cs, offset⟩ = .ok (v, ⟨spaces ++ .char '\x7d' :: rest, offset'⟩))
    (hspaces : AreSpaces spaces) (offset : Nat) :
    ∃ offset', readMembers (fuel + 1) room read ⟨memberChars key (c :: cs), offset⟩ =
      .ok (obj (read ++ [(key, v)]), ⟨rest, offset'⟩) := by
  obtain ⟨offset₁, hmember⟩ := readMembers_member hkey hnew hc hv offset
  rw [hmember, skipSpace_append hspaces (by decide)]
  exact ⟨_, rfl⟩

theorem readMembers_next {d : CodePoint} (hkey : Unpaired key.toList) (hnew : key ∉ read.map Prod.fst)
    (hc : Input.isSpace c = false)
    (hv : ∀ offset, ∃ offset',
      readValue fuel room ⟨c :: cs, offset⟩ = .ok (v, ⟨.char ',' :: (spaces ++ d :: tail), offset'⟩))
    (hspaces : AreSpaces spaces) (hd : Input.isSpace d = false) (offset : Nat) :
    ∃ offset', readMembers (fuel + 1) room read ⟨memberChars key (c :: cs), offset⟩ =
      readMembers fuel room (read ++ [(key, v)]) ⟨d :: tail, offset'⟩ := by
  obtain ⟨offset₁, hmember⟩ := readMembers_member hkey hnew hc hv offset
  rw [hmember, skipSpace_cons (by decide)]
  exact ⟨_, congrArg (readMembers fuel room _) (skipSpace_append hspaces hd (offset₁ + 1))⟩

end

theorem delimited_writeMembers (l : Layout) (depth : Nat) (members : List (Text × Json)) (h : Delimited tail) :
    Delimited ((writeMembers l depth members).toList ++ tail) := by
  cases members with
  | nil => exact h
  | cons m rest =>
    obtain ⟨spaces, -, hsep⟩ := separator_eq l depth
    rw [writeMembers, toList_append, toList_append, toList_append, toList_append, hsep]
    exact delimited_cons (by decide)

/-- The members of an object from the next one on, up to the closing bracket. -/
theorem readMembers_write {key : Text} {members : List (Text × Json)}
    (hread : ∀ m ∈ (key, v) :: members, ReadsBack l depth room m.2)
    (hrestorable : ∀ m ∈ (key, v) :: members, Restorable room m.2)
    (hkeys : ∀ m ∈ (key, v) :: members, Unpaired m.1.toList) (read : List (Text × Json))
    (hnodup : ((read ++ (key, v) :: members).map Prod.fst).Nodup) (offset : Nat)
    (hfuel : 2 * ((writeAt l depth v).length + (writeMembers l depth members).length) + 2 ≤ fuel) (depth' : Nat)
    (rest : List CodePoint) :
    ∃ offset', readMembers fuel room read ⟨memberChars key ((writeAt l depth v).toList ++
        ((writeMembers l depth members).toList ++ ((l.lineBreak depth').toList ++ .char '\x7d' :: rest))), offset⟩ =
      .ok (obj (read ++ (key, v) :: members), ⟨rest, offset'⟩) := by
  have hclose : Delimited ((l.lineBreak depth').toList ++ .char '\x7d' :: rest) := delimited_lineBreak (.inr rfl) l depth'
  have hnew {key : Text} {v : Json} {read members : List (Text × Json)}
      (h : ((read ++ (key, v) :: members).map Prod.fst).Nodup) : key ∉ read.map Prod.fst := by
    rw [List.map_append, List.map_cons] at h
    exact fun hk => (List.nodup_append.1 h).2.2 key hk key List.mem_cons_self rfl
  induction members generalizing key v read offset fuel with
  | nil =>
    obtain ⟨fuel, rfl⟩ : ∃ n, fuel = n + 1 := ⟨fuel - 1, by omega⟩
    obtain ⟨c, cs, hvalue, hc, -⟩ := head_writeAt (hrestorable (key, v) List.mem_cons_self) l depth
    have hv (offset : Nat) := hread (key, v) List.mem_cons_self fuel _ offset hclose (by dsimp only; omega)
    rw [hvalue] at hv ⊢
    exact readMembers_last (hkeys (key, v) List.mem_cons_self) (hnew hnodup) hc hv (areSpaces_lineBreak l depth') offset
  | cons m members ih =>
    obtain ⟨key', w⟩ := m
    obtain ⟨fuel, rfl⟩ : ∃ n, fuel = n + 1 := ⟨fuel - 1, by omega⟩
    obtain ⟨spaces, hspaces, hsep⟩ := separator_eq l depth
    obtain ⟨c, cs, hvalue, hc, -⟩ := head_writeAt (hrestorable (key, v) List.mem_cons_self) l depth
    have hmore (tail : List CodePoint) : (writeMembers l depth ((key', w) :: members)).toList ++ tail =
        .char ',' :: (spaces ++ memberChars key' ((writeAt l depth w).toList ++
          ((writeMembers l depth members).toList ++ tail))) := by
      rw [writeMembers]
      simp [hsep, memberChars]
    have hlength : (writeAt l depth w).length + (writeMembers l depth members).length + 1 ≤
        (writeMembers l depth ((key', w) :: members)).length := by
      have := congrArg List.length (hmore [])
      simp only [List.append_nil, List.length_cons, List.length_append, memberChars] at this
      simp only [Text.length]
      omega
    have hv (offset : Nat) := hread (key, v) List.mem_cons_self fuel _ offset
      (delimited_writeMembers l depth ((key', w) :: members) hclose) (by dsimp only; omega)
    rw [hvalue] at hv ⊢
    rw [hmore] at hv ⊢
    obtain ⟨offset₂, hnext⟩ :=
      readMembers_next (d := .char '"') (hkeys (key, v) List.mem_cons_self) (hnew hnodup) hc hv hspaces
      (by decide) offset
    obtain ⟨offset₃, hrest⟩ := ih (fun u hu => hread u (List.mem_cons_of_mem _ hu))
      (fun u hu => hrestorable u (List.mem_cons_of_mem _ hu)) (fun u hu => hkeys u (List.mem_cons_of_mem _ hu))
      (read ++ [(key, v)]) (by rwa [List.append_assoc]) offset₂
      (by omega : 2 * ((writeAt l depth w).length + (writeMembers l depth members).length) + 2 ≤ fuel)
    rw [List.append_assoc] at hrest
    exact ⟨offset₃, hnext.trans hrest⟩

/-! ### Documents -/

theorem readValue_string {s : Text} (h : Unpaired s.toList) (offset : Nat) :
    ∃ offset', readValue (fuel + 1) room ⟨(stringLiteral s).toList ++ rest, offset⟩ = .ok (str s, ⟨rest, offset'⟩) := by
  obtain ⟨offset', hread⟩ := readString_literal h rest offset
  have hchars : (stringLiteral s).toList ++ rest = .char '"' :: (s.toList.flatMap escapeChar ++ .char '"' :: rest) := by
    simp [stringLiteral]
  refine ⟨offset', ?_⟩
  rw [hchars, readValue]
  split
  · rename_i chars heq
    rw [← (List.cons.inj heq).2, hread]
  · rename_i heq
    exact absurd (List.cons.inj heq).1 (by decide)
  · rename_i heq
    exact absurd (List.cons.inj heq).1 (by decide)
  · rename_i hno _ _
    exact absurd rfl (hno _)

theorem readValue_items {spaces : List CodePoint} (fuel room : Nat) (tail : List CodePoint)
    (hspaces : AreSpaces spaces) (hc : Input.isSpace c = false)
    (hclose : c ≠ .char ']') (offset : Nat) :
    ∃ offset', readValue (fuel + 1) (room + 1) ⟨.char '[' :: (spaces ++ c :: tail), offset⟩ =
      readItems fuel room [] ⟨c :: tail, offset'⟩ := by
  have hskip : ((Input.mk (.char '[' :: (spaces ++ c :: tail)) offset).advance 1).skipSpace = _ :=
    skipSpace_append hspaces hc (offset + 1)
  refine ⟨offset + 1 + spaces.length, ?_⟩
  rw [readValue]
  split
  · rename_i heq
    exact absurd (List.cons.inj heq).1 (by decide)
  · rw [if_neg (Nat.succ_ne_zero room), hskip]
    dsimp only
    split
    · rename_i heq
      exact absurd (List.cons.inj heq).1 hclose
    · rfl
  · rename_i heq
    exact absurd (List.cons.inj heq).1 (by decide)
  · rename_i _ hno _
    exact absurd rfl (hno _)

theorem readValue_members {spaces : List CodePoint} (fuel room : Nat) (tail : List CodePoint)
    (hspaces : AreSpaces spaces) (hc : Input.isSpace c = false)
    (hclose : c ≠ .char '\x7d') (offset : Nat) :
    ∃ offset', readValue (fuel + 1) (room + 1) ⟨.char '\x7b' :: (spaces ++ c :: tail), offset⟩ =
      readMembers fuel room [] ⟨c :: tail, offset'⟩ := by
  have hskip : ((Input.mk (.char '\x7b' :: (spaces ++ c :: tail)) offset).advance 1).skipSpace = _ :=
    skipSpace_append hspaces hc (offset + 1)
  refine ⟨offset + 1 + spaces.length, ?_⟩
  rw [readValue]
  split
  · rename_i heq
    exact absurd (List.cons.inj heq).1 (by decide)
  · rename_i heq
    exact absurd (List.cons.inj heq).1 (by decide)
  · rw [if_neg (Nat.succ_ne_zero room), hskip]
    dsimp only
    split
    · rename_i heq
      exact absurd (List.cons.inj heq).1 hclose
    · rfl
  · rename_i _ _ hno
    exact absurd rfl (hno _)

/-- A value that can be restored is read back from what is written of it. -/
theorem Restorable.readsBack (h : Restorable room v) (l : Layout) (depth : Nat) : ReadsBack l depth room v := by
  induction h generalizing depth with
  | null =>
    intro fuel rest offset _ hfuel
    obtain ⟨fuel, rfl⟩ : ∃ n, fuel = n + 1 := ⟨fuel - 1, by omega⟩
    exact ⟨_, (readValue_scalar (by decide) offset).trans rfl⟩
  | bool b =>
    intro fuel rest offset _ hfuel
    obtain ⟨fuel, rfl⟩ : ∃ n, fuel = n + 1 := ⟨fuel - 1, by omega⟩
    cases b <;> exact ⟨_, (readValue_scalar (by decide) offset).trans rfl⟩
  | @int _ n hlimit =>
    intro fuel rest offset hrest hfuel
    obtain ⟨fuel, rfl⟩ : ∃ n, fuel = n + 1 := ⟨fuel - 1, by omega⟩
    obtain ⟨offset', hread⟩ := readScalar_int hlimit hrest offset
    have hstarts : ∃ c cs, intChars n = c :: cs ∧ StartsScalar c := by
      unfold intChars
      split
      · exact ⟨_, _, rfl, by decide⟩
      · obtain ⟨c, cs, hdigits⟩ := List.exists_cons_of_ne_nil (natDigits_ne_nil n.natAbs)
        have hc : c.isDigit = true := isDigit_of_mem_natDigits (n := n.natAbs) (hdigits ▸ List.mem_cons_self)
        refine ⟨c, cs, hdigits, ?_, ?_, ?_⟩ <;> rintro rfl <;> cases hc
    obtain ⟨c, cs, hchars, hc⟩ := hstarts
    have hwritten : (writeAt l depth (.int n)).toList = intChars n := by rw [writeAt]; rfl
    rw [hwritten]
    rw [hchars] at hread ⊢
    exact ⟨offset', (readValue_scalar hc offset).trans hread⟩
  | @str _ s hs =>
    intro fuel rest offset _ hfuel
    obtain ⟨fuel, rfl⟩ : ∃ n, fuel = n + 1 := ⟨fuel - 1, by omega⟩
    rw [writeAt]
    exact readValue_string hs offset
  | @list room items hitems ih =>
    intro fuel rest offset _ hfuel
    obtain ⟨fuel, rfl⟩ : ∃ n, fuel = n + 1 := ⟨fuel - 1, by omega⟩
    cases items with
    | nil => exact ⟨_, rfl⟩
    | cons v items =>
      obtain ⟨c, cs, hvalue, hc, hclose⟩ := head_writeAt (hitems v List.mem_cons_self) l (depth + 1)
      have hchars (tail : List CodePoint) : (writeAt l depth (.list (v :: items))).toList ++ tail =
          .char '[' :: ((l.lineBreak (depth + 1)).toList ++ ((writeAt l (depth + 1) v).toList ++
            ((writeItems l (depth + 1) items).toList ++ ((l.lineBreak depth).toList ++ .char ']' :: tail)))) := by
        rw [writeAt]
        simp
      have hlength := congrArg List.length (hchars [])
      simp only [List.append_nil, List.length_cons, List.length_append, List.length_nil] at hlength
      obtain ⟨offset₁, hopen⟩ := readValue_items fuel room
        (cs ++ ((writeItems l (depth + 1) items).toList ++ ((l.lineBreak depth).toList ++ .char ']' :: rest)))
        (areSpaces_lineBreak l (depth + 1)) hc hclose offset
      have hmore : 2 * ((writeAt l (depth + 1) v).length + (writeItems l (depth + 1) items).length) + 2 ≤ fuel := by
        simp only [Text.length] at hfuel ⊢
        omega
      obtain ⟨offset₂, hread⟩ :=
        readItems_write (fun w hw => ih w hw (depth + 1)) hitems [] offset₁ hmore depth rest
      rw [hchars, hvalue]
      rw [hvalue] at hread
      exact ⟨offset₂, hopen.trans hread⟩
  | @obj room members hkeys hnodup hmembers ih =>
    intro fuel rest offset _ hfuel
    obtain ⟨fuel, rfl⟩ : ∃ n, fuel = n + 1 := ⟨fuel - 1, by omega⟩
    cases members with
    | nil => exact ⟨_, rfl⟩
    | cons m members =>
      obtain ⟨key, v⟩ := m
      have hchars (tail : List CodePoint) : (writeAt l depth (.obj ((key, v) :: members))).toList ++ tail =
          .char '\x7b' :: ((l.lineBreak (depth + 1)).toList ++ memberChars key ((writeAt l (depth + 1) v).toList ++
            ((writeMembers l (depth + 1) members).toList ++ ((l.lineBreak depth).toList ++ .char '\x7d' :: tail)))) := by
        rw [writeAt]
        simp [memberChars]
      have hlength := congrArg List.length (hchars [])
      simp only [List.append_nil, List.length_cons, List.length_append, List.length_nil, memberChars] at hlength
      have hmore : 2 * ((writeAt l (depth + 1) v).length + (writeMembers l (depth + 1) members).length) + 2 ≤ fuel := by
        simp only [Text.length] at hfuel ⊢
        omega
      obtain ⟨offset₁, hopen⟩ := readValue_members (c := .char '"') fuel room _
        (areSpaces_lineBreak l (depth + 1)) (by decide) (by decide) offset
      obtain ⟨offset₂, hread⟩ :=
        readMembers_write (fun w hw => ih w hw (depth + 1)) hmembers hkeys [] hnodup offset₁ hmore depth rest
      rw [hchars]
      exact ⟨offset₂, hopen.trans hread⟩

/-- A document that can be restored is read back from its text. -/
theorem read_write (h : Restorable room v) (l : Layout) : read room (write l v).toList = .ok v := by
  obtain ⟨c, cs, hvalue, hc, -⟩ := head_writeAt h l 0
  obtain ⟨offset, hread⟩ := h.readsBack l 0 (2 * (writeAt l 0 v).length + 2) [] 0 nofun (by omega)
  have hmark : (writeAt l 0 v).toList.head? ≠ some (CodePoint.ofNat 0xFEFF) := by
    intro hhead
    exact absurd (isPlain_writeAt l 0 v _ (List.mem_of_head? hhead)) (by decide)
  have hstart : (Input.mk (writeAt l 0 v).toList 0).skipSpace = ⟨(writeAt l 0 v).toList, 0⟩ := by
    rw [hvalue]
    exact skipSpace_cons hc 0
  rw [List.append_nil] at hread
  change readValue (2 * (writeAt l 0 v).toList.length + 2) _ _ = _ at hread
  rw [read, write, if_neg hmark, hstart, hread]
  rfl

end Json

end Blame
