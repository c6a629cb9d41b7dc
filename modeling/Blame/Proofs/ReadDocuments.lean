import Blame.Proofs.JsonRoundTrip
import Mathlib.Algebra.Group.Nat.Defs
import Mathlib.Data.List.TakeWhile

/-!
# What a reader gives

Bytes stand for characters only, so the halves of surrogate pairs in a document come from its escapes, and two of them
that belong together are read as one character. Whatever is read is therefore as it can be written again, doubles
apart (`asRead_of_read`), and so is every text that is made of it (`unpaired_asText`).
-/

namespace Blame

open Text

/-- There are characters only. -/
def Text.HalfFree (cs : List CodePoint) : Prop := ∀ c ∈ cs, c.isHalf = false

namespace Text

variable {cs ds : List CodePoint}

theorem HalfFree.of_subset (h : HalfFree ds) (hs : cs ⊆ ds) : HalfFree cs := fun c hc => h c (hs hc)

theorem HalfFree.append (h : HalfFree cs) (h' : HalfFree ds) : HalfFree (cs ++ ds) := fun c hc =>
  (List.mem_append.1 hc).elim (h c) (h' c)

theorem ArePlain.halfFree (h : ArePlain cs) : HalfFree cs := by
  intro c hc
  obtain ⟨a, rfl, -⟩ := (h c hc).exists_char
  rfl

namespace Utf8

theorem isHalf_ofNat {n : Nat} (h : n < 0xD800 ∨ 0xE000 ≤ n) : (CodePoint.ofNat n).isHalf = false := by
  rw [CodePoint.ofNat, dif_neg (by omega)]
  rfl

/-- What is read on from `acc` if each byte carries the bits that `pick` tells of its range. -/
def readOn (pick : Nat × Nat → Nat) (acc : Nat) : List (Nat × Nat) → Nat
  | [] => acc
  | r :: ranges => readOn pick (acc * 64 + pick r) ranges

def leastBits (r : Nat × Nat) : Nat := r.1 - 0x80

def mostBits (r : Nat × Nat) : Nat := r.2 - 0x80

theorem readOn_mono (pick : Nat × Nat → Nat) {acc acc' : Nat} (h : acc ≤ acc') (ranges : List (Nat × Nat)) :
    readOn pick acc ranges ≤ readOn pick acc' ranges := by
  induction ranges generalizing acc acc' with
  | nil => exact h
  | cons r ranges ih =>
    rw [readOn, readOn]
    exact ih (by omega)

theorem continuation_bounds {acc taken code : Nat} {ranges : List (Nat × Nat)} {rest : List UInt8}
    (h : continuation acc taken ranges rest = .ok code) :
    readOn leastBits acc ranges ≤ code ∧ code ≤ readOn mostBits acc ranges := by
  induction ranges generalizing acc taken rest with
  | nil =>
    cases rest <;> cases h <;> exact ⟨Nat.le_refl _, Nat.le_refl _⟩
  | cons r ranges ih =>
    obtain ⟨low, high⟩ := r
    cases rest with
    | nil => cases h
    | cons b rest =>
      rw [continuation] at h
      split at h
      · obtain ⟨hlower, hupper⟩ := ih h
        have hfirst : leastBits (low, high) ≤ b.toNat - 0x80 := by unfold leastBits; omega
        have hlast : b.toNat - 0x80 ≤ mostBits (low, high) := by unfold mostBits; omega
        rw [readOn, readOn]
        exact ⟨Nat.le_trans (readOn_mono _ (Nat.add_le_add_left hfirst _) ranges) hlower,
          Nat.le_trans hupper (readOn_mono _ (Nat.add_le_add_left hlast _) ranges)⟩
      · cases h

/-- The sequences that a byte may start stand for code points below the surrogates, or for ones above them. -/
theorem lead?_spares_surrogates {b : Nat} {l : Lead} (h : lead? b = some l) :
    readOn mostBits l.bits l.ranges < 0xD800 ∨ 0xE000 ≤ readOn leastBits l.bits l.ranges := by
  have hall : ∀ b : Fin 0xF5, ∀ l ∈ lead? b.val,
      readOn mostBits l.bits l.ranges < 0xD800 ∨ 0xE000 ≤ readOn leastBits l.bits l.ranges := by decide +kernel
  by_cases hb : b < 0xF5
  · exact hall ⟨b, hb⟩ l h
  · rw [lead?, if_neg (by omega), if_neg (by omega), if_neg (by omega), if_neg (by omega), if_neg hb] at h
    cases h

theorem halfFree_decodeFrom {offset skip : Nat} {bytes : List UInt8} (h : decodeFrom offset skip bytes = .ok cs) :
    HalfFree cs := by
  induction bytes generalizing offset skip cs with
  | nil =>
    cases h
    exact nofun
  | cons b rest ih =>
    cases skip with
    | succ skip => exact ih h
    | zero =>
      rw [decodeFrom] at h
      split at h
      · cases h
      · rename_i l hlead
        split at h
        · cases h
        · rename_i code hcode
          split at h
          · rename_i more hmore
            cases h
            have hbounds := continuation_bounds hcode
            have hspares := lead?_spares_surrogates hlead
            exact List.forall_mem_cons.2 ⟨isHalf_ofNat (by omega), ih hmore⟩
          · cases h

theorem halfFree_decode {bytes : List UInt8} (h : decode bytes = .ok cs) : HalfFree cs := halfFree_decodeFrom h

end Utf8

theorem halfFree_unixLines (h : HalfFree cs) : HalfFree (unixLines cs) := by
  induction cs using unixLines.induct with
  | case1 => exact nofun
  | case2 rest ih =>
    rw [unixLines]
    exact List.forall_mem_cons.2 ⟨rfl, ih (h.of_subset (by simp))⟩
  | case3 rest hno ih =>
    rw [unixLines]
    · exact List.forall_mem_cons.2 ⟨rfl, ih (h.of_subset (List.subset_cons_self _ _))⟩
    · exact hno
  | case4 c rest hno hno' ih =>
    rw [unixLines]
    · exact List.forall_mem_cons.2 ⟨h c List.mem_cons_self, ih (h.of_subset (List.subset_cons_self _ _))⟩
    · exact hno
    · exact hno'

end Text

namespace Json

open Number Text

variable {c d : CodePoint} {cs rest : List CodePoint} {n offset : Nat}

/-- A value as a reader gives it: it can be written and read again, but for doubles and for keys. -/
inductive AsRead : Json → Prop
  | null : AsRead null
  | bool (b : Bool) : AsRead (bool b)
  | int {n : Int} (h : (natDigits n.natAbs).length ≤ digitLimit) : AsRead (int n)
  | float (x : Double) : AsRead (float x)
  | str {s : Text} (h : Unpaired s.toList) : AsRead (str s)
  | list {items : List Json} (h : ∀ v ∈ items, AsRead v) : AsRead (list items)
  | obj {members : List (Text × Json)} (h : ∀ m ∈ members, AsRead m.2) : AsRead (obj members)

/-! ### Texts -/

theorem not_surrogate_of_not_isHalf (h : c.isHalf = false) :
    isHighSurrogate c.toNat = false ∧ isLowSurrogate c.toNat = false := by
  cases c with
  | char a =>
    have hvalid : a.toNat < 0xD800 ∨ 0xDFFF < a.toNat ∧ a.toNat < 0x110000 := a.valid
    change isHighSurrogate a.toNat = false ∧ isLowSurrogate a.toNat = false
    simp only [isHighSurrogate, isLowSurrogate, Bool.and_eq_false_iff, decide_eq_false_iff_not]
    omega
  | half n => cases h

theorem unpaired_of_halfFree (h : HalfFree cs) : Unpaired cs := by
  induction cs with
  | nil => exact .nil
  | cons c rest ih =>
    refine List.isChain_cons.2 ⟨fun d _ hboth => ?_, ih (h.of_subset (List.subset_cons_self _ _))⟩
    rw [(not_surrogate_of_not_isHalf (h c List.mem_cons_self)).1] at hboth
    exact Bool.false_ne_true hboth.1

theorem toNat_ofNat (h : n < 0x110000) : (CodePoint.ofNat n).toNat = n := by
  unfold CodePoint.ofNat
  split
  · rename_i hn
    change 0xD800 + (n - 0xD800) = n
    omega
  · change (Char.ofNat n).toNat = n
    have hvalid : n.isValidChar := by
      rw [Nat.isValidChar]
      omega
    rw [Char.ofNat, dif_pos hvalid]
    rfl

theorem hexValue?_lt {d : Nat} (h : hexValue? c = some d) : d < 0x10 := by
  have hle {a b : CodePoint} (h : a ≤ b) : a.toNat ≤ b.toNat := h
  unfold hexValue? at h
  split at h
  · rename_i hdigit
    cases c with
    | half n => cases hdigit
    | char a =>
      have hhigh : a.toNat ≤ 57 := by
        have hboth : a.isDigit = true := hdigit
        simp only [Char.isDigit, Bool.and_eq_true, decide_eq_true_eq] at hboth
        exact hboth.2
      have hd : a.toNat - 48 = d := Option.some.inj h
      omega
  split at h
  · rename_i hletter
    have hhigh : c.toNat ≤ 102 := hle hletter.2
    have hd : c.toNat - 97 + 10 = d := Option.some.inj h
    omega
  split at h
  · rename_i hletter
    have hhigh : c.toNat ≤ 70 := hle hletter.2
    have hd : c.toNat - 65 + 10 = d := Option.some.inj h
    omega
  · cases h

theorem hex4?_lt (h : hex4? cs = some n) : n < 0x10000 := by
  unfold hex4? at h
  split at h
  · split at h
    · rename_i a b c d ha hb hc hd
      have ha := hexValue?_lt ha
      have hb := hexValue?_lt hb
      have hc := hexValue?_lt hc
      have hd := hexValue?_lt hd
      have hn := Option.some.inj h
      omega
    · cases h
  · cases h

/-- The characters do not go on with an escape of a low half, unless they break off in it. -/
def NoLowUnit (cs : List CodePoint) : Prop :=
  ∀ more, cs = .char '\\' :: .char 'u' :: more → ∀ m, hex4? more = some m → isLowSurrogate m = true → more.length ≤ 4

theorem not_surrogate_of_ofNat (hlow : 0x10000 ≤ n) (hhigh : n < 0x110000) (h : CodePoint.ofNat n = c) :
    isHighSurrogate c.toNat = false ∧ isLowSurrogate c.toNat = false := by
  rw [← h, toNat_ofNat hhigh]
  simp only [isLowSurrogate, isHighSurrogate, Bool.and_eq_false_iff, decide_eq_false_iff_not]
  omega

/-- An escape of a unit gives a character beyond the surrogates, or the unit that it names, and behind a high half no
low one is left. -/
theorem readUnit_ok (h : readUnit offset rest = .ok (c, n)) :
    4 < rest.length ∧
      (isHighSurrogate c.toNat = false ∧ isLowSurrogate c.toNat = false ∨
        hex4? rest = some c.toNat ∧ (isHighSurrogate c.toNat = true → NoLowUnit (rest.drop n))) := by
  unfold readUnit at h
  split at h
  · cases h
  · rename_i hlength
    refine ⟨Nat.not_le.1 hlength, ?_⟩
    split at h
    · cases h
    · rename_i unit hunit
      have hlt := hex4?_lt hunit
      have hself : (CodePoint.ofNat unit).toNat = unit := toNat_ofNat (by omega)
      split at h
      · rename_i more hmore
        split at h
        · rename_i hhigh
          split at h
          · cases h
          · rename_i m hm
            have hmlt := hex4?_lt hm
            split at h
            · rename_i hlow
              simp only [isHighSurrogate, isLowSurrogate, Bool.and_eq_true, decide_eq_true_eq] at hhigh hlow
              have hc := (Prod.mk.inj (Except.ok.inj h)).1
              exact .inl (not_surrogate_of_ofNat (by omega) (by omega) hc)
            · rename_i hlow
              cases h
              refine .inr ⟨by rw [hself, hunit], fun _ more' hmore' m' hm' hlow' => ?_⟩
              rw [hmore] at hmore'
              obtain rfl : more = more' := (List.cons.inj (List.cons.inj hmore').2).2
              rw [hm] at hm'
              exact absurd (Option.some.inj hm' ▸ hlow') hlow
        · rename_i hnot
          cases h
          refine .inr ⟨by rw [hself, hunit], fun hhigh more' hmore' m' _ _ => ?_⟩
          rw [hmore] at hmore'
          obtain rfl : more = more' := (List.cons.inj (List.cons.inj hmore').2).2
          rw [hself] at hhigh
          rw [hhigh, Bool.true_and, decide_eq_true_eq] at hnot
          exact Nat.not_lt.1 hnot
      · rename_i hno
        cases h
        exact .inr ⟨by rw [hself, hunit], fun _ more' hmore' => absurd hmore' (hno more')⟩

theorem not_isHalf_of_simpleEscape? (h : simpleEscape? c = some d) : d.isHalf = false := by
  unfold simpleEscape? at h
  split at h <;> cases h <;> decide

/-- The code points so far, in reverse, and what follows do not part a surrogate pair. -/
structure Unparted (read cs : List CodePoint) : Prop where
  chain : read.IsChain fun d c => Apart c d
  next : ∀ c ∈ read.head?, isHighSurrogate c.toNat = true → NoLowUnit cs

theorem unparted_nil (cs : List CodePoint) : Unparted [] cs := ⟨.nil, nofun⟩

theorem Unparted.push_of_not_surrogate {read : List CodePoint} (h : Unparted read cs)
    (hc : isHighSurrogate c.toNat = false ∧ isLowSurrogate c.toNat = false) (rest : List CodePoint) :
    Unparted (c :: read) rest := by
  refine ⟨List.isChain_cons.2 ⟨fun d _ hboth => ?_, h.chain⟩, ?_⟩
  · rw [hc.2] at hboth
    exact Bool.false_ne_true hboth.2
  · rintro d ⟨⟩ hhigh
    rw [hc.1] at hhigh
    cases hhigh

theorem Unparted.push_of_readEscape {start : Nat} {read : List CodePoint} (h : Unparted read (.char '\\' :: rest))
    (hescape : readEscape start offset rest = .ok (c, n)) : Unparted (c :: read) (rest.drop n) := by
  unfold readEscape at hescape
  split at hescape
  · cases hescape
  · rename_i more
    split at hescape
    · rename_i d m hunit
      cases hescape
      obtain ⟨hlength, hno | ⟨hself, hnext⟩⟩ := readUnit_ok hunit
      · exact h.push_of_not_surrogate hno _
      · refine ⟨List.isChain_cons.2 ⟨fun b hb hboth => ?_, h.chain⟩, ?_⟩
        · have hbroken := h.next b hb hboth.1 more rfl _ hself hboth.2
          omega
        · rintro b ⟨⟩ hhigh
          exact hnext hhigh
    · cases hescape
  · split at hescape
    · rename_i hsimple
      cases hescape
      exact h.push_of_not_surrogate (not_surrogate_of_not_isHalf (not_isHalf_of_simpleEscape? hsimple)) _
    · cases hescape

theorem unpaired_of_readString {start offset skip : Nat} {read : List CodePoint} {s : Text} {j : Input}
    (hfree : HalfFree cs) (hread : Unparted read (cs.drop skip))
    (h : readString start read offset skip cs = .ok (s, j)) : Unpaired s.toList ∧ HalfFree j.rest := by
  induction cs generalizing read offset skip with
  | nil => cases h
  | cons c rest ih =>
    have hrest := hfree.of_subset (List.subset_cons_self c rest)
    cases skip with
    | succ skip =>
      rw [readString] at h
      exact ih hrest hread h
    | zero =>
      rw [List.drop_zero] at hread
      rw [readString] at h
      split at h
      · cases h
        exact ⟨List.isChain_reverse.2 hread.chain, hrest⟩
      split at h
      · rename_i hbackslash
        subst hbackslash
        split at h
        · rename_i d n hescape
          exact ih hrest (hread.push_of_readEscape hescape) h
        · cases h
      split at h
      · cases h
      · exact ih hrest (hread.push_of_not_surrogate (not_surrogate_of_not_isHalf (hfree c List.mem_cons_self)) _) h

/-! ### Words and numbers -/

variable {i j : Input} {v : Json} {fuel room : Nat}

theorem halfFree_advance (h : HalfFree i.rest) (n : Nat) : HalfFree (i.advance n).rest :=
  h.of_subset (List.drop_subset _ _)

theorem halfFree_skipSpace (h : HalfFree i.rest) : HalfFree i.skipSpace.rest := halfFree_advance h _

theorem digitsValue_lt (h : ∀ c ∈ cs, c.isDigit = true) : digitsValue cs < 10 ^ cs.length := by
  have hfold : ∀ (acc : Nat), cs.foldl (fun n c => n * 10 + (c.toNat - '0'.toNat)) acc < (acc + 1) * 10 ^ cs.length := by
    induction cs with
    | nil => intro acc; simp
    | cons c rest ih =>
      intro acc
      have hc : c.toNat - '0'.toNat ≤ 9 := by
        have hdigit := h c List.mem_cons_self
        cases c with
        | half n => cases hdigit
        | char a =>
          have hboth : a.isDigit = true := hdigit
          simp only [Char.isDigit, Bool.and_eq_true, decide_eq_true_eq] at hboth
          have hhigh : a.toNat ≤ 57 := hboth.2
          change a.toNat - 48 ≤ 9
          omega
      have hrest := ih (fun d hd => h d (List.mem_cons_of_mem c hd)) (acc * 10 + (c.toNat - '0'.toNat))
      rw [List.foldl_cons, List.length_cons, Nat.pow_succ']
      refine Nat.lt_of_lt_of_le hrest ?_
      rw [← Nat.mul_assoc]
      exact Nat.mul_le_mul_right _ (by omega)
  have hzero := hfold 0
  rwa [Nat.zero_add, Nat.one_mul] at hzero

theorem isDigit_of_mem_wholeDigits (h : c ∈ wholeDigits cs) : c.isDigit = true := by
  unfold wholeDigits at h
  split at h
  · rw [List.mem_singleton.1 h]
    rfl
  · exact List.mem_takeWhile_imp h

theorem length_natDigits_le (h : ∀ c ∈ cs, c.isDigit = true) (hne : cs ≠ []) :
    (natDigits (digitsValue cs)).length ≤ cs.length := by
  rw [natDigits, List.length_map, Nat.length_toDigits_le_iff (by decide) (List.length_pos_iff.2 hne)]
  exact digitsValue_lt h

theorem asRead_of_readNumber (hi : HalfFree i.rest) (h : readNumber i = .ok (v, j)) : AsRead v ∧ HalfFree j.rest := by
  unfold readNumber at h
  extract_lets negative sign cs whole afterWhole fraction fractionLength exponent n at h
  split at h
  · cases h
  · rename_i hwhole
    split at h
    · split at h
      · cases h
      · rename_i hlimit
        cases h
        refine ⟨.int ?_, halfFree_advance hi _⟩
        have hvalue (negative : Prop) [Decidable negative] (n : Nat) :
            (if negative then -(n : Int) else n).natAbs = n := by
          split <;> simp
        rw [hvalue]
        have hne := mt List.isEmpty_iff.2 hwhole
        exact (length_natDigits_le (fun c hc => isDigit_of_mem_wholeDigits hc) hne).trans (Nat.not_lt.1 hlimit)
    · cases h
      exact ⟨.float _, halfFree_advance hi _⟩

theorem asRead_of_readScalar (hi : HalfFree i.rest) (h : readScalar i = .ok (v, j)) : AsRead v ∧ HalfFree j.rest := by
  unfold readScalar at h
  split at h
  · rename_i word w hfind
    cases h
    have hwords : ∀ w ∈ words, AsRead w.2 := by
      intro w hw
      simp only [words, List.mem_cons, List.not_mem_nil, or_false] at hw
      rcases hw with rfl | rfl | rfl | rfl | rfl | rfl
      · exact .null
      · exact .bool true
      · exact .bool false
      · exact .float _
      · exact .float _
      · exact .float _
    exact ⟨hwords _ (List.mem_of_find?_eq_some hfind), halfFree_advance hi _⟩
  · exact asRead_of_readNumber hi h

/-! ### Documents -/

theorem asRead_setMember (key : Text) {members : List (Text × Json)} (hv : AsRead v) (h : ∀ m ∈ members, AsRead m.2) :
    ∀ m ∈ setMember key v members, AsRead m.2 := by
  induction members with
  | nil => exact List.forall_mem_cons.2 ⟨hv, nofun⟩
  | cons m rest ih =>
    obtain ⟨hm, hrest⟩ := List.forall_mem_cons.1 h
    rw [setMember]
    split
    · exact List.forall_mem_cons.2 ⟨hv, hrest⟩
    · exact List.forall_mem_cons.2 ⟨hm, ih hrest⟩

/-- What a number of steps gives is as it was read, and only characters are left. -/
structure ReadsSound (fuel : Nat) : Prop where
  value : ∀ {room i v j}, HalfFree i.rest → readValue fuel room i = .ok (v, j) → AsRead v ∧ HalfFree j.rest
  items : ∀ {room read i v j}, HalfFree i.rest → (∀ w ∈ read, AsRead w) → readItems fuel room read i = .ok (v, j) →
    AsRead v ∧ HalfFree j.rest
  members : ∀ {room read i v j}, HalfFree i.rest → (∀ m ∈ read, AsRead m.2) →
    readMembers fuel room read i = .ok (v, j) → AsRead v ∧ HalfFree j.rest

theorem ReadsSound.value_succ (ih : ReadsSound fuel) (hi : HalfFree i.rest)
    (h : readValue (fuel + 1) room i = .ok (v, j)) : AsRead v ∧ HalfFree j.rest := by
  have hinside : HalfFree ((i.advance 1).skipSpace).rest := halfFree_skipSpace (halfFree_advance hi 1)
  rw [readValue] at h
  split at h
  · rename_i rest hrest
    split at h
    · rename_i s k hstring
      cases h
      have hafter : HalfFree rest := hi.of_subset (hrest ▸ List.subset_cons_self _ _)
      exact (unpaired_of_readString hafter (unparted_nil _) hstring).imp_left .str
    · cases h
  · split at h
    · cases h
    · dsimp only at h
      split at h
      · cases h
        exact ⟨.list fun _ hw => absurd hw List.not_mem_nil, halfFree_advance hinside 1⟩
      · exact ih.items hinside (fun _ hw => absurd hw List.not_mem_nil) h
  · split at h
    · cases h
    · dsimp only at h
      split at h
      · cases h
        exact ⟨.obj fun _ hm => absurd hm List.not_mem_nil, halfFree_advance hinside 1⟩
      · exact ih.members hinside (fun _ hm => absurd hm List.not_mem_nil) h
  · exact asRead_of_readScalar hi h

theorem ReadsSound.items_succ {read : List Json} (ih : ReadsSound fuel) (hi : HalfFree i.rest)
    (hread : ∀ w ∈ read, AsRead w) (h : readItems (fuel + 1) room read i = .ok (v, j)) :
    AsRead v ∧ HalfFree j.rest := by
  rw [readItems] at h
  split at h
  · cases h
  · rename_i w k hvalue
    obtain ⟨hw, hk⟩ := ih.value hi hvalue
    have hmore := List.forall_mem_cons.2 ⟨hw, hread⟩
    dsimp only at h
    split at h
    · cases h
      exact ⟨.list fun u hu => hmore u (List.mem_reverse.1 hu), halfFree_advance (halfFree_skipSpace hk) 1⟩
    · exact ih.items (halfFree_skipSpace (halfFree_advance (halfFree_skipSpace hk) 1)) hmore h
    · cases h

theorem ReadsSound.members_succ {read : List (Text × Json)} (ih : ReadsSound fuel) (hi : HalfFree i.rest)
    (hread : ∀ m ∈ read, AsRead m.2) (h : readMembers (fuel + 1) room read i = .ok (v, j)) :
    AsRead v ∧ HalfFree j.rest := by
  rw [readMembers] at h
  split at h
  · rename_i rest hrest
    split at h
    · cases h
    · rename_i key k hstring
      have hafter : HalfFree rest := hi.of_subset (hrest ▸ List.subset_cons_self _ _)
      have hk := (unpaired_of_readString hafter (unparted_nil _) hstring).2
      dsimp only at h
      split at h
      · split at h
        · cases h
        · rename_i w k' hvalue
          obtain ⟨hw, hk'⟩ := ih.value (halfFree_skipSpace (halfFree_advance (halfFree_skipSpace hk) 1)) hvalue
          have hmore := asRead_setMember key hw hread
          split at h
          · cases h
            exact ⟨.obj hmore, halfFree_advance (halfFree_skipSpace hk') 1⟩
          · exact ih.members (halfFree_skipSpace (halfFree_advance (halfFree_skipSpace hk') 1)) hmore h
          · cases h
      · cases h
  · cases h

theorem readsSound (fuel : Nat) : ReadsSound fuel := by
  induction fuel with
  | zero =>
    refine ⟨fun _ h => ?_, fun _ _ h => ?_, fun _ _ h => ?_⟩
    · rw [readValue] at h
      cases h
    · rw [readItems] at h
      cases h
    · rw [readMembers] at h
      cases h
  | succ fuel ih => exact ⟨ih.value_succ, ih.items_succ, ih.members_succ⟩

/-- Whatever is read off characters can be written and read again, but for doubles and keys. -/
theorem asRead_of_read {nesting : Nat} (hcs : HalfFree cs) (h : read nesting cs = .ok v) : AsRead v := by
  unfold read at h
  split at h
  · cases h
  · split at h
    · cases h
    · rename_i w k hvalue
      have hstart : HalfFree (Input.mk cs 0).skipSpace.rest := halfFree_skipSpace (i := ⟨cs, 0⟩) hcs
      have hw := ((readsSound _).value hstart hvalue).1
      dsimp only at h
      split at h
      · cases h
        exact hw
      · cases h

end Json

end Blame
