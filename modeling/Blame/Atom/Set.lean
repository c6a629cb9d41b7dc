/-!
# Sets of atoms

An atom is a qualifier variable of the program under analysis, known by its number. A set of atoms is
kept as an ascending list, so that two sets with the same members are equal and reading one in order
needs no sorting.
-/

namespace Blame

/-- The number of a qualifier variable. -/
abbrev Atom := Int

/-- Puts an atom at its place in an ascending list, unless it is there. -/
def insertAscending (a : Atom) : List Atom → List Atom
  | [] => [a]
  | b :: rest =>
    if a < b then a :: b :: rest
    else if a = b then b :: rest
    else b :: insertAscending a rest

theorem mem_insertAscending {a x : Atom} {l : List Atom} :
    x ∈ insertAscending a l ↔ x = a ∨ x ∈ l := by
  induction l with
  | nil => simp [insertAscending]
  | cons b rest ih => grind [insertAscending]

theorem pairwise_insertAscending {a : Atom} {l : List Atom} (h : l.Pairwise (· < ·)) :
    (insertAscending a l).Pairwise (· < ·) := by
  induction l with
  | nil => simp [insertAscending]
  | cons b rest ih =>
    have hb := List.pairwise_cons.1 h
    by_cases hab : a < b
    · simp only [insertAscending, if_pos hab]
      exact List.pairwise_cons.2 ⟨fun x hx => by grind, h⟩
    · by_cases heq : a = b
      · simpa [insertAscending, heq] using h
      · simp only [insertAscending, if_neg hab, if_neg heq]
        refine List.pairwise_cons.2 ⟨fun x hx => ?_, ih hb.2⟩
        rcases mem_insertAscending.1 hx with rfl | hx
        · grind
        · exact hb.1 x hx

/-- A finite set of atoms. -/
@[ext]
structure AtomSet where
  toList : List Atom
  ascending : toList.Pairwise (· < ·)
  deriving DecidableEq

namespace AtomSet

instance : Membership Atom AtomSet := ⟨fun s a => a ∈ s.toList⟩

instance (a : Atom) (s : AtomSet) : Decidable (a ∈ s) := inferInstanceAs (Decidable (a ∈ s.toList))

def empty : AtomSet := ⟨[], .nil⟩

instance : EmptyCollection AtomSet := ⟨empty⟩

instance : Inhabited AtomSet := ⟨empty⟩

def size (s : AtomSet) : Nat := s.toList.length

def isEmpty (s : AtomSet) : Bool := s.toList.isEmpty

def insert (a : Atom) (s : AtomSet) : AtomSet :=
  ⟨insertAscending a s.toList, pairwise_insertAscending s.ascending⟩

/-- The members that satisfy a test. -/
def filter (p : Atom → Bool) (s : AtomSet) : AtomSet := ⟨s.toList.filter p, s.ascending.filter p⟩

def erase (a : Atom) (s : AtomSet) : AtomSet := s.filter (· ≠ a)

def inter (s t : AtomSet) : AtomSet := s.filter (· ∈ t)

def diff (s t : AtomSet) : AtomSet := s.filter (· ∉ t)

def ofList (l : List Atom) : AtomSet := l.foldr insert empty

def union (s t : AtomSet) : AtomSet := s.toList.foldr insert t

theorem mem_iff {a : Atom} {s : AtomSet} : a ∈ s ↔ a ∈ s.toList := Iff.rfl

@[simp] theorem not_mem_empty {a : Atom} : a ∉ empty := by simp [mem_iff, empty]

@[simp] theorem mem_insert {a b : Atom} {s : AtomSet} : a ∈ s.insert b ↔ a = b ∨ a ∈ s :=
  mem_insertAscending

@[simp] theorem mem_filter {a : Atom} {p : Atom → Bool} {s : AtomSet} :
    a ∈ s.filter p ↔ a ∈ s ∧ p a = true := List.mem_filter

@[simp] theorem mem_erase {a b : Atom} {s : AtomSet} : a ∈ s.erase b ↔ a ∈ s ∧ a ≠ b := by
  simp [erase]

@[simp] theorem mem_inter {a : Atom} {s t : AtomSet} : a ∈ s.inter t ↔ a ∈ s ∧ a ∈ t := by
  simp [inter]

@[simp] theorem mem_diff {a : Atom} {s t : AtomSet} : a ∈ s.diff t ↔ a ∈ s ∧ a ∉ t := by
  simp [diff]

@[simp] theorem mem_ofList {a : Atom} {l : List Atom} : a ∈ ofList l ↔ a ∈ l := by
  induction l with
  | nil => simp [ofList]
  | cons b rest ih => simpa [ofList] using or_congr_right ih

@[simp] theorem mem_union {a : Atom} {s t : AtomSet} : a ∈ s.union t ↔ a ∈ s ∨ a ∈ t := by
  have h : ∀ l : List Atom, a ∈ l.foldr insert t ↔ a ∈ l ∨ a ∈ t := by
    intro l
    induction l with
    | nil => simp
    | cons b rest ih => simp [ih, or_assoc]
  exact h s.toList

theorem eq_of_mem_iff {l m : List Atom} (hl : l.Pairwise (· < ·)) (hm : m.Pairwise (· < ·))
    (h : ∀ a, a ∈ l ↔ a ∈ m) : l = m := by
  induction l generalizing m with
  | nil =>
    cases m with
    | nil => rfl
    | cons b rest => exact absurd ((h b).2 (by simp)) (by simp)
  | cons a rest ih =>
    cases m with
    | nil => exact absurd ((h a).1 (by simp)) (by simp)
    | cons b more =>
      have hl' := List.pairwise_cons.1 hl
      have hm' := List.pairwise_cons.1 hm
      have hab : a = b := by
        rcases List.mem_cons.1 ((h a).1 (by simp)) with hab | ha
        · exact hab
        · rcases List.mem_cons.1 ((h b).2 (by simp)) with hba | hb
          · exact hba.symm
          · exact absurd (hm'.1 a ha) (Int.not_lt.2 (Int.le_of_lt (hl'.1 b hb)))
      subst hab
      congr 1
      refine ih hl'.2 hm'.2 fun x => ⟨fun hx => ?_, fun hx => ?_⟩
      · rcases List.mem_cons.1 ((h x).1 (List.mem_cons_of_mem _ hx)) with rfl | hx'
        · exact absurd (hl'.1 x hx) (Int.lt_irrefl x)
        · exact hx'
      · rcases List.mem_cons.1 ((h x).2 (List.mem_cons_of_mem _ hx)) with rfl | hx'
        · exact absurd (hm'.1 x hx) (Int.lt_irrefl x)
        · exact hx'

theorem isEmpty_iff {s : AtomSet} : s.isEmpty = true ↔ ∀ a, a ∉ s := by
  rw [isEmpty, List.isEmpty_iff]
  exact List.eq_nil_iff_forall_not_mem

theorem nodup (s : AtomSet) : s.toList.Nodup := s.ascending.imp Int.ne_of_lt

/-- Sets with the same members are equal. -/
theorem ext_mem {s t : AtomSet} (h : ∀ a, a ∈ s ↔ a ∈ t) : s = t :=
  AtomSet.ext (eq_of_mem_iff s.ascending t.ascending h)

theorem insert_of_mem {a : Atom} {s : AtomSet} (h : a ∈ s) : s.insert a = s :=
  ext_mem fun x => by
    rw [mem_insert]
    exact ⟨fun hx => hx.elim (fun e => e ▸ h) id, Or.inr⟩

end AtomSet

end Blame
