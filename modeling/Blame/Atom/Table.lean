import Blame.Atom.Set

/-!
# Tables keyed by atoms

A finite table is an ascending list of atoms with a value each; `find?` is its meaning, and tables with
the same meaning are equal. A relation between atoms is a table of sets that reads as the empty set
where nothing was added.
-/

namespace Blame

universe u

/-- Sets the value of an atom in an ascending list of entries. -/
def insertEntry {α : Type u} (a : Atom) (v : α) : List (Atom × α) → List (Atom × α)
  | [] => [(a, v)]
  | e :: rest =>
    if a < e.1 then (a, v) :: e :: rest
    else if a = e.1 then (a, v) :: rest
    else e :: insertEntry a v rest

theorem map_fst_insertEntry {α : Type u} {a : Atom} {v : α} {l : List (Atom × α)} :
    (insertEntry a v l).map Prod.fst = insertAscending a (l.map Prod.fst) := by
  induction l with
  | nil => rfl
  | cons e rest ih => grind [insertEntry, insertAscending]

theorem pairwise_fst_nil {α : Type u} : (([] : List (Atom × α)).map Prod.fst).Pairwise (· < ·) := .nil

/-- A finite table from atoms to values. -/
@[ext]
structure AtomTable (α : Type u) where
  entries : List (Atom × α)
  ascending : (entries.map Prod.fst).Pairwise (· < ·)
  deriving DecidableEq

namespace AtomTable

variable {α : Type u}

def empty : AtomTable α := ⟨[], pairwise_fst_nil⟩

instance : EmptyCollection (AtomTable α) := ⟨empty⟩

instance : Inhabited (AtomTable α) := ⟨empty⟩

def insert (a : Atom) (v : α) (t : AtomTable α) : AtomTable α :=
  ⟨insertEntry a v t.entries, by
    rw [map_fst_insertEntry]; exact pairwise_insertAscending t.ascending⟩

/-- The value of an atom, if it has one. -/
def find? (t : AtomTable α) (a : Atom) : Option α := (t.entries.find? (·.1 == a)).map Prod.snd

def contains (t : AtomTable α) (a : Atom) : Bool := (t.find? a).isSome

/-- The atoms that have a value. -/
def keys (t : AtomTable α) : AtomSet := ⟨t.entries.map Prod.fst, t.ascending⟩

def size (t : AtomTable α) : Nat := t.entries.length

@[simp] theorem find?_empty (a : Atom) : (empty : AtomTable α).find? a = none := rfl

theorem find?_insert (t : AtomTable α) (a b : Atom) (v : α) :
    (t.insert a v).find? b = if a = b then some v else t.find? b := by
  have h : ∀ l : List (Atom × α), ((insertEntry a v l).find? (·.1 == b)).map Prod.snd =
      if a = b then some v else (l.find? (·.1 == b)).map Prod.snd := by
    intro l
    induction l with
    | nil => grind [insertEntry]
    | cons e rest ih => grind [insertEntry]
  exact h t.entries

/-- Each atom has at most one entry, so reading an entry and looking its atom up are the same. -/
theorem find?_eq_some_iff {t : AtomTable α} {a : Atom} {v : α} :
    t.find? a = some v ↔ (a, v) ∈ t.entries := by
  have h : ∀ l : List (Atom × α), (l.map Prod.fst).Pairwise (· < ·) →
      ((l.find? (·.1 == a)).map Prod.snd = some v ↔ (a, v) ∈ l) := by
    intro l hl
    induction l with
    | nil => simp
    | cons e rest ih =>
      have hl' := List.pairwise_cons.1 hl
      by_cases he : e.1 = a
      · have hr : ∀ w, (a, w) ∉ rest := fun w hw =>
          Int.lt_irrefl a (he ▸ hl'.1 a (List.mem_map_of_mem hw))
        simp [← he, Prod.ext_iff, eq_comm, he ▸ hr v]
      · have hne : (a, v) ≠ e := fun hae => he (hae ▸ rfl)
        simp [he, hne, ih hl'.2]
  exact h t.entries t.ascending

theorem mem_keys_iff {t : AtomTable α} {a : Atom} : a ∈ t.keys ↔ ∃ v, t.find? a = some v := by
  simp [keys, AtomSet.mem_iff, find?_eq_some_iff]

/-- Tables with the same values are equal. -/
theorem ext_find? {t u : AtomTable α} (h : ∀ a, t.find? a = u.find? a) : t = u := by
  have hmem : ∀ e, e ∈ t.entries ↔ e ∈ u.entries := fun e => by
    rw [← find?_eq_some_iff, ← find?_eq_some_iff, h]
  have hsorted : ∀ v : AtomTable α, v.entries.Pairwise (·.1 < ·.1) := fun v =>
    List.pairwise_map.1 v.ascending
  have hnodup : ∀ v : AtomTable α, v.entries.Nodup := fun v =>
    (hsorted v).imp fun hlt heq => Int.ne_of_lt hlt (congrArg Prod.fst heq)
  have hperm := (List.perm_ext_iff_of_nodup (hnodup t) (hnodup u)).2 hmem
  refine AtomTable.ext (hperm.eq_of_pairwise (fun a b _ _ hab hba => ?_) (hsorted t) (hsorted u))
  exact absurd (Int.lt_trans hab hba) (Int.lt_irrefl _)

theorem insert_of_find? {t : AtomTable α} {a : Atom} {v : α} (h : t.find? a = some v) :
    t.insert a v = t := by
  refine ext_find? fun b => ?_
  rw [find?_insert]
  split
  · rename_i hab
    rw [← hab, h]
  · rfl

theorem mem_keys_insert {t : AtomTable α} {a b : Atom} {v : α} :
    b ∈ (t.insert a v).keys ↔ b = a ∨ b ∈ t.keys := by
  by_cases h : a = b <;> simp [mem_keys_iff, find?_insert, h, eq_comm]

theorem contains_eq (t : AtomTable α) (a : Atom) : t.contains a = true ↔ a ∈ t.keys := by
  simp [contains, find?, keys, AtomSet.mem_iff, List.find?_isSome]

end AtomTable

/-- A relation between atoms. -/
abbrev Relation := AtomTable AtomSet

namespace Relation

/-- What an atom is related to. -/
def image (r : Relation) (a : Atom) : AtomSet := (r.find? a).getD ∅

/-- Relates one atom to another. -/
def add (a b : Atom) (r : Relation) : Relation := r.insert a ((image r a).insert b)

/-- The number of related pairs. -/
def pairCount (r : Relation) : Nat := r.entries.foldr (fun e n => e.2.size + n) 0

theorem mem_image_add {r : Relation} {a b x y : Atom} :
    y ∈ image (add a b r) x ↔ (x = a ∧ y = b) ∨ y ∈ image r x := by
  by_cases h : a = x <;> simp [image, add, AtomTable.find?_insert, h, eq_comm]

theorem mem_image_iff {r : Relation} {a b : Atom} :
    b ∈ image r a ↔ ∃ s, (a, s) ∈ r.entries ∧ b ∈ s := by
  rw [image]
  cases h : AtomTable.find? r a with
  | none =>
    have hn : ∀ s, (a, s) ∉ r.entries := fun s hs => by
      rw [AtomTable.find?_eq_some_iff.2 hs] at h
      cases h
    exact ⟨fun hb => absurd hb AtomSet.not_mem_empty, fun ⟨s, hs, _⟩ => absurd hs (hn s)⟩
  | some s =>
    refine ⟨fun hb => ⟨s, AtomTable.find?_eq_some_iff.1 h, hb⟩, fun ⟨u, hu, hb⟩ => ?_⟩
    rw [AtomTable.find?_eq_some_iff.2 hu] at h
    exact Option.some.inj h ▸ hb

end Relation

end Blame
