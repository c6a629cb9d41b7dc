import Blame.Snapshot.Load
import Mathlib.Data.List.Basic
import Mathlib.Data.List.Induction

/-!
# What the records of a snapshot say

The records that a load writes into the index, read as a description: which of several records about an
atom counts, and which atoms and pointer variables belong together. Nothing here speaks of the order in
which a load goes through the sections.
-/

namespace Blame.Snapshot

/-- The last value that a function gives on the entries of a list. -/
def lastSome {α β : Type} (f : α → Option β) (l : List α) : Option β := l.reverse.findSome? f

section
variable {α β : Type} {f : α → Option β} {l : List α}

@[simp] theorem lastSome_nil : lastSome f [] = none := rfl

@[simp] theorem lastSome_concat (x : α) : lastSome f (l ++ [x]) = (f x).or (lastSome f l) := by
  rw [lastSome, List.reverse_concat, List.findSome?_cons]
  cases f x <;> rfl

theorem lastSome_map {γ : Type} (g : β → γ) : lastSome (fun x => (f x).map g) l = (lastSome f l).map g :=
  List.map_findSome?.symm

theorem lastSome_eq_none_iff : lastSome f l = none ↔ ∀ x ∈ l, f x = none := by
  rw [lastSome, List.findSome?_eq_none_iff]
  exact forall_congr' fun x => by rw [List.mem_reverse]

theorem exists_of_lastSome {b : β} (h : lastSome f l = some b) : ∃ x ∈ l, f x = some b := by
  obtain ⟨x, hx, hb⟩ := List.exists_of_findSome?_eq_some h
  exact ⟨x, List.mem_reverse.1 hx, hb⟩

end

/-- The records of a snapshot that are about the index. -/
structure Records where
  atoms : List AtomRecord := []
  roots : List RootRecord := []
  edges : List EdgeRecord := []
  indirect : List Atom := []
  pointers : List PointerRecord := []

/-- The records of a document, without the side tables. -/
def Document.records (d : Document) : Records where
  atoms := d.atoms.records
  roots := d.roots.records
  edges := d.edges.records
  indirect := d.indirect.records
  pointers := d.pointers.records

/-- No section of the document has a fault. -/
structure Document.WellFormed (d : Document) : Prop where
  atoms : d.atoms.fault = none
  roots : d.roots.fault = none
  edges : d.edges.fault = none
  indirect : d.indirect.fault = none
  pointers : d.pointers.fault = none
  casts : d.casts.fault = none
  voids : d.voids.fault = none
  counts : d.counts.fault = none

namespace Records
variable (s : Records)

/-- The atom is declared a root. -/
def Declares (a : Atom) : Prop := ∃ x ∈ s.roots, x.atom = a

instance (a : Atom) : Decidable (s.Declares a) := inferInstanceAs (Decidable (∃ x ∈ s.roots, x.atom = a))

/-- The diagnostic of a root is that of its last record. -/
def diagnostic? (a : Atom) : Option Diagnostic :=
  lastSome (fun x => if x.atom = a then some x.diagnostic else none) s.roots

/-- The name of an atom is the last that the roots give it, or else the last that the atoms do. -/
def name? (a : Atom) : Option Text :=
  (lastSome (fun x => if x.atom = a then x.name else none) s.roots).or
    (lastSome (fun x => if x.atom = a then x.name else none) s.atoms)

/-- The location of an atom is the last among the atoms, or else that of its first record among the
roots, which may have none. -/
def place? (a : Atom) : Option Location :=
  (lastSome (fun x => if x.atom = a then x.location else none) s.atoms).or
    ((s.roots.find? (·.atom = a)).bind (·.diagnostic.location))

/-- The atom is listed as a level of the pointer variable. -/
def Joins (a : Atom) (p : PointerId) : Prop := ∃ x ∈ s.pointers, x.pointer.key = p.key ∧ a ∈ x.atoms

/-- The edge is listed and does not lead into a root. -/
def Edge (r a : Atom) : Prop := ⟨r, a⟩ ∈ s.edges ∧ ¬ s.Declares a

/-- An edge leads from the root to a level of the pointer variable. -/
def Explains (r : Atom) (p : PointerId) : Prop := ∃ a, s.Edge r a ∧ s.Joins a p

/-- The records contradict each other or what an index holds of the same atoms. -/
def Contradict (ix : Index) : Prop :=
  (∃ x ∈ s.roots, x.atom ∈ ix.indirect) ∨
  (∃ e ∈ s.edges, ¬ (s.Declares e.root ∨ e.root ∈ ix.roots)) ∨
  ∃ a ∈ s.indirect, s.Declares a ∨ a ∈ ix.roots

variable {s}

theorem declares_iff {a : Atom} : s.Declares a ↔ ∃ d, s.diagnostic? a = some d := by
  rw [← Option.isSome_iff_exists, ← Option.ne_none_iff_isSome, diagnostic?, Ne, lastSome_eq_none_iff]
  simp [Declares]

end Records

/-! ### Locations -/

/-- Each entry of the list may set the value of the atom. -/
theorem find?_foldl {α β : Type} {step : AtomTable β → α → AtomTable β} {f : α → Option β} {a : Atom}
    (h : ∀ t x, (step t x).find? a = (f x).or (t.find? a)) (t : AtomTable β) (l : List α) :
    (l.foldl step t).find? a = (lastSome f l).or (t.find? a) := by
  induction l using List.reverseRecOn with
  | nil => rfl
  | append_singleton done x ih => rw [List.foldl_concat, h, ih, lastSome_concat, Option.or_assoc]

theorem find?_placesOfRoots (t : AtomTable (Option Location)) (a : Atom) (l : List RootRecord) :
    (l.foldl (fun t r =>
        if t.contains r.atom then t else t.insert r.atom r.diagnostic.location) t).find? a =
      (t.find? a).or ((l.find? (·.atom = a)).map (·.diagnostic.location)) := by
  induction l generalizing t with
  | nil => simp
  | cons x rest ih =>
    rw [List.foldl_cons, ih, List.find?_cons]
    by_cases ha : x.atom = a
    · subst ha
      cases ht : t.find? x.atom <;> simp [AtomTable.contains, AtomTable.find?_insert, ht]
    · by_cases hc : t.contains x.atom = true <;> simp [hc, ha, AtomTable.find?_insert]

theorem Document.find?_places (d : Document) (a : Atom) :
    (d.places.find? a).join = d.records.place? a := by
  rw [places, find?_placesOfRoots, Records.place?,
    find?_foldl (f := fun x : AtomRecord => (if x.atom = a then x.location else none).map some)]
  · rw [AtomTable.find?_empty, Option.or_none, lastSome_map]
    show (Option.or _ ((d.roots.records.find? _).map _)).join = Option.or _ _
    rw [Document.records]
    cases lastSome (fun x : AtomRecord => if x.atom = a then x.location else none) d.atoms.records with
    | some l => rfl
    | none => cases d.roots.records.find? (·.atom = a) <;> rfl
  · intro t x
    by_cases ha : x.atom = a <;> cases x.location <;> simp [ha, AtomTable.find?_insert]

end Blame.Snapshot
