import Blame.Proofs.Faults
import Mathlib.Data.List.Basic

/-!
# Records wherever they stand

A reader is told the place of a value for the sake of its faults alone. A value that is read without a
fault at one place is therefore read in the same way at every other (`Placeless`), and a section without
faults holds what its items are by themselves.
-/

namespace Blame.Snapshot

section
variable {α β : Type}

/-- The same value, or no value in both cases. -/
def SameValue (x y : Except Fault α) : Prop := x.toOption = y.toOption

theorem SameValue.rfl {x : Except Fault α} : SameValue x x := Eq.refl _

theorem SameValue.bind {x y : Except Fault α} {k m : α → Except Fault β} (h : SameValue x y)
    (hk : ∀ a, SameValue (k a) (m a)) : SameValue (x >>= k) (y >>= m) := by
  cases x with
  | error f =>
    cases y with
    | error g => exact .rfl
    | ok b => cases h
  | ok a =>
    cases y with
    | error g => cases h
    | ok b =>
      cases h
      exact hk a

theorem SameValue.eq_ok {x y : Except Fault α} {a : α} (h : SameValue x y) (hx : x = .ok a) : y = .ok a := by
  subst hx
  cases y with
  | error g => cases h
  | ok b =>
    cases h
    rfl

end

/-! ### Values -/

section
variable (p q : Text)

theorem sameValue_readAtom (v : Json) : SameValue (readAtom p v) (readAtom q v) := by
  cases v <;> exact .rfl

theorem sameValue_readRecord (v : Json) : SameValue (readRecord p v) (readRecord q v) := by
  cases v <;> exact .rfl

theorem sameValue_readReason (v : Json) : SameValue (readReason p v) (readReason q v) := by
  cases v with
  | str s =>
    rw [readReason, readReason]
    split <;> exact .rfl
  | _ => exact .rfl

theorem sameValue_readLocation (v : Json) : SameValue (readLocation p v) (readLocation q v) := by
  cases v with
  | obj members =>
    rw [readLocation, readLocation]
    cases Location.ofMembers members <;> exact .rfl
  | _ => exact .rfl

theorem sameValue_locationAt (members : Members) : SameValue (locationAt p members) (locationAt q members) :=
  sameValue_readLocation _ _ _

theorem sameValue_readNotes (i j : Nat) (l : List Json) : SameValue (readNotes p i l) (readNotes q j l) := by
  induction l generalizing i j with
  | nil => exact .rfl
  | cons v rest ih =>
    exact (sameValue_readRecord _ _ v).bind fun members => (sameValue_locationAt _ _ members).bind fun _ =>
      (ih (i + 1) (j + 1)).bind fun _ => .rfl

theorem sameValue_readRootRecord (v : Json) : SameValue (readRootRecord p v) (readRootRecord q v) :=
  (sameValue_readRecord p q v).bind fun members => (sameValue_readAtom _ _ _).bind fun _ =>
    (sameValue_readReason _ _ _).bind fun _ => (sameValue_locationAt p q members).bind fun _ =>
    SameValue.rfl.bind fun items => (sameValue_readNotes p q 0 0 items).bind fun _ => .rfl

theorem sameValue_readEdge (v : Json) : SameValue (readEdge p v) (readEdge q v) := by
  unfold readEdge
  split
  · exact (sameValue_readAtom _ _ _).bind fun _ => (sameValue_readAtom _ _ _).bind fun _ => .rfl
  · exact .rfl

end

/-! ### Items -/

/-- What is read without a fault is read in the same way at every place. -/
def Placeless {α : Type} (read : Text → Json → Reading α) : Prop :=
  ∀ p q v, (read p v).fault = none → read q v = read p v

theorem Placeless.ofExcept {α : Type} {read : Text → Json → Except Fault α}
    (h : ∀ p q v, SameValue (read p v) (read q v)) : Placeless fun p v => .ofExcept (read p v) := by
  intro p q v hf
  dsimp only at hf ⊢
  cases hp : read p v with
  | error f =>
    rw [hp] at hf
    cases hf
  | ok a => rw [(h p q v).eq_ok hp]

theorem placeless_readAtomRecord : Placeless readAtomRecord := by
  intro p q v hf
  have hhead := (sameValue_readRecord p q v).bind fun members =>
    (sameValue_readAtom (p ++ ".id") (q ++ ".id") (valueAt members "id")).bind fun atom =>
      show SameValue (pure (members, atom)) (pure (members, atom)) from .rfl
  unfold readAtomRecord at hf ⊢
  dsimp only at hf ⊢
  split at hf
  · cases hf
  · rename_i members atom ho
    split at hf
    · rename_i l hl
      have ho' := hhead.eq_ok ho
      have hl' := (sameValue_locationAt p q members).eq_ok hl
      rw [ho']
      simp only [hl']
    · cases hf

section
variable {α : Type} {read : Text → Json → Reading α} {key : Text} {items : List Json}

/-- What a reader makes of the items of a list, each by itself. -/
def recordsIn (read : Text → Json → Reading α) (items : List Json) : List α :=
  items.filterMap fun v => (read "" v).record

/-- No item of the list has a fault. -/
def Faultless (read : Text → Json → Reading α) (items : List Json) : Prop :=
  ∀ v ∈ items, (read "" v).fault = none

theorem mem_recordsIn {x : α} : x ∈ recordsIn read items ↔ ∃ v ∈ items, (read "" v).record = some x :=
  List.mem_filterMap

theorem readItems_of_faultless (h : Placeless read) (hf : Faultless read items) (i : Nat) :
    readItems (fun i v => read (itemPlace key i) v) i items = { records := recordsIn read items } := by
  induction items generalizing i with
  | nil => rfl
  | cons v rest ih =>
    have hv := hf v List.mem_cons_self
    have hrest : Faultless read rest := fun w hw => hf w (List.mem_cons_of_mem v hw)
    rw [readItems]
    dsimp only
    rw [h "" (itemPlace key i) v hv, hv, ih hrest]
    show ({ records := _ } : Section α) = { records := _ }
    cases hr : (read "" v).record <;> simp [recordsIn, hr]

theorem faultless_of_readItems (h : Placeless read) {i : Nat}
    (hf : (readItems (fun i v => read (itemPlace key i) v) i items).fault = none) : Faultless read items := by
  induction items generalizing i with
  | nil => exact fun _ hv => absurd hv List.not_mem_nil
  | cons v rest ih =>
    rw [readItems] at hf
    dsimp only at hf
    cases hv : (read (itemPlace key i) v).fault with
    | some f =>
      rw [hv] at hf
      cases hf
    | none =>
      rw [hv] at hf
      intro w hw
      rcases List.mem_cons.1 hw with rfl | hw
      · rwa [h (itemPlace key i) "" w hv]
      · exact ih hf w hw

variable {members : Members} {required : Bool}

theorem readSection_of_faultless (h : Placeless read) (hl : listAt members key required = .ok items)
    (hf : Faultless read items) :
    readSection members key required read = { records := recordsIn read items } := by
  rw [readSection, hl]
  exact readItems_of_faultless h hf 0

theorem exists_of_readSection (h : Placeless read) (hf : (readSection members key required read).fault = none) :
    ∃ items, listAt members key required = .ok items ∧ Faultless read items := by
  rw [readSection] at hf
  cases hl : listAt members key required with
  | error f =>
    rw [hl] at hf
    cases hf
  | ok items =>
    rw [hl] at hf
    exact ⟨items, rfl, faultless_of_readItems h hf⟩

end

/-! ### Pointer variables -/

theorem placeless_readLevel : Placeless fun p v => .ofExcept (readAtom p v) :=
  .ofExcept sameValue_readAtom

theorem faultless_levels_iff {items : List Json} :
    Faultless (fun p v => .ofExcept (readAtom p v)) items ↔ ∃ levels : List Atom, items = levels.map .int := by
  constructor
  · intro hf
    induction items with
    | nil => exact ⟨[], rfl⟩
    | cons v rest ih =>
      obtain ⟨levels, rfl⟩ := ih fun w hw => hf w (List.mem_cons_of_mem v hw)
      have hv := hf v List.mem_cons_self
      cases v with
      | int a => exact ⟨a :: levels, rfl⟩
      | _ => cases hv
  · rintro ⟨levels, rfl⟩ v hv
    obtain ⟨a, -, rfl⟩ := List.mem_map.1 hv
    rfl

theorem recordsIn_levels (levels : List Atom) :
    recordsIn (fun p v => .ofExcept (readAtom p v)) (levels.map .int) = levels := by
  induction levels with
  | nil => rfl
  | cons a rest ih => exact congrArg (a :: ·) ih

theorem readLevels_map (place : Text) (levels : List Atom) :
    readLevels place (levels.map .int) = { records := levels } := by
  have hf := faultless_levels_iff.2 ⟨levels, rfl⟩
  rw [readLevels, readItems_of_faultless placeless_readLevel hf, recordsIn_levels]

theorem levels_of_fault_eq_none {place : Text} {items : List Json} (h : (readLevels place items).fault = none) :
    ∃ levels : List Atom, items = levels.map .int :=
  faultless_levels_iff.1 (faultless_of_readItems placeless_readLevel h)

/-- A record of a pointer variable is read without a fault, and this is what is read. An id that cannot be
compared does no harm as long as there are no levels. -/
inductive ReadsPointer : Json → List Atom → Option PointerRecord → Prop
  | record {v id : Json} {levels : List Atom} {p : PointerId} (hparts : PointerParts v id (levels.map .int))
      (hid : PointerId.ofJson? id = .ok p) : ReadsPointer v levels (some ⟨p, levels⟩)
  | bare {v id : Json} {u : Unhashable} (hparts : PointerParts v id []) (hid : PointerId.ofJson? id = .error u) :
      ReadsPointer v [] none

theorem ReadsPointer.read {v : Json} {levels : List Atom} {o : Option PointerRecord}
    (h : ReadsPointer v levels o) (place : Text) : readPointerRecord place v = { record := o } := by
  cases h with
  | record hparts hid => rw [hparts.read_ok hid, readLevels_map]
  | bare hparts hid => exact hparts.read_error hid

theorem readsPointer_of_faultless {place : Text} {v : Json} (h : (readPointerRecord place v).fault = none) :
    ∃ levels o, ReadsPointer v levels o := by
  obtain ⟨g, -, ho⟩ | ⟨id, items, hparts⟩ := malformed_or_parts place v
  · rw [ho] at h
    cases h
  · cases hid : PointerId.ofJson? id with
    | ok p =>
      rw [hparts.read_ok hid] at h
      obtain ⟨levels, rfl⟩ := levels_of_fault_eq_none h
      exact ⟨levels, _, .record hparts hid⟩
    | error u =>
      rw [hparts.read_error hid] at h
      split at h
      · rename_i hempty
        obtain ⟨levels, rfl⟩ := levels_of_fault_eq_none h
        rw [readLevels_map, List.isEmpty_iff] at hempty
        subst hempty
        exact ⟨[], _, .bare hparts hid⟩
      · cases h

theorem placeless_readPointerRecord : Placeless readPointerRecord := by
  intro p q v hf
  obtain ⟨levels, o, h⟩ := readsPointer_of_faultless hf
  rw [h.read q, h.read p]

/-! ### The atom of a record -/

/-- The value under a key of a record, if it is an object with that key. -/
def field? (key : Text) : Json → Option Json
  | .obj members => Json.member? key members
  | _ => none

theorem member?_of_readAtom {place key : Text} {members : Members} {a : Atom}
    (h : readAtom place (valueAt members key) = .ok a) : Json.member? key members = some (.int a) := by
  rw [valueAt] at h
  cases hm : Json.member? key members with
  | none =>
    rw [hm] at h
    cases h
  | some v =>
    rw [hm] at h
    cases v with
    | int n =>
      cases h
      rfl
    | _ => cases h

theorem field?_of_readAtomRecord {place : Text} {v : Json} {r : AtomRecord}
    (h : (readAtomRecord place v).record = some r) : field? "id" v = some (.int r.atom) := by
  unfold readAtomRecord at h
  dsimp only at h
  split at h
  · cases h
  · rename_i members atom ho
    obtain ⟨m, hv, ho⟩ := exists_of_bind_eq_ok ho
    obtain ⟨a, ha, ho⟩ := exists_of_bind_eq_ok ho
    cases ho
    cases readRecord_eq_ok hv
    split at h <;> cases h <;> exact member?_of_readAtom ha

theorem field?_of_readRootRecord {place : Text} {v : Json} {r : RootRecord}
    (h : (Reading.ofExcept (readRootRecord place v)).record = some r) :
    field? "atom" v = some (.int r.atom) := by
  cases ho : readRootRecord place v with
  | error f =>
    rw [ho] at h
    cases h
  | ok r' =>
    rw [ho] at h
    cases h
    obtain ⟨m, hv, ho⟩ := exists_of_bind_eq_ok ho
    obtain ⟨a, ha, ho⟩ := exists_of_bind_eq_ok ho
    obtain ⟨_, -, ho⟩ := exists_of_bind_eq_ok ho
    obtain ⟨_, -, ho⟩ := exists_of_bind_eq_ok ho
    obtain ⟨_, -, ho⟩ := exists_of_bind_eq_ok ho
    obtain ⟨_, -, ho⟩ := exists_of_bind_eq_ok ho
    cases ho
    cases readRecord_eq_ok hv
    exact member?_of_readAtom ha

end Blame.Snapshot
