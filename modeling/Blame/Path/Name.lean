import Blame.Text.Utf8

/-!
# Names for the system

The system takes the names of files and of users as bytes. A name with a half of a surrogate pair may have none, and
none holds a zero character, at which its bytes would end.
-/

namespace Blame.Path

open Text

/-- Why the system cannot be given a name. -/
inductive NameFault where
  | unencodable (e : Utf8.Unencodable)
  | zeroCharacter
  deriving DecidableEq, Repr

namespace NameFault

def message : NameFault → Text
  | unencodable e => e.message
  | zeroCharacter => "embedded null byte"

/-- Whether a code point can be what is wrong with a name. -/
def DueTo (f : NameFault) (c : CodePoint) : Prop :=
  match f with
  | unencodable _ => Utf8.nameBytes? c = none
  | zeroCharacter => c = .char '\x00'

end NameFault

/-- The bytes by which the system knows a name. -/
def nameBytes (cs : List CodePoint) : Except NameFault (List UInt8) :=
  match Utf8.encodeName cs with
  | .error e => .error (.unencodable e)
  | .ok bytes => if cs.contains (.char '\x00') then .error .zeroCharacter else .ok bytes

/-- Why the system cannot be given a name, if it cannot. -/
def nameFault? (cs : List CodePoint) : Option NameFault :=
  match nameBytes cs with
  | .error f => some f
  | .ok _ => none

/-- The number of bytes that characters take up in a name. -/
def byteLength (cs : List CodePoint) : Nat := cs.foldl (fun n c => n + ((Utf8.nameBytes? c).getD []).length) 0

variable {cs : List CodePoint} {f : NameFault}

theorem nameFault?_eq_some : nameFault? cs = some f ↔ nameBytes cs = .error f := by
  unfold nameFault?
  cases nameBytes cs <;> simp

theorem nameFault?_unencodable_iff :
    (∃ e, nameFault? cs = some (.unencodable e)) ↔ ∃ c ∈ cs, Utf8.nameBytes? c = none := by
  rw [← Utf8.encodeFrom_error_iff Utf8.nameBytes? 0]
  simp only [nameFault?_eq_some, nameBytes, Utf8.encodeName]
  cases Utf8.encodeFrom Utf8.nameBytes? 0 cs with
  | error e => exact iff_of_true ⟨e, rfl⟩ ⟨e, rfl⟩
  | ok bytes =>
    dsimp only
    split
    · exact iff_of_false nofun nofun
    · exact iff_of_false nofun nofun

theorem nameFault?_zeroCharacter_iff :
    nameFault? cs = some .zeroCharacter ↔ .char '\x00' ∈ cs ∧ ∀ c ∈ cs, Utf8.nameBytes? c ≠ none := by
  have hall : (∀ c ∈ cs, Utf8.nameBytes? c ≠ none) ↔ ¬ ∃ e, Utf8.encodeName cs = .error e := by
    rw [Utf8.encodeName, Utf8.encodeFrom_error_iff]
    simp
  rw [nameFault?_eq_some, nameBytes, hall]
  cases Utf8.encodeName cs with
  | error e => exact iff_of_false nofun fun h => h.2 ⟨e, rfl⟩
  | ok bytes =>
    dsimp only
    split
    · rename_i hzero
      exact iff_of_true rfl ⟨List.contains_iff_mem.1 hzero, nofun⟩
    · rename_i hzero
      exact iff_of_false nofun fun h => hzero (List.contains_iff_mem.2 h.1)

theorem exists_of_nameFault? (h : nameFault? cs = some f) : ∃ c ∈ cs, f.DueTo c := by
  cases f with
  | unencodable e => exact nameFault?_unencodable_iff.1 ⟨e, h⟩
  | zeroCharacter => exact ⟨_, (nameFault?_zeroCharacter_iff.1 h).1, rfl⟩

end Blame.Path
