import Blame.Diagnostic
import Blame.Pointer
import Blame.RunStats
import Blame.Tables.Voids

/-!
# Snapshot documents

A solver snapshot as a list of records for each section. Sections are read independently of one another
and up to their first fault, so that a loader can apply what stands before it.
-/

namespace Blame.Snapshot

/-- What is wrong with a value of a document. -/
inductive Malformed where
  | missingKey
  | notAList (found : Json)
  | notAnAtom (found : Json)
  | notALocation (found : Json)
  | badLocation (cause : CoordinateError)
  | notARecord (found : Json)
  | notAPair
  | noReason
  | noPointerId
  | objectAsPointerId
  | unknownKind (found : Json)
  | notAnObject

def Malformed.message : Malformed → Text
  | missingKey => "missing required key"
  | notAList v => ("expected a list, got " ++ v.typeName)
  | notAnAtom v => ("expected an integer atom id, got " ++ v.shown)
  | notALocation v => ("expected a location object, got " ++ v.shown)
  | badLocation e => ("bad location: " ++ e.message)
  | notARecord v => ("expected an object, got " ++ v.shown)
  | notAPair => "expected a [root, affected] pair"
  | noReason => "root needs a non-empty reason"
  | noPointerId => "pointer variable needs an id"
  | objectAsPointerId => "pointer variable id must be a scalar or list"
  | unknownKind v => ("unknown void kind " ++ v.shown)
  | notAnObject => "expected an object"

/-- Why a section cannot be read any further: a value at some place is wrong, or the id of a pointer
variable has parts that cannot be compared. -/
inductive Fault where
  | malformed (place : Text) (what : Malformed)
  | unhashable (what : Unhashable)

/-- The records of a section up to its first fault. -/
structure Section (α : Type) where
  records : List α := []
  fault : Option Fault := none

/-- What was read of one record. -/
structure Reading (α : Type) where
  record : Option α := none
  fault : Option Fault := none

/-- A record of the section `atoms`. -/
structure AtomRecord where
  atom : Atom
  name : Option Text
  location : Option Location
  deriving DecidableEq

/-- A record of the section `roots`. -/
structure RootRecord where
  atom : Atom
  diagnostic : Diagnostic
  name : Option Text
  deriving DecidableEq

/-- A pair of the section `propagation`. -/
structure EdgeRecord where
  root : Atom
  affected : Atom
  deriving DecidableEq

/-- A record of the section `pointers`: a pointer variable and its levels. -/
structure PointerRecord where
  pointer : PointerId
  atoms : List Atom
  deriving DecidableEq

/-- A record of the section `casts`. -/
structure CastRecord where
  dst : Text
  src : Text
  location : Location
  deriving DecidableEq

/-- A record of the section `voids`. -/
structure VoidRecord where
  location : Location
  name : Text
  kind : Option VoidKind
  generic : Option Bool
  deriving DecidableEq

/-- A member of the section `rewrite_stats`. -/
inductive CountRecord where
  | known (counter : Counter) (amount : Int)
  | unknown (key : Text)
  deriving DecidableEq

/-- A snapshot, section by section. -/
structure Document where
  atoms : Section AtomRecord := {}
  roots : Section RootRecord := {}
  edges : Section EdgeRecord := {}
  indirect : Section Atom := {}
  pointers : Section PointerRecord := {}
  /-- Whether there is any record of a pointer variable, be it one without levels. -/
  listsPointers : Bool := false
  casts : Section CastRecord := {}
  voids : Section VoidRecord := {}
  counts : Section CountRecord := {}

abbrev Members := List (Text × Json)

def malformed {α : Type} (place : Text) (what : Malformed) : Except Fault α :=
  .error (.malformed place what)

/-- The list under a key; a missing one is empty unless it is required. -/
def listAt (members : Members) (key : Text) (required : Bool) : Except Fault (List Json) :=
  match Json.member? key members with
  | none => if required then malformed key .missingKey else .ok []
  | some (.list items) => .ok items
  | some v => malformed key (.notAList v)

/-- The value under a key, null if there is none. -/
def valueAt (members : Members) (key : Text) : Json := (Json.member? key members).getD .null

/-- The text under a key, empty if there is none. -/
def textAt (members : Members) (key : Text) : Text :=
  ((Json.member? key members).map Json.asText).getD ""

def readAtom (place : Text) : Json → Except Fault Atom
  | .int n => .ok n
  | v => malformed place (.notAnAtom v)

def readRecord (place : Text) : Json → Except Fault Members
  | .obj members => .ok members
  | v => malformed place (.notARecord v)

def readLocation (place : Text) : Json → Except Fault (Option Location)
  | .null => .ok none
  | .obj members =>
    match Location.ofMembers members with
    | .ok l => .ok (some l)
    | .error e => malformed place (.badLocation e)
  | v => malformed place (.notALocation v)

/-- The location of a record, which stands under the key `location`. -/
def locationAt (place : Text) (members : Members) : Except Fault (Option Location) :=
  readLocation (place ++ ".location") (valueAt members "location")

/-- The name of a record, if it has one. -/
def nameAt (members : Members) : Option Text := (Json.member? "name" members).map Json.asText

/-- The place of an item in a list. -/
def itemPlace (list : Text) (i : Nat) : Text := (list ++ "[" ++ Number.natText i ++ "]")

/-- A record that is there as a whole or not at all. -/
def Reading.ofExcept {α : Type} : Except Fault α → Reading α
  | .ok a => { record := some a }
  | .error f => { fault := some f }

/-- Reads the items of a list, the first of which has number `i`, up to the first fault. -/
def readItems {α : Type} (read : Nat → Json → Reading α) (i : Nat) : List Json → Section α
  | [] => {}
  | v :: rest =>
    let r := read i v
    match r.fault with
    | some f => { records := r.record.toList, fault := some f }
    | none =>
      let more := readItems read (i + 1) rest
      { more with records := r.record.toList ++ more.records }

/-- Reads the section under a key. -/
def readSection {α : Type} (members : Members) (key : Text) (required : Bool)
    (read : Text → Json → Reading α) : Section α :=
  match listAt members key required with
  | .error f => { fault := some f }
  | .ok items => readItems (fun i v => read (itemPlace key i) v) 0 items

/-- Reads an atom with its name; a fault in the location leaves the name. -/
def readAtomRecord (place : Text) (v : Json) : Reading AtomRecord :=
  let head : Except Fault (Members × Atom) := do
    let members ← readRecord place v
    let atom ← readAtom (place ++ ".id") (valueAt members "id")
    return (members, atom)
  match head with
  | .error f => { fault := some f }
  | .ok (members, atom) =>
    match locationAt place members with
    | .ok l => { record := some ⟨atom, nameAt members, l⟩ }
    | .error f => { record := some ⟨atom, nameAt members, none⟩, fault := some f }

/-- The reason of a root, which must not be empty. -/
def readReason (place : Text) : Json → Except Fault Text
  | .str s => if s.isEmpty then malformed place .noReason else .ok s
  | _ => malformed place .noReason

/-- Reads the notes of a root, the first of which has number `i`. -/
def readNotes (place : Text) (i : Nat) : List Json → Except Fault (List Note)
  | [] => .ok []
  | v :: rest => do
    let here := itemPlace (place ++ ".notes") i
    let members ← readRecord here v
    let l ← locationAt here members
    let notes ← readNotes place (i + 1) rest
    return ⟨textAt members "reason", l⟩ :: notes

def readRootRecord (place : Text) (v : Json) : Except Fault RootRecord := do
  let members ← readRecord place v
  let atom ← readAtom (place ++ ".atom") (valueAt members "atom")
  let reason ← readReason (place ++ ".reason") (valueAt members "reason")
  let location ← locationAt place members
  let notes ← readNotes place 0 (← listAt members "notes" false)
  return ⟨atom, ⟨reason, location, notes⟩, nameAt members⟩

def readEdge (place : Text) : Json → Except Fault EdgeRecord
  | .list [r, a] => do
    let root ← readAtom (place ++ "[0]") r
    let affected ← readAtom (place ++ "[1]") a
    return ⟨root, affected⟩
  | _ => malformed place .notAPair

/-- Reads a pointer variable with its levels up to the first fault. Parts of the id are looked at only
when there is a level to record. -/
def readPointerRecord (place : Text) (v : Json) : Reading PointerRecord :=
  let head : Except Fault (Json × List Json) := do
    let members ← readRecord place v
    let some id := Json.member? "id" members | malformed place .noPointerId
    if let .obj _ := id then malformed (place ++ ".id") .objectAsPointerId
    return (id, ← listAt members "atoms" false)
  match head with
  | .error f => { fault := some f }
  | .ok (id, items) =>
    let levels := readItems (fun i w => .ofExcept (readAtom (itemPlace (place ++ ".atoms") i) w)) 0 items
    match PointerId.ofJson? id with
    | .ok p => { record := some ⟨p, levels.records⟩, fault := levels.fault }
    | .error u => if levels.records.isEmpty then { fault := levels.fault } else { fault := some (.unhashable u) }

def readCastRecord (place : Text) (v : Json) : Except Fault CastRecord := do
  let members ← readRecord place v
  let l ← locationAt place members
  return ⟨textAt members "dst", textAt members "src", l.getD {}⟩

/-- The kind of a void declaration, if the record gives one. -/
def kindAt (place : Text) (members : Members) : Except Fault (Option VoidKind) :=
  match Json.member? "kind" members with
  | none => .ok none
  | some v =>
    let kind := match v with
      | .str s => VoidKind.ofName? s
      | _ => none
    match kind with
    | some k => .ok (some k)
    | none => malformed (place ++ ".kind") (.unknownKind v)

def readVoidRecord (place : Text) (v : Json) : Except Fault VoidRecord := do
  let members ← readRecord place v
  let l ← locationAt place members
  let kind ← kindAt place members
  return ⟨l.getD {}, textAt members "name", kind, (Json.member? "generic" members).map Json.isTruthy⟩

/-- Reads the counts up to the first that is no integer. -/
def readCounts : Members → Section CountRecord
  | [] => {}
  | (key, v) :: rest =>
    let more := readCounts rest
    match Counter.ofKey? key with
    | none => { more with records := .unknown key :: more.records }
    | some c =>
      match readAtom ("rewrite_stats." ++ key) v with
      | .ok n => { more with records := .known c n :: more.records }
      | .error f => { fault := some f }

/-- Reads the section of counts, which is an object. -/
def readCountSection (members : Members) : Section CountRecord :=
  match Json.member? "rewrite_stats" members with
  | none => {}
  | some (.obj counts) => readCounts counts
  | some _ => { fault := some (.malformed "rewrite_stats" .notAnObject) }

/-- Reads a snapshot off the members of a decoded document. -/
def Document.ofMembers (members : Members) : Document where
  atoms := readSection members "atoms" false readAtomRecord
  roots := readSection members "roots" true fun p v => .ofExcept (readRootRecord p v)
  edges := readSection members "propagation" false fun p v => .ofExcept (readEdge p v)
  indirect := readSection members "indirect" false fun p v => .ofExcept (readAtom p v)
  pointers := readSection members "pointers" false readPointerRecord
  listsPointers := match listAt members "pointers" false with
    | .ok items => !items.isEmpty
    | .error _ => false
  casts := readSection members "casts" false fun p v => .ofExcept (readCastRecord p v)
  voids := readSection members "voids" false fun p v => .ofExcept (readVoidRecord p v)
  counts := readCountSection members

end Blame.Snapshot
