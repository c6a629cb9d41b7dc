import Blame.Index.Write
import Blame.Snapshot.Document
import Blame.Tables.Casts

/-!
# Loading a snapshot

The records of a snapshot are applied section by section: names and locations, roots, edges, indirect
atoms and pointer variables, then every WILD atom of the index is filed as in source or not, and last
come the side tables. The first fault ends the load; what was applied before it stays.
-/

namespace Blame.Snapshot

/-- Why a load failed. -/
inductive LoadError where
  | fault (f : Fault)
  | inconsistent (i : Inconsistency)
  | unclassifiable (u : Unclassifiable)

/-- What a load has done so far. -/
structure Progress (σ : Type) where
  index : Index
  memory : σ
  log : List LogLine := []

/-- A part of a load: it goes on, or ends with an error, from where things stand. -/
def Stage (σ : Type) := Progress σ → Progress σ × Option LoadError

namespace Stage

variable {σ : Type}

/-- Does one part after another, unless the first ends the load. -/
def andThen (f g : Stage σ) : Stage σ := fun p =>
  match f p with
  | (p, none) => g p
  | (p, some e) => (p, some e)

/-- Applies records in turn, up to the first that contradicts the index. -/
def each {α : Type} (step : Index → α → Except Inconsistency (Index × List LogLine)) :
    List α → Stage σ
  | [], p => (p, none)
  | r :: rest, p =>
    match step p.index r with
    | .ok (ix, log) => each step rest { p with index := ix, log := p.log ++ log }
    | .error e => (p, some (.inconsistent e))

/-- Ends the load if there is a fault. -/
def stopAt (fault : Option Fault) : Stage σ := fun p => (p, fault.map .fault)

/-- Applies the records of a section and ends the load at its fault. -/
def ofSection {α : Type} (step : Index → α → Except Inconsistency (Index × List LogLine))
    (s : Section α) : Stage σ :=
  (each step s.records).andThen (stopAt s.fault)

/-- Adds lines to the log. -/
def say (lines : Progress σ → List LogLine) : Stage σ := fun p =>
  ({ p with log := p.log ++ lines p }, none)

end Stage

/-- Names an atom if a record does so. -/
def applyName (a : Atom) (name : Option Text) (ix : Index) : Index :=
  match name with
  | some s => ix.rename a s
  | none => ix

def applyAtom (ix : Index) (r : AtomRecord) : Except Inconsistency (Index × List LogLine) :=
  .ok (applyName r.atom r.name ix, [])

def applyRoot (ix : Index) (r : RootRecord) : Except Inconsistency (Index × List LogLine) :=
  (ix.declareRoot r.atom r.diagnostic).map fun ix => (applyName r.atom r.name ix, [])

def applyEdge (ix : Index) (r : EdgeRecord) : Except Inconsistency (Index × List LogLine) :=
  (ix.blame r.root r.affected).map fun (ix, fate) => (ix, Index.edgeLog r.root r.affected fate)

def applyIndirect (ix : Index) (a : Atom) : Except Inconsistency (Index × List LogLine) :=
  (ix.declareIndirect a).map fun (ix, _) => (ix, [])

def applyPointer (ix : Index) (r : PointerRecord) : Except Inconsistency (Index × List LogLine) :=
  .ok (r.atoms.foldl (fun ix a => ix.join a r.pointer) ix, [])

/-- Whether an edge leads from a root to itself or into another root of the index. -/
def isIgnored (ix : Index) (r : EdgeRecord) : Bool := r.affected == r.root || ix.isRoot r.affected

/-- Says how many edges were left out, if any were. The roots are those declared before. -/
def ignoredLog (edges : List EdgeRecord) (ix : Index) : List LogLine :=
  let n := (edges.filter (isIgnored ix)).length
  if n = 0 then []
  else [⟨.debug, .snapshot, ("Ignored " ++ Number.natText n ++ " self or root-to-root propagation edges")⟩]

/-- The location that a snapshot gives an atom: that of its last record with one among the atoms, or else
that of its first record among the roots, which may be absent. -/
def Document.places (d : Document) : AtomTable (Option Location) :=
  let fromAtoms := d.atoms.records.foldl (fun t r =>
    match r.location with
    | some l => t.insert r.atom (some l)
    | none => t) AtomTable.empty
  d.roots.records.foldl (fun t r =>
    if t.contains r.atom then t else t.insert r.atom r.diagnostic.location) fromAtoms

/-- Files atoms in turn as in source or not, up to the first without an answer. -/
def settleAtoms {σ : Type} (c : Classifier σ) (places : AtomTable (Option Location)) :
    List Atom → Stage σ
  | [], p => (p, none)
  | a :: rest, p =>
    let r := p.index.classify c p.memory a (places.find? a).join
    let p : Progress σ := { index := r.index, memory := r.memory, log := p.log ++ r.log }
    match r.inSource with
    | .ok _ => settleAtoms c places rest p
    | .error e => (p, some (.unclassifiable e))

/-- Gives an atom the location of the snapshot if it has none. -/
def fillPlace (ix : Index) (place : Atom × Option Location) : Index :=
  if (ix.locationOf place.1).isNone then ix.locate place.1 place.2 else ix

/-- Derives the relations of pointer variables if the snapshot lists any. -/
def liftStage {σ : Type} (listsPointers : Bool) : Stage σ := fun p =>
  if !listsPointers then (p, none)
  else
    match p.index.lift with
    | (ix, .ok n) => ({ p with index := ix, log := p.log ++ Index.liftLog n }, none)
    | (ix, .error e) => ({ p with index := ix }, some (.inconsistent e))

/-- Files every WILD atom of the index as in source or not. -/
def settleStage {σ : Type} (c : Classifier σ) (places : AtomTable (Option Location)) : Stage σ := fun p =>
  settleAtoms c places (p.index.roots.union p.index.indirect).toList p

/-- Gives the atoms of the snapshot that have no location theirs. -/
def fillStage {σ : Type} (places : AtomTable (Option Location)) : Stage σ := fun p =>
  ({ p with index := places.entries.foldl fillPlace p.index }, none)

/-- The warnings about counters that nobody knows. -/
def unknownCounters (records : List CountRecord) : List LogLine :=
  records.filterMap fun
    | .unknown key => some ⟨.warning, .snapshot, ("Unknown rewrite counter " ++ Text.quoted key ++ " in snapshot")⟩
    | .known _ _ => none

/-- What there is to say about a finished load. -/
def loadedLog (ix : Index) : List LogLine :=
  let s := ix.stats
  [⟨.info, .snapshot,
    ("Loaded snapshot: " ++ Number.natText s.roots ++ " roots (" ++ Number.natText s.rootsInSource ++ " in source), ")
      ++ (Number.natText s.indirect ++ " indirect (" ++ Number.natText s.indirectInSource ++ " in source), " ++ Number.natText s.edges ++ " edges")⟩]

/-- The whole of a load. -/
def stages {σ : Type} (c : Classifier σ) (d : Document) : Stage σ :=
  (Stage.ofSection applyAtom d.atoms).andThen <|
  (Stage.ofSection applyRoot d.roots).andThen <|
  (Stage.ofSection applyEdge d.edges).andThen <|
  (Stage.say fun p => ignoredLog d.edges.records p.index).andThen <|
  (Stage.ofSection applyIndirect d.indirect).andThen <|
  (Stage.ofSection applyPointer d.pointers).andThen <|
  (liftStage d.listsPointers).andThen <|
  (settleStage c d.places).andThen <|
  (fillStage d.places).andThen <|
  (Stage.stopAt d.casts.fault).andThen <|
  (Stage.stopAt d.voids.fault).andThen <|
  (Stage.say fun _ => unknownCounters d.counts.records).andThen <|
  (Stage.stopAt d.counts.fault).andThen <|
  Stage.say fun p => loadedLog p.index

/-- The casts of a snapshot. -/
def Document.castTable (d : Document) : CastTable :=
  d.casts.records.foldl (fun t r => t.add r.dst r.src r.location) []

/-- Applies a record of a void declaration to those before it. -/
def applyVoid (t : VoidTable) (r : VoidRecord) : VoidTable :=
  let t := VoidTable.add r.location r.name t
  let t := match r.kind with
    | some k => VoidTable.setKind r.location k r.name t
    | none => t
  match r.generic with
  | some g => VoidTable.setGeneric r.location g t
  | none => t

/-- The void declarations of a snapshot. -/
def Document.voidTable (d : Document) : VoidTable := d.voids.records.foldl applyVoid []

/-- Adds the counts of a snapshot to the statistics of a run. -/
def Document.count {τ : Type} (d : Document) (s : RunStats τ) : RunStats τ :=
  d.counts.records.foldl (fun s r =>
    match r with
    | .known c n => s.increment c n
    | .unknown _ => s) s

/-- The outcome of a load: how far it came, and why it failed if it did. -/
structure Loaded (σ : Type) where
  progress : Progress σ
  error : Option LoadError

/-- Loads a snapshot into an index. -/
def load {σ : Type} (c : Classifier σ) (memory : σ) (ix : Index) (d : Document) : Loaded σ :=
  let (progress, error) := stages c d { index := ix, memory }
  { progress, error }

end Blame.Snapshot
