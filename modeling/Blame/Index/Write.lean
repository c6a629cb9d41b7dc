import Blame.FileRules
import Blame.Index.Basic

/-!
# Writing the index

The calls by which a solver records what it found. A call that would contradict the index is refused and
changes nothing; edges from a root to itself or into another root are left out, for a root needs no
explanation.
-/

namespace Blame.Index

/-- What became of an edge. -/
inductive EdgeFate where
  | recorded
  | selfLoop
  | intoRoot
  deriving DecidableEq, Repr

/-- What there is to say about an edge that was left out. -/
def edgeLog (root affected : Atom) : EdgeFate → List LogLine
  | .recorded => []
  | .selfLoop => [⟨.debug, .index, ("Ignoring self propagation of root " ++ Number.intText root)⟩]
  | .intoRoot =>
    [⟨.debug, .index,
      ("Ignoring propagation " ++ Number.intText root ++ " -> " ++ Number.intText affected ++ " into a root")⟩]

/-- Makes an atom a root, or gives a root another diagnostic. -/
def declareRoot (ix : Index) (a : Atom) (d : Diagnostic) : Except Inconsistency Index :=
  if a ∈ ix.indirect then .error ⟨a, .indirectAsRoot⟩
  else .ok { ix with diagnostics := ix.diagnostics.insert a d }

/-- Makes an atom indirect; the answer tells whether it was not so before. -/
def declareIndirect (ix : Index) (a : Atom) : Except Inconsistency (Index × Bool) :=
  if ix.isRoot a then .error ⟨a, .rootAsIndirect⟩
  else if a ∈ ix.indirect then .ok (ix, false)
  else .ok ({ ix with indirect := ix.indirect.insert a }, true)

/-- Records that a root forces an atom, which thereby becomes indirect. -/
def blame (ix : Index) (root affected : Atom) : Except Inconsistency (Index × EdgeFate) :=
  if !ix.isRoot root then .error ⟨root, .causeIsNoRoot⟩
  else if affected = root then .ok (ix, .selfLoop)
  else if ix.isRoot affected then .ok (ix, .intoRoot)
  else
    .ok ({ ix with
      indirect := ix.indirect.insert affected
      effects := Relation.add root affected ix.effects
      causes := Relation.add affected root ix.causes }, .recorded)

/-- Sets the location of an atom; an absent one leaves it as it was. -/
def locate (ix : Index) (a : Atom) : Option Location → Index
  | some l => { ix with locations := ix.locations.insert a l }
  | none => ix

/-- Sets the name of an atom. -/
def rename (ix : Index) (a : Atom) (name : Text) : Index :=
  { ix with names := ix.names.insert a name }

/-- Puts an atom into a set or takes it out. -/
def setMembership (member : Bool) (a : Atom) (s : AtomSet) : AtomSet :=
  if member then s.insert a else s.erase a

/-- Files a WILD atom among those in source or takes it from them. -/
def fileInSource (ix : Index) (a : Atom) (inSource : Bool) : Index :=
  if ix.isRoot a then { ix with rootsInSource := setMembership inSource a ix.rootsInSource }
  else if a ∈ ix.indirect then
    { ix with indirectInSource := setMembership inSource a ix.indirectInSource }
  else ix

/-- Asks a classifier about a location: only a valid one can be in source. -/
def askInSource {σ : Type} (c : Classifier σ) (memory : σ) :
    Option Location → Except Unclassifiable (Answer σ)
  | some l => if l.valid then c.ask memory l.file else .ok ⟨false, memory, []⟩
  | none => .ok ⟨false, memory, []⟩

/-- An index, and what a classifier answered and remembers. -/
structure Classified (σ : Type) where
  index : Index
  inSource : Except Unclassifiable Bool
  memory : σ
  log : List LogLine

/-- What there is to say about an atom that was classified. -/
def classifiedLog (ix : Index) (a : Atom) : List LogLine :=
  if ix.isRoot a || decide (a ∈ ix.indirect) then []
  else [⟨.debug, .index, ("Atom " ++ Number.intText a ++ " is not WILD; location recorded only")⟩]

/-- Records the location of an atom and then whether it is in source, if there is an answer to that. -/
def classify {σ : Type} (c : Classifier σ) (memory : σ) (ix : Index) (a : Atom)
    (l : Option Location) : Classified σ :=
  match askInSource c memory l with
  | .error e => { index := ix.locate a l, inSource := .error e, memory, log := [] }
  | .ok answer =>
    { index := (ix.locate a l).fileInSource a answer.accepted
      inSource := .ok answer.accepted
      memory := answer.memory
      log := answer.log ++ ix.classifiedLog a }

/-- Makes an atom a level of a pointer variable. -/
def join (ix : Index) (a : Atom) (p : PointerId) : Index :=
  { ix with members := ix.members.insert a ((ix.membersOf a).insert p) }

/-- Records that a root makes a pointer variable WILD; the answer tells whether that is new. -/
def blamePointer (ix : Index) (root : Atom) (p : PointerId) : Except Inconsistency (Index × Bool) :=
  if !ix.isRoot root then .error ⟨root, .pointerCauseIsNoRoot⟩
  else if (ix.pointerEffectsOf root).contains p then .ok (ix, false)
  else
    .ok ({ ix with
      pointerEffects := ix.pointerEffects.insert root ((ix.pointerEffectsOf root).insert p)
      pointerCauses := ix.pointerCauses.add p root }, true)

/-- The pairs that follow from the edges between atoms: each root that forces an atom, with each pointer
variable of which the atom is a level. -/
def liftedPairs (ix : Index) : List (Atom × PointerId) :=
  ix.causes.entries.flatMap fun (a, rs) =>
    rs.toList.flatMap fun r => (ix.membersOf a).toList.map fun p => (r, p)

/-- Records pairs of a root and a pointer variable in turn, up to the first that is refused, and counts
the new ones on top of `added`. -/
def blamePointers (added : Nat) (ix : Index) :
    List (Atom × PointerId) → Index × Except Inconsistency Nat
  | [] => (ix, .ok added)
  | (r, p) :: rest =>
    match ix.blamePointer r p with
    | .ok (ix, isNew) => blamePointers (if isNew then added + 1 else added) ix rest
    | .error e => (ix, .error e)

/-- Derives who explains a pointer variable from who explains its levels; the answer counts the pairs
that are new. -/
def lift (ix : Index) : Index × Except Inconsistency Nat := ix.blamePointers 0 ix.liftedPairs

/-- What there is to say about a derivation that went through. -/
def liftLog (added : Nat) : List LogLine :=
  [⟨.debug, .index, ("Lifted " ++ Number.natText added ++ " pointer-level attribution edges")⟩]

/-! ### What each call can do -/

section
variable (ix : Index)

theorem declareRoot_cases (a : Atom) (d : Diagnostic) :
    (a ∈ ix.indirect ∧ ix.declareRoot a d = .error ⟨a, .indirectAsRoot⟩) ∨
    (a ∉ ix.indirect ∧
      ix.declareRoot a d = .ok { ix with diagnostics := ix.diagnostics.insert a d }) := by
  by_cases h : a ∈ ix.indirect
  · exact .inl ⟨h, if_pos h⟩
  · exact .inr ⟨h, if_neg h⟩

/-- An atom that is indirect already is inserted without effect. -/
theorem declareIndirect_cases (a : Atom) :
    (a ∈ ix.roots ∧ ix.declareIndirect a = .error ⟨a, .rootAsIndirect⟩) ∨
    (a ∉ ix.roots ∧ ix.declareIndirect a =
      .ok ({ ix with indirect := ix.indirect.insert a }, decide (a ∉ ix.indirect))) := by
  by_cases hr : a ∈ ix.roots
  · exact .inl ⟨hr, if_pos (isRoot_iff.2 hr)⟩
  · refine .inr ⟨hr, ?_⟩
    rw [declareIndirect, if_neg (mt isRoot_iff.1 hr)]
    by_cases hi : a ∈ ix.indirect
    · simp [hi, AtomSet.insert_of_mem hi]
    · simp [hi]

theorem blame_cases (r a : Atom) :
    (r ∉ ix.roots ∧ ix.blame r a = .error ⟨r, .causeIsNoRoot⟩) ∨
    (r ∈ ix.roots ∧ (a = r ∨ a ∈ ix.roots) ∧ ∃ fate, fate ≠ .recorded ∧ ix.blame r a = .ok (ix, fate)) ∨
    (r ∈ ix.roots ∧ a ∉ ix.roots ∧ ix.blame r a =
      .ok ({ ix with
        indirect := ix.indirect.insert a
        effects := Relation.add r a ix.effects
        causes := Relation.add a r ix.causes }, .recorded)) := by
  by_cases hr : r ∈ ix.roots
  · refine .inr ?_
    have hr' : ix.isRoot r = true := isRoot_iff.2 hr
    by_cases har : a = r
    · exact .inl ⟨hr, .inl har, .selfLoop, by decide, by simp [blame, hr', har]⟩
    by_cases ha : a ∈ ix.roots
    · have ha' : ix.isRoot a = true := isRoot_iff.2 ha
      exact .inl ⟨hr, .inr ha, .intoRoot, by decide, by simp [blame, hr', har, ha']⟩
    · have ha' : ¬ ix.isRoot a = true := mt isRoot_iff.1 ha
      exact .inr ⟨hr, ha, by simp [blame, hr', har, ha']⟩
  · have hr' : ¬ ix.isRoot r = true := mt isRoot_iff.1 hr
    exact .inl ⟨hr, by simp [blame, hr']⟩

theorem blamePointer_cases (r : Atom) (p : PointerId) :
    (r ∉ ix.roots ∧ ix.blamePointer r p = .error ⟨r, .pointerCauseIsNoRoot⟩) ∨
    (r ∈ ix.roots ∧ (ix.pointerEffectsOf r).contains p = true ∧ ix.blamePointer r p = .ok (ix, false)) ∨
    (r ∈ ix.roots ∧ (ix.pointerEffectsOf r).contains p = false ∧ ix.blamePointer r p =
      .ok ({ ix with
        pointerEffects := ix.pointerEffects.insert r ((ix.pointerEffectsOf r).insert p)
        pointerCauses := ix.pointerCauses.add p r }, true)) := by
  by_cases hr : r ∈ ix.roots
  · have hr' : ix.isRoot r = true := isRoot_iff.2 hr
    refine .inr ?_
    cases hp : (ix.pointerEffectsOf r).contains p with
    | true => exact .inl ⟨hr, rfl, by simp [blamePointer, hr', hp]⟩
    | false => exact .inr ⟨hr, rfl, by simp [blamePointer, hr', hp]⟩
  · have hr' : ¬ ix.isRoot r = true := mt isRoot_iff.1 hr
    exact .inl ⟨hr, by simp [blamePointer, hr']⟩

theorem locate_eq (a : Atom) (l : Option Location) :
    ∃ locations, ix.locate a l = { ix with locations } ∧
      ∀ b, locations.find? b = (if a = b then l else none).or (ix.locationOf b) := by
  cases l with
  | none => exact ⟨ix.locations, rfl, fun b => by simp [locationOf]⟩
  | some l =>
    refine ⟨ix.locations.insert a l, rfl, fun b => ?_⟩
    rw [AtomTable.find?_insert]
    split <;> rfl

theorem fileInSource_cases (a : Atom) (inSource : Bool) :
    (a ∈ ix.roots ∧ ix.fileInSource a inSource =
      { ix with rootsInSource := setMembership inSource a ix.rootsInSource }) ∨
    (a ∉ ix.roots ∧ a ∈ ix.indirect ∧ ix.fileInSource a inSource =
      { ix with indirectInSource := setMembership inSource a ix.indirectInSource }) ∨
    (a ∉ ix.roots ∧ a ∉ ix.indirect ∧ ix.fileInSource a inSource = ix) := by
  by_cases hr : a ∈ ix.roots
  · exact .inl ⟨hr, if_pos (isRoot_iff.2 hr)⟩
  · have hr' : ¬ ix.isRoot a = true := mt isRoot_iff.1 hr
    rw [fileInSource, if_neg hr']
    by_cases hi : a ∈ ix.indirect
    · exact .inr (.inl ⟨hr, hi, if_pos hi⟩)
    · exact .inr (.inr ⟨hr, hi, if_neg hi⟩)

end

theorem mem_setMembership {member : Bool} {a b : Atom} {s : AtomSet} :
    b ∈ setMembership member a s ↔ if b = a then member = true else b ∈ s := by
  cases member <;> by_cases h : b = a <;> simp [setMembership, h]

end Blame.Index
