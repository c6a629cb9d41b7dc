import Blame.Command.Run
import Blame.Proofs.Sound
import Blame.Proofs.Stages
import Mathlib.Logic.Relation

/-!
# Runs of calls

The indexes that can come up: what any list of calls makes of an empty index. A call that is refused
leaves what it did before. A load is nothing more than a run of the other calls, wherever it stops, so
what each of these keeps (`Index.Sound`) holds of every index that comes up.
-/

namespace Blame

open Snapshot

/-- A call that writes into an index. The id of a pointer variable comes as a value that may be none. -/
inductive Write : Type 1 where
  | declareRoot (a : Atom) (d : Diagnostic)
  | declareIndirect (a : Atom)
  | blame (root affected : Atom)
  | locate (a : Atom) (l : Option Location)
  | rename (a : Atom) (name : Text)
  | classify {σ : Type} (c : Classifier σ) (memory : σ) (a : Atom) (l : Option Location)
  | join (a : Atom) (id : Json)
  | blamePointer (root : Atom) (id : Json)
  | lift

/-- A call to an index. -/
inductive Call : Type 1 where
  | write (w : Write)
  | clear
  | load {σ : Type} (c : Classifier σ) (memory : σ) (members : Members)

namespace Index

/-- The index after a call that was answered by another index, or else was refused. -/
def answered {α : Type} (ix : Index) (f : α → Index) : Except Inconsistency α → Index × Option LoadError
  | .ok x => (f x, none)
  | .error i => (ix, some (.inconsistent i))

end Index

/-- Does a call: the index after it, and why it was refused if it was. -/
def Write.perform (ix : Index) : Write → Index × Option LoadError
  | .declareRoot a d => ix.answered id (ix.declareRoot a d)
  | .declareIndirect a => ix.answered Prod.fst (ix.declareIndirect a)
  | .blame r a => ix.answered Prod.fst (ix.blame r a)
  | .locate a l => (ix.locate a l, none)
  | .rename a name => (ix.rename a name, none)
  | .classify c memory a l =>
    let r := ix.classify c memory a l
    (r.index, match r.inSource with
      | .ok _ => none
      | .error u => some (.unclassifiable u))
  | .join a id =>
    match PointerId.ofJson? id with
    | .ok p => (ix.join a p, none)
    | .error u => (ix, some (.fault (.unhashable u)))
  | .blamePointer r id =>
    if !ix.isRoot r then (ix, some (.inconsistent ⟨r, .pointerCauseIsNoRoot⟩))
    else
      match PointerId.ofJson? id with
      | .ok p => ix.answered Prod.fst (ix.blamePointer r p)
      | .error u => (ix, some (.fault (.unhashable u)))
  | .lift =>
    match ix.lift with
    | (ix, .ok _) => (ix, none)
    | (ix, .error i) => (ix, some (.inconsistent i))

theorem Write.perform_lift (ix : Index) : (Write.lift.perform ix).1 = ix.lift.1 := by
  rw [perform]
  rcases ix.lift with ⟨_, _ | _⟩ <;> rfl

/-- Does a call: the index after it, and why it was refused if it was. -/
def Call.perform (ix : Index) : Call → Index × Option LoadError
  | .write w => w.perform ix
  | .clear => ({}, none)
  | .load c memory members =>
    let l := Snapshot.load c memory ix (Document.ofMembers members)
    (l.progress.index, l.error)

/-- The index that calls make of an empty one. -/
def Index.after (calls : List Call) : Index := calls.foldl (fun ix c => (c.perform ix).1) {}

/-! ### A load as a run of writes -/

/-- One index comes from another by writes. -/
abbrev Writes : Index → Index → Prop :=
  Relation.ReflTransGen fun ix ix' => ∃ w : Write, (w.perform ix).1 = ix'

theorem Write.writes (w : Write) (ix : Index) : Writes ix (w.perform ix).1 := .single ⟨w, rfl⟩

namespace Snapshot

theorem writes_applyName (a : Atom) (name : Option Text) (ix : Index) :
    Writes ix (applyName a name ix) := by
  cases name with
  | none => exact .refl
  | some s => exact (Write.rename a s).writes ix

theorem writes_join (a : Atom) (p : PointerId) (ix : Index) : Writes ix (ix.join a p) := by
  have h := (Write.join a p.toJson).writes ix
  rwa [Write.perform, PointerId.ofJson?_toJson] at h

theorem lift_writes (ix : Index) : Writes ix ix.lift.1 := by
  have h := Write.lift.writes ix
  rwa [Write.perform_lift] at h

theorem writes_foldl {α : Type} {step : Index → α → Index} (h : ∀ ix x, Writes ix (step ix x))
    (l : List α) (ix : Index) : Writes ix (l.foldl step ix) := by
  induction l generalizing ix with
  | nil => exact .refl
  | cons x rest ih => exact (h ix x).trans (ih (step ix x))

theorem applyAtom_writes (ix : Index) (x : AtomRecord) (r : Index × List LogLine)
    (h : applyAtom ix x = .ok r) : Writes ix r.1 := by
  cases h
  exact writes_applyName x.atom x.name ix

/-- A record that is one call and perhaps a name is a run of writes if the call is. -/
theorem writes_of_answered {α : Type} {ix : Index} {f : α → Index} {g : α → Index × List LogLine}
    {o : Except Inconsistency α} {r : Index × List LogLine} (h : o.map g = .ok r)
    (hw : Writes ix (ix.answered f o).1) (hg : ∀ x, Writes (f x) (g x).1) : Writes ix r.1 := by
  cases o with
  | error i => cases h
  | ok x =>
    cases h
    exact hw.trans (hg x)

theorem applyRoot_writes (ix : Index) (x : RootRecord) (r : Index × List LogLine)
    (h : applyRoot ix x = .ok r) : Writes ix r.1 :=
  writes_of_answered h ((Write.declareRoot x.atom x.diagnostic).writes ix)
    (writes_applyName x.atom x.name)

theorem applyEdge_writes (ix : Index) (x : EdgeRecord) (r : Index × List LogLine)
    (h : applyEdge ix x = .ok r) : Writes ix r.1 :=
  writes_of_answered h ((Write.blame x.root x.affected).writes ix) fun _ => .refl

theorem applyIndirect_writes (ix : Index) (a : Atom) (r : Index × List LogLine)
    (h : applyIndirect ix a = .ok r) : Writes ix r.1 :=
  writes_of_answered h ((Write.declareIndirect a).writes ix) fun _ => .refl

theorem applyPointer_writes (ix : Index) (x : PointerRecord) (r : Index × List LogLine)
    (h : applyPointer ix x = .ok r) : Writes ix r.1 := by
  cases h
  exact writes_foldl (fun ix a => writes_join a x.pointer ix) x.atoms ix

theorem fillPlace_writes (ix : Index) (place : Atom × Option Location) :
    Writes ix (fillPlace ix place) := by
  unfold fillPlace
  split
  · exact (Write.locate place.1 place.2).writes ix
  · exact .refl

section
variable {σ : Type}

theorem stages_writes (c : Classifier σ) (d : Document) : (stages c d).Within Writes :=
  Stage.within_stages (fun r _ ix => applyAtom_writes ix r) (fun r _ ix => applyRoot_writes ix r)
    (fun r _ ix => applyEdge_writes ix r) (fun a _ ix => applyIndirect_writes ix a)
    (fun r _ ix => applyPointer_writes ix r) lift_writes
    (fun ix memory a => (Write.classify c memory a (d.places.find? a).join).writes ix)
    fun e _ ix => fillPlace_writes ix e

theorem load_writes (c : Classifier σ) (memory : σ) (ix : Index) (d : Document) :
    Writes ix (load c memory ix d).progress.index := stages_writes c d { index := ix, memory }

end

end Snapshot

/-! ### Runs -/

theorem Index.Sound.answered {α : Type} {ix : Index} (h : ix.Sound) {f : α → Index}
    {o : Except Inconsistency α} (ho : ∀ x, o = .ok x → (f x).Sound) : (ix.answered f o).1.Sound := by
  cases o with
  | ok x => exact ho x rfl
  | error i => exact h

theorem Write.perform_sound {ix : Index} (h : ix.Sound) (w : Write) : (w.perform ix).1.Sound := by
  cases w with
  | declareRoot a d => exact h.answered fun _ => h.declareRoot
  | declareIndirect a => exact h.answered fun _ => h.declareIndirect
  | blame r a => exact h.answered fun _ => h.blame
  | locate a l => exact h.locate a l
  | rename a name => exact h.rename a name
  | classify c memory a l => exact h.classify c memory a l
  | join a id =>
    rw [Write.perform]
    split
    · exact h.join a _
    · exact h
  | blamePointer r id =>
    rw [Write.perform]
    split
    · exact h
    · split
      · exact h.answered fun _ => h.blamePointer
      · exact h
  | lift =>
    rw [Write.perform_lift]
    exact h.lift

theorem Writes.sound {ix ix' : Index} (hw : Writes ix ix') (h : ix.Sound) : ix'.Sound := by
  induction hw with
  | refl => exact h
  | tail _ hw ih =>
    obtain ⟨w, rfl⟩ := hw
    exact w.perform_sound ih

theorem Call.perform_sound {ix : Index} (h : ix.Sound) (c : Call) : (c.perform ix).1.Sound := by
  cases c with
  | write w => exact w.perform_sound h
  | clear => exact Index.sound_empty
  | load c memory members => exact (load_writes c memory ix _).sound h

namespace Index

theorem sound_after (calls : List Call) : (after calls).Sound := by
  have h : ∀ ix : Index, ix.Sound → (calls.foldl (fun ix c => (c.perform ix).1) ix).Sound := by
    intro ix hix
    induction calls generalizing ix with
    | nil => exact hix
    | cons c rest ih => exact ih _ (c.perform_sound hix)
  exact h {} sound_empty

theorem violations_after (calls : List Call) : (after calls).violations = [] :=
  audited_iff.1 (sound_after calls).consistent.toAudited

end Index

namespace Command

/-- The index of a snapshot file comes from one load into an empty index. -/
theorem index_of_loadFile {w : World} {rules : FileRules} {p : Text} {log : List LogLine}
    {l : LoadedFile} (h : loadFile w rules p = (log, .ok l)) :
    ∃ members, l.index = Index.after [.load rules.classifier [] members] := by
  unfold loadFile at h
  split at h
  · cases h
  · rename_i members _
    dsimp only at h
    split at h
    · cases h
    · cases h
      exact ⟨members, rfl⟩

/-- A strict run has nothing to refuse. -/
theorem runUnder_eq (w : World) (s : Settings) (format : Format) (rules : FileRules) (a : Arguments)
    (st : State) :
    runUnder w s format rules a st =
      match loadFile w rules a.snapshot with
      | (log, .error f) => endOfLoad (st.say log) f
      | (log, .ok l) => present w s format a l (st.say log) := by
  unfold runUnder
  rcases ho : loadFile w rules a.snapshot with ⟨log, f | l⟩
  · rfl
  · obtain ⟨members, hl⟩ := index_of_loadFile ho
    simp [hl, Index.violations_after]

end Command

/-- Whatever is called in whatever order, the promises between the tables are kept, and with them what
makes them last. So an audit finds nothing, and a strict run ends as if nobody had asked for one. -/
theorem Index.promises_kept (calls : List Call) :
    (after calls).Sound ∧ (after calls).Consistent ∧ (after calls).violations = [] ∧
    ∀ w s format rules a st, Command.runUnder w s format rules a st =
      match Command.loadFile w rules a.snapshot with
      | (log, .error f) => Command.endOfLoad (st.say log) f
      | (log, .ok l) => Command.present w s format a l (st.say log) :=
  ⟨sound_after calls, (sound_after calls).consistent, violations_after calls, Command.runUnder_eq⟩

end Blame
