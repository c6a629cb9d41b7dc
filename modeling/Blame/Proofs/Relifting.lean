import Blame.Proofs.Atomic
import Mathlib.Data.List.ReduceOption

/-!
# Lifting in between

A lift makes a root explain a variable iff the root did so before or explains one of its levels (`Index.Lifts`).
Neither does a lift change what this holds of, nor does it matter to any other call what was lifted before. So two
runs of the same calls, one of them with lifts in between, leave indexes that hold the same but for what is still to
be lifted (`AlikeLifted`), and one more lift at the end of both settles that.
-/

namespace Blame

open Snapshot

namespace Index

/-- The root forces an atom that is a level of the variable. -/
def ExplainsLevel (ix : Index) (r : Atom) (p : PointerId) : Prop :=
  ∃ a, r ∈ ix.causesOf a ∧ (ix.membersOf a).contains p = true

/-- The root explains the variable, or does once there is a lift. -/
def Lifts (ix : Index) (r : Atom) (p : PointerId) : Prop :=
  (ix.pointerEffectsOf r).contains p = true ∨ ix.ExplainsLevel r p

/-- The index with other relations of pointer variables. -/
def withPointers (ix : Index) (pe : AtomTable PointerSet) (pc : PointerRelation) : Index :=
  { ix with pointerEffects := pe, pointerCauses := pc }

/-- The index without the relations of pointer variables. -/
def unlifted (ix : Index) : Index := ix.withPointers ∅ ∅

variable {ix ix' : Index} {r : Atom} {p : PointerId}

/-! ### One lift -/

theorem blamePointers_of_contained (n : ℕ) {l : List (Atom × PointerId)}
    (hl : ∀ e ∈ l, e.1 ∈ ix.roots ∧ (ix.pointerEffectsOf e.1).contains e.2 = true) :
    ix.blamePointers n l = (ix, .ok n) := by
  induction l with
  | nil => rfl
  | cons e rest ih =>
    obtain ⟨hr, hp⟩ := hl e List.mem_cons_self
    rcases ix.blamePointer_cases e.1 e.2 with ⟨hn, -⟩ | ⟨-, -, ho⟩ | ⟨-, hn, -⟩
    · exact absurd hr hn
    · rw [blamePointers, ho]
      exact ih fun e he => hl e (List.mem_cons_of_mem _ he)
    · rw [hp] at hn
      cases hn

/-- What is lifted is there, so there is nothing to lift. -/
theorem Sound.lift_again (h : ix.Sound) : ix.lift.1.lift = (ix.lift.1, .ok 0) := by
  obtain ⟨pe, pc, n, ho, hspec⟩ := h.lift_spec
  rw [ho]
  refine blamePointers_of_contained 0 fun e he => ?_
  have hlevel : ix.ExplainsLevel e.1 e.2 := exists_mem_liftedPairs.1 ⟨e, he, rfl, rfl⟩
  have hroot : e.1 ∈ ix.roots := hlevel.elim fun a ha => h.root_of_cause ha.1
  exact ⟨hroot, (hspec e.1 e.2).2 (.inr hlevel)⟩

theorem Sound.contains_lift (h : ix.Sound) :
    (ix.lift.1.pointerEffectsOf r).contains p = true ↔ ix.Lifts r p := by
  obtain ⟨pe, pc, n, ho, hspec⟩ := h.lift_spec
  rw [ho]
  exact hspec r p

theorem unlifted_lift : ix.lift.1.unlifted = ix.unlifted := by
  obtain ⟨pe, pc, ho⟩ := ix.blamePointers_eq 0 ix.liftedPairs
  rw [lift, ho]
  rfl

/-- What a root explains a level of is told without the relations of pointer variables. -/
theorem explainsLevel_congr (h : ix.unlifted = ix'.unlifted) : ix.ExplainsLevel r p ↔ ix'.ExplainsLevel r p := by
  have hlevel : ix.unlifted.ExplainsLevel r p ↔ ix'.unlifted.ExplainsLevel r p := by rw [h]
  exact hlevel

theorem Sound.lifts_lift (h : ix.Sound) : ix.lift.1.Lifts r p ↔ ix.Lifts r p := by
  rw [Lifts, h.contains_lift, explainsLevel_congr unlifted_lift]
  exact or_iff_left_of_imp .inr

/-! ### Two indexes that differ in what is lifted -/

/-- Two indexes that hold the same, and a lift makes the same of what they hold of pointer variables. -/
structure AlikeLifted (ix ix' : Index) : Prop where
  left : ix.Sound
  right : ix'.Sound
  rest : ix.unlifted = ix'.unlifted
  lifts : ∀ r p, ix.Lifts r p ↔ ix'.Lifts r p

namespace AlikeLifted
variable {ix'' : Index}

theorem refl (h : ix.Sound) : AlikeLifted ix ix := ⟨h, h, rfl, fun _ _ => Iff.rfl⟩

theorem symm (h : AlikeLifted ix ix') : AlikeLifted ix' ix :=
  ⟨h.right, h.left, h.rest.symm, fun r p => (h.lifts r p).symm⟩

theorem trans (h : AlikeLifted ix ix') (k : AlikeLifted ix' ix'') : AlikeLifted ix ix'' :=
  ⟨h.left, k.right, h.rest.trans k.rest, fun r p => (h.lifts r p).trans (k.lifts r p)⟩

theorem lift (h : ix.Sound) : AlikeLifted ix ix.lift.1 :=
  ⟨h, h.lift, unlifted_lift.symm, fun _ _ => h.lifts_lift.symm⟩

theorem roots_iff (h : AlikeLifted ix ix') {a : Atom} : a ∈ ix.roots ↔ a ∈ ix'.roots := by
  have hroots : a ∈ ix.unlifted.roots ↔ a ∈ ix'.unlifted.roots := by rw [h.rest]
  exact hroots

end AlikeLifted

end Index

open Index

/-! ### One call -/

/-- The calls that neither look at the relations of pointer variables nor touch them. -/
def Write.SparesPointers : Write → Prop
  | .blamePointer .. => False
  | .lift => False
  | _ => True

namespace Index
variable (ix : Index) (pe : AtomTable PointerSet) (pc : PointerRelation) (a : Atom)

theorem locate_withPointers (l : Option Location) :
    (ix.withPointers pe pc).locate a l = (ix.locate a l).withPointers pe pc := by
  cases l <;> rfl

theorem fileInSource_withPointers (inSource : Bool) :
    (ix.withPointers pe pc).fileInSource a inSource = (ix.fileInSource a inSource).withPointers pe pc := by
  rcases ix.fileInSource_cases a inSource with ⟨hr, ho⟩ | ⟨hr, hi, ho⟩ | ⟨hr, hi, ho⟩ <;> rw [ho]
  · exact if_pos (isRoot_iff.2 hr)
  · exact (if_neg (mt isRoot_iff.1 hr)).trans (if_pos hi)
  · exact (if_neg (mt isRoot_iff.1 hr)).trans (if_neg hi)

end Index

section
variable {ix ix' : Index} {w : Write}

/-- Other relations of pointer variables make no difference. -/
theorem Write.perform_withPointers (hw : w.SparesPointers) (ix : Index) (pe : AtomTable PointerSet)
    (pc : PointerRelation) :
    w.perform (ix.withPointers pe pc) = ((w.perform ix).1.withPointers pe pc, (w.perform ix).2) := by
  cases w with
  | declareRoot a d =>
    rcases ix.declareRoot_cases a d with ⟨ha, ho⟩ | ⟨ha, ho⟩ <;>
      rcases (ix.withPointers pe pc).declareRoot_cases a d with ⟨ha', ho'⟩ | ⟨ha', ho'⟩
    · rw [perform, perform, ho, ho']
      rfl
    · exact absurd ha ha'
    · exact absurd ha' ha
    · rw [perform, perform, ho, ho']
      rfl
  | declareIndirect a =>
    rcases ix.declareIndirect_cases a with ⟨ha, ho⟩ | ⟨ha, ho⟩ <;>
      rcases (ix.withPointers pe pc).declareIndirect_cases a with ⟨ha', ho'⟩ | ⟨ha', ho'⟩
    · rw [perform, perform, ho, ho']
      rfl
    · exact absurd ha ha'
    · exact absurd ha' ha
    · rw [perform, perform, ho, ho']
      rfl
  | blame r a =>
    rcases ix.blame_cases r a with ⟨hr, ho⟩ | ⟨hr, hor, _, -, ho⟩ | ⟨hr, ha, ho⟩ <;>
      rcases (ix.withPointers pe pc).blame_cases r a with
        ⟨hr', ho'⟩ | ⟨hr', hor', _, -, ho'⟩ | ⟨hr', ha', ho'⟩
    · rw [perform, perform, ho, ho']
      rfl
    · exact absurd hr' hr
    · exact absurd hr' hr
    · exact absurd hr hr'
    · rw [perform, perform, ho, ho']
      rfl
    · exact absurd hor (not_self_or_root hr ha')
    · exact absurd hr hr'
    · exact absurd hor' (not_self_or_root hr' ha)
    · rw [perform, perform, ho, ho']
      rfl
  | locate a l => cases l <;> rfl
  | rename a name => rfl
  | classify c memory a l =>
    simp only [perform, Index.classify]
    cases askInSource c memory l with
    | error u => simp only [locate_withPointers]
    | ok answer => simp only [locate_withPointers, fileInSource_withPointers]
  | join a id =>
    rw [perform, perform]
    cases PointerId.ofJson? id <;> rfl
  | _ => exact hw.elim

/-- What a call adds to what a root explains of the levels is added to what is to be lifted. -/
theorem Write.lifts_perform (hw : w.SparesPointers) {r : Atom} {p : PointerId} :
    (w.perform ix).1.Lifts r p ↔ ix.Lifts r p ∨ (w.perform ix).1.ExplainsLevel r p := by
  have hpe : (w.perform ix).1.pointerEffects = ix.pointerEffects := by
    have heq := Write.perform_withPointers hw ix ix.pointerEffects ix.pointerCauses
    exact congrArg (fun o => o.1.pointerEffects) heq
  have hgrows : ix.ExplainsLevel r p → (w.perform ix).1.ExplainsLevel r p := by
    rintro ⟨a, hr, hp⟩
    have hg := w.perform_grows ix
    exact ⟨a, hg.causes.1 a r hr, hg.members.1 a p hp⟩
  rw [Lifts, Lifts, pointerEffectsOf, hpe, or_assoc]
  exact or_congr_right ⟨.inr, fun h => h.elim hgrows id⟩

/-- A pair that is recorded is the one that is new to what is to be lifted. -/
theorem Index.perform_blamePointer {r : Atom} {id : Json} {p : PointerId} (hr : r ∈ ix.roots)
    (hid : PointerId.ofJson? id = .ok p) :
    ∃ pe pc, (Write.blamePointer r id).perform ix = (ix.withPointers pe pc, none) ∧
      ∀ q s, (ix.withPointers pe pc).Lifts q s ↔ (q = r ∧ s.key = p.key) ∨ ix.Lifts q s := by
  rw [perform_blamePointer_of_ok hr hid]
  rcases ix.blamePointer_cases r p with ⟨hn, -⟩ | ⟨-, hp, ho⟩ | ⟨-, -, ho⟩
  · exact absurd hr hn
  · refine ⟨ix.pointerEffects, ix.pointerCauses, by rw [ho]; rfl, fun q s => ?_⟩
    refine (or_iff_right_of_imp ?_).symm
    rintro ⟨rfl, hk⟩
    exact .inl ((PointerSet.contains_congr _ hk).trans hp)
  · refine ⟨_, _, by rw [ho]; rfl, fun q s => ?_⟩
    rw [Lifts, Lifts, ← or_assoc]
    exact or_congr_left contains_pointersIn_insert

namespace Index.AlikeLifted

theorem perform_spared (h : AlikeLifted ix ix') (hw : w.SparesPointers) :
    AlikeLifted (w.perform ix).1 (w.perform ix').1 ∧ (w.perform ix).2 = (w.perform ix').2 := by
  have ho : w.perform ix.unlifted = w.perform ix'.unlifted := by rw [h.rest]
  rw [unlifted, Write.perform_withPointers hw, unlifted, Write.perform_withPointers hw] at ho
  have hrest : (w.perform ix).1.unlifted = (w.perform ix').1.unlifted := congrArg Prod.fst ho
  refine ⟨⟨w.perform_sound h.left, w.perform_sound h.right, hrest, fun r p => ?_⟩, congrArg (·.2) ho⟩
  rw [Write.lifts_perform hw, Write.lifts_perform hw, h.lifts, explainsLevel_congr hrest]

theorem perform_blamePointer (h : AlikeLifted ix ix') (r : Atom) (id : Json) :
    let w := Write.blamePointer r id
    AlikeLifted (w.perform ix).1 (w.perform ix').1 ∧ (w.perform ix).2 = (w.perform ix').2 := by
  intro w
  by_cases hr : r ∈ ix.roots
  · have hr' : r ∈ ix'.roots := h.roots_iff.1 hr
    cases hid : PointerId.ofJson? id with
    | error u =>
      rw [perform_blamePointer_of_error hr hid, perform_blamePointer_of_error hr' hid]
      exact ⟨h, rfl⟩
    | ok p =>
      obtain ⟨pe, pc, ho, hlifts⟩ := Index.perform_blamePointer hr hid
      obtain ⟨pe', pc', ho', hlifts'⟩ := Index.perform_blamePointer hr' hid
      have hsound : (ix.withPointers pe pc).Sound := by
        have hs := w.perform_sound h.left
        rwa [ho] at hs
      have hsound' : (ix'.withPointers pe' pc').Sound := by
        have hs := w.perform_sound h.right
        rwa [ho'] at hs
      rw [ho, ho']
      refine ⟨⟨hsound, hsound', h.rest, fun q s => ?_⟩, rfl⟩
      rw [hlifts, hlifts', h.lifts]
  · have hr' : r ∉ ix'.roots := mt h.roots_iff.2 hr
    rw [perform_blamePointer_of_notMem hr, perform_blamePointer_of_notMem hr']
    exact ⟨h, rfl⟩

theorem perform_lift (h : AlikeLifted ix ix') :
    let w := Write.lift
    AlikeLifted (w.perform ix).1 (w.perform ix').1 ∧ (w.perform ix).2 = (w.perform ix').2 := by
  intro w
  rw [Write.perform_lift, Write.perform_lift, h.left.perform_lift, h.right.perform_lift]
  exact ⟨(lift h.left).symm.trans (h.trans (lift h.right)), rfl⟩

/-- One call, made of both. -/
theorem perform (h : AlikeLifted ix ix') (w : Write) :
    AlikeLifted (w.perform ix).1 (w.perform ix').1 ∧ (w.perform ix).2 = (w.perform ix').2 := by
  cases w with
  | blamePointer r id => exact h.perform_blamePointer r id
  | lift => exact h.perform_lift
  | _ => exact h.perform_spared trivial

end Index.AlikeLifted

end

/-! ### Runs of calls -/

namespace Index

/-- The index after calls in turn. -/
def run (ix : Index) (calls : List Write) : Index := calls.foldl (fun ix w => (w.perform ix).1) ix

/-- Why each of the calls was refused, if it was. -/
def outcomes (ix : Index) : List Write → List (Option LoadError)
  | [] => []
  | w :: rest => (w.perform ix).2 :: outcomes (w.perform ix).1 rest

/-- Calls with a lift at each open place. -/
def withLifts (calls : List (Option Write)) : List Write := calls.map (·.getD .lift)

theorem withLifts_none (calls : List (Option Write)) : withLifts (none :: calls) = .lift :: withLifts calls := rfl

theorem withLifts_some (w : Write) (calls : List (Option Write)) :
    withLifts (some w :: calls) = w :: withLifts calls := rfl

/-- Outcomes of calls, with that of a call that was not refused at each open place between the calls. -/
def spread : List (Option Write) → List (Option LoadError) → List (Option LoadError)
  | none :: rest, os => none :: spread rest os
  | some _ :: rest, o :: os => o :: spread rest os
  | _, _ => []

theorem AlikeLifted.run {ix ix' : Index} (h : AlikeLifted ix ix') (calls : List (Option Write)) :
    AlikeLifted (ix.run calls.reduceOption) (ix'.run (withLifts calls)) ∧
    ix'.outcomes (withLifts calls) = spread calls (ix.outcomes calls.reduceOption) := by
  induction calls generalizing ix ix' with
  | nil => exact ⟨h, rfl⟩
  | cons c rest ih =>
    cases c with
    | none =>
      have hlift : AlikeLifted ix (Write.lift.perform ix').1 := by
        rw [Write.perform_lift]
        exact h.trans (.lift h.right)
      obtain ⟨hrun, ho⟩ := ih hlift
      refine ⟨hrun, ?_⟩
      rw [withLifts_none, outcomes, h.right.perform_lift, ho]
      rfl
    | some w =>
      obtain ⟨hw, hout⟩ := h.perform w
      obtain ⟨hrun, ho⟩ := ih hw
      refine ⟨hrun, ?_⟩
      rw [withLifts_some, outcomes, ← hout, ho]
      rfl

/-- A lift of an index that comes up answers by how much the relation of pointer variables grows. Afterwards a root
explains a variable iff it did so before or explains one of its levels; all else is as it was, and there is nothing
more to lift. Nor is there a difference between calls with lifts in between and the calls alone: each is refused for
the same reason or for none, and once both are followed by a lift, the relations of pointer variables hold between
the same roots and variables and the indexes are otherwise the same. -/
theorem lift_in_between (calls : List Call) (more : List (Option Write)) :
    let ix := after calls
    let lifted := ix.lift.1
    let plain := (ix.run more.reduceOption).lift.1
    let between := (ix.run (withLifts more)).lift.1
    (∃ n, ix.lift.2 = .ok n ∧ lifted.stats.pointerEdges = ix.stats.pointerEdges + n) ∧
    (∀ r p, (lifted.pointerEffectsOf r).contains p = true ↔ ix.Lifts r p) ∧
    (∀ r p, r ∈ lifted.pointerCausesOf p ↔ ix.Lifts r p) ∧
    lifted.unlifted = ix.unlifted ∧
    lifted.lift = (lifted, .ok 0) ∧
    ix.outcomes (withLifts more) = spread more (ix.outcomes more.reduceOption) ∧
    (∀ r p, (between.pointerEffectsOf r).contains p = (plain.pointerEffectsOf r).contains p) ∧
    (∀ p, between.pointerCausesOf p = plain.pointerCausesOf p) ∧
    between.unlifted = plain.unlifted := by
  intro ix lifted plain between
  have h : ix.Sound := sound_after calls
  obtain ⟨n, hn⟩ := h.lift_ok
  have hcount : ix.blamePointers 0 ix.liftedPairs = (lifted, .ok n) := Prod.ext rfl hn
  obtain ⟨hrun, hout⟩ := (AlikeLifted.refl h).run more
  have hcontains : ∀ r p, (between.pointerEffectsOf r).contains p = true ↔
      (plain.pointerEffectsOf r).contains p = true := fun r p => by
    rw [hrun.right.contains_lift, hrun.left.contains_lift, hrun.lifts]
  refine ⟨⟨n, hn, (blamePointers_count hcount).2.2⟩, fun r p => h.contains_lift, fun r p => ?_, unlifted_lift,
    h.lift_again, hout, fun r p => Bool.eq_iff_iff.2 (hcontains r p), fun p => ?_, ?_⟩
  · rw [← h.lift.pointerEffect_iff_cause, h.contains_lift]
  · refine AtomSet.ext_mem fun r => ?_
    rw [← hrun.right.lift.pointerEffect_iff_cause, ← hrun.left.lift.pointerEffect_iff_cause, hcontains]
  · exact unlifted_lift.trans (hrun.rest.symm.trans unlifted_lift.symm)

/-- The ids that are kept can be other ones of the same variables: a lift in between comes first with its own. -/
example :
    let more : List (Option Write) := [some (.declareRoot 1 ⟨"Cast", none, []⟩), some (.blame 1 2),
      some (.join 2 (.int 1)), none, some (.blamePointer 1 (.bool true))]
    ((({} : Index).run (withLifts more)).lift.1.pointerEffectsOf 1).toList = [.scalar (.int 1)] ∧
    ((({} : Index).run more.reduceOption).lift.1.pointerEffectsOf 1).toList = [.scalar (.bool true)] := by
  decide +kernel

end Index

end Blame
