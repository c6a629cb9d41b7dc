import Blame.Proofs.Faults
import Blame.Proofs.Lift
import Blame.Proofs.PairCounts

/-!
# Calls do all or nothing

Why a call is refused can be told from the index and the arguments alone (`Index.Refuses`). A call looks at
everything that could speak against it before it writes, so a refused one leaves the index as it was; only
`classify` records a location before it asks. What the later writes of a call rely on (the second of `blame`, every
one of `lift`) is that the index is sound.
-/

namespace Blame

open Snapshot

/-! ### Values that are no ids -/

/-- A value that can be no id of a pointer variable, and the first list or object that stands in the way. -/
inductive RefusedId : Json → Unhashable → Prop
  | object (members : Members) : RefusedId (.obj members) ⟨"dict"⟩
  | part {before after : List Json} {w : Json} {u : Unhashable}
      (hbefore : ∀ v ∈ before, ∀ t, ¬ Nested v t) (hw : Nested w u) : RefusedId (.list (before ++ w :: after)) u

theorem mapM_eq_error_iff {ε α β : Type} {f : α → Except ε β} {l : List α} {e : ε} :
    l.mapM f = .error e ↔
      ∃ before x after, l = before ++ x :: after ∧ (∀ y ∈ before, ∀ t, f y ≠ .error t) ∧ f x = .error e := by
  induction l with
  | nil => simp [pure, Except.pure]
  | cons x rest ih =>
    rw [List.mapM_cons]
    cases hx : f x with
    | error t =>
      constructor
      · intro h
        cases h
        exact ⟨[], x, rest, rfl, by simp, hx⟩
      · rintro ⟨_ | ⟨y, before⟩, z, after, hl, hbefore, hz⟩
        · obtain ⟨rfl, -⟩ := List.cons.inj hl
          rw [hz] at hx
          cases hx
          rfl
        · obtain ⟨rfl, -⟩ := List.cons.inj hl
          exact absurd hx (hbefore x List.mem_cons_self t)
    | ok b =>
      have hcons : ((Except.ok b >>= fun b => rest.mapM f >>= fun bs => pure (b :: bs)) : Except ε (List β)) =
          .error e ↔ rest.mapM f = .error e := by
        cases rest.mapM f <;> simp [bind, Except.bind, pure, Except.pure]
      rw [hcons, ih]
      constructor
      · rintro ⟨before, z, after, rfl, hbefore, hz⟩
        refine ⟨x :: before, z, after, rfl, fun y hy t => ?_, hz⟩
        rcases List.mem_cons.1 hy with rfl | hy
        · simp [hx]
        · exact hbefore y hy t
      · rintro ⟨_ | ⟨y, before⟩, z, after, hl, hbefore, hz⟩
        · obtain ⟨rfl, -⟩ := List.cons.inj hl
          rw [hx] at hz
          cases hz
        · obtain ⟨rfl, rfl⟩ := List.cons.inj hl
          exact ⟨before, z, after, rfl, fun y hy => hbefore y (List.mem_cons_of_mem _ hy), hz⟩

theorem scalar_eq_error_iff {v : Json} {u : Unhashable} : PointerScalar.ofJson? v = .error u ↔ Nested v u := by
  refine ⟨nested_of_scalar_error, ?_⟩
  rintro (_ | _) <;> rfl

theorem refusedId_iff {id : Json} {u : Unhashable} : PointerId.ofJson? id = .error u ↔ RefusedId id u := by
  constructor
  · intro h
    cases id with
    | list parts =>
      have hparts : parts.mapM PointerScalar.ofJson? = .error u := by
        rw [PointerId.ofJson?] at h
        cases hm : parts.mapM PointerScalar.ofJson? <;> rw [hm] at h <;> cases h
        rfl
      obtain ⟨before, w, after, rfl, hbefore, hw⟩ := mapM_eq_error_iff.1 hparts
      exact .part (fun v hv t ht => hbefore v hv t (scalar_eq_error_iff.2 ht)) (scalar_eq_error_iff.1 hw)
    | obj members =>
      cases h
      exact .object members
    | _ => cases h
  · intro h
    cases h with
    | object members => rfl
    | @part before after w _ hbefore hw =>
      have hparts : (before ++ w :: after).mapM PointerScalar.ofJson? = .error u :=
        mapM_eq_error_iff.2 ⟨before, w, after, rfl,
          fun v hv t ht => hbefore v hv t (scalar_eq_error_iff.1 ht), scalar_eq_error_iff.2 hw⟩
      rw [PointerId.ofJson?, hparts]
      rfl

/-! ### What is refused -/

/-- The calls that an index refuses, and why. -/
inductive Index.Refuses (ix : Index) : Write → LoadError → Prop
  | root {a : Atom} {d : Diagnostic} (ha : a ∈ ix.indirect) :
      Refuses ix (.declareRoot a d) (.inconsistent ⟨a, .indirectAsRoot⟩)
  | indirect {a : Atom} (ha : a ∈ ix.roots) :
      Refuses ix (.declareIndirect a) (.inconsistent ⟨a, .rootAsIndirect⟩)
  | cause {r a : Atom} (hr : r ∉ ix.roots) : Refuses ix (.blame r a) (.inconsistent ⟨r, .causeIsNoRoot⟩)
  | level {a : Atom} {id : Json} {u : Unhashable} (hid : RefusedId id u) :
      Refuses ix (.join a id) (.fault (.unhashable u))
  | pointerCause {r : Atom} {id : Json} (hr : r ∉ ix.roots) :
      Refuses ix (.blamePointer r id) (.inconsistent ⟨r, .pointerCauseIsNoRoot⟩)
  | pointer {r : Atom} {id : Json} {u : Unhashable} (hr : r ∈ ix.roots) (hid : RefusedId id u) :
      Refuses ix (.blamePointer r id) (.fault (.unhashable u))
  | verdict {σ : Type} {c : Classifier σ} {memory : σ} {a : Atom} {l : Location} {u : Unclassifiable}
      (hl : l.valid = true) (hask : c.ask memory l.file = .error u) :
      Refuses ix (.classify c memory a (some l)) (.unclassifiable u)

/-- The calls that need no answer of a classifier. -/
def Write.AsksNobody : Write → Prop
  | .classify .. => False
  | _ => True

/-- A call that answers that there was nothing to record. -/
def Index.AnswersNo (ix : Index) : Write → Prop
  | .declareIndirect a => (ix.declareIndirect a).map Prod.snd = .ok false
  | .blame r a => ∃ fate, fate ≠ .recorded ∧ (ix.blame r a).map Prod.snd = .ok fate
  | .blamePointer r id =>
    ∃ p, PointerId.ofJson? id = .ok p ∧ (ix.blamePointer r p).map Prod.snd = .ok false
  | .lift => ix.lift.2 = .ok 0
  | _ => False

/-- The second index is the first with one more edge: the atom is indirect in it, the edge counts one unless it
was there, and no other table is touched. -/
structure Index.AddsEdge (r a : Atom) (ix ix' : Index) : Prop where
  frame : ix' = { ix with indirect := ix'.indirect, effects := ix'.effects, causes := ix'.causes }
  indirect : ∀ b, b ∈ ix'.indirect ↔ b = a ∨ b ∈ ix.indirect
  effects : ∀ q b, b ∈ ix'.effectsOf q ↔ (q = r ∧ b = a) ∨ b ∈ ix.effectsOf q
  causes : ∀ b q, q ∈ ix'.causesOf b ↔ (b = a ∧ q = r) ∨ q ∈ ix.causesOf b
  edges : ix'.stats.edges = ix.stats.edges + if a ∈ ix.effectsOf r then 0 else 1

namespace Index
variable {ix : Index} {w : Write} {e : LoadError}

section
variable {r : Atom} {id : Json}

theorem perform_blamePointer_of_notMem (hr : r ∉ ix.roots) :
    (Write.blamePointer r id).perform ix = (ix, some (.inconsistent ⟨r, .pointerCauseIsNoRoot⟩)) :=
  if_pos (by simpa using mt isRoot_iff.1 hr)

theorem perform_blamePointer_of_error (hr : r ∈ ix.roots) {u : Unhashable} (hid : PointerId.ofJson? id = .error u) :
    (Write.blamePointer r id).perform ix = (ix, some (.fault (.unhashable u))) := by
  have hr' : ¬ (!ix.isRoot r) = true := by simpa using isRoot_iff.2 hr
  rw [Write.perform, if_neg hr', hid]

theorem perform_blamePointer_of_ok (hr : r ∈ ix.roots) {p : PointerId} (hid : PointerId.ofJson? id = .ok p) :
    (Write.blamePointer r id).perform ix = ix.answered Prod.fst (ix.blamePointer r p) := by
  have hr' : ¬ (!ix.isRoot r) = true := by simpa using isRoot_iff.2 hr
  rw [Write.perform, if_neg hr', hid]

end

theorem Refuses.perform_eq (h : ix.Refuses w e) :
    (w.perform ix).2 = some e ∧ (w.AsksNobody → (w.perform ix).1 = ix) := by
  cases h with
  | root ha =>
    rcases ix.declareRoot_cases _ _ with ⟨-, ho⟩ | ⟨hn, -⟩
    · rw [Write.perform, ho]
      exact ⟨rfl, fun _ => rfl⟩
    · exact absurd ha hn
  | indirect ha =>
    rcases ix.declareIndirect_cases _ with ⟨-, ho⟩ | ⟨hn, -⟩
    · rw [Write.perform, ho]
      exact ⟨rfl, fun _ => rfl⟩
    · exact absurd ha hn
  | cause hr =>
    rcases ix.blame_cases _ _ with ⟨-, ho⟩ | ⟨hn, -⟩ | ⟨hn, -⟩
    · rw [Write.perform, ho]
      exact ⟨rfl, fun _ => rfl⟩
    · exact absurd hn hr
    · exact absurd hn hr
  | level hid =>
    rw [Write.perform, refusedId_iff.2 hid]
    exact ⟨rfl, fun _ => rfl⟩
  | pointerCause hr =>
    rw [perform_blamePointer_of_notMem hr]
    exact ⟨rfl, fun _ => rfl⟩
  | pointer hr hid =>
    rw [perform_blamePointer_of_error hr (refusedId_iff.2 hid)]
    exact ⟨rfl, fun _ => rfl⟩
  | verdict hl hask =>
    refine ⟨?_, False.elim⟩
    simp only [Write.perform, classify, askInSource, if_pos hl, hask]

theorem Sound.lift_ok (h : ix.Sound) : ∃ n, ix.lift.2 = .ok n := by
  obtain ⟨pe, pc, n, ho, -⟩ := h.lift_spec
  exact ⟨n, congrArg Prod.snd ho⟩

theorem Sound.refuses_of_perform (h : ix.Sound) (ho : (w.perform ix).2 = some e) : ix.Refuses w e := by
  cases w with
  | declareRoot a d =>
    rcases ix.declareRoot_cases a d with ⟨ha, hc⟩ | ⟨-, hc⟩ <;> rw [Write.perform, hc] at ho <;> cases ho
    exact .root ha
  | declareIndirect a =>
    rcases ix.declareIndirect_cases a with ⟨ha, hc⟩ | ⟨-, hc⟩ <;> rw [Write.perform, hc] at ho <;> cases ho
    exact .indirect ha
  | blame r a =>
    rcases ix.blame_cases r a with ⟨hr, hc⟩ | ⟨-, -, _, -, hc⟩ | ⟨-, -, hc⟩ <;>
      rw [Write.perform, hc] at ho <;> cases ho
    exact .cause hr
  | locate a l => cases ho
  | rename a name => cases ho
  | classify c memory a l =>
    rw [Write.perform] at ho
    cases hv : (ix.classify c memory a l).inSource <;> simp only [hv] at ho <;> cases ho
    obtain ⟨l, rfl, hl, hask⟩ := exists_of_classify_eq_error hv
    exact .verdict hl hask
  | join a id =>
    cases hid : PointerId.ofJson? id <;> rw [Write.perform, hid] at ho <;> cases ho
    exact .level (refusedId_iff.1 hid)
  | blamePointer r id =>
    by_cases hr : r ∈ ix.roots
    · cases hid : PointerId.ofJson? id with
      | error u =>
        rw [perform_blamePointer_of_error hr hid] at ho
        cases ho
        exact .pointer hr (refusedId_iff.1 hid)
      | ok p =>
        rw [perform_blamePointer_of_ok hr hid] at ho
        rcases ix.blamePointer_cases r p with ⟨hn, -⟩ | ⟨-, -, hc⟩ | ⟨-, -, hc⟩
        · exact absurd hr hn
        · rw [hc] at ho
          cases ho
        · rw [hc] at ho
          cases ho
    · rw [perform_blamePointer_of_notMem hr] at ho
      cases ho
      exact .pointerCause hr
  | lift =>
    obtain ⟨n, hn⟩ := h.lift_ok
    rw [Write.perform] at ho
    rcases hc : ix.lift with ⟨ix', _ | i⟩ <;> rw [hc] at ho hn
    · cases hn
    · cases ho

theorem Sound.perform_refused_iff (h : ix.Sound) : (w.perform ix).2 = some e ↔ ix.Refuses w e :=
  ⟨h.refuses_of_perform, fun hw => hw.perform_eq.1⟩

theorem Sound.perform_lift (h : ix.Sound) : (Write.lift.perform ix).2 = none := by
  rw [Option.eq_none_iff_forall_ne_some]
  intro e he
  cases h.refuses_of_perform he

/-! ### What is left out -/

theorem lift_eq_of_zero (h : ix.lift.2 = .ok 0) : ix.lift.1 = ix := by
  have hrun : ix.blamePointers 0 ix.liftedPairs = (ix.lift.1, .ok 0) := Prod.ext rfl h
  exact (blamePointers_count hrun).2.1 rfl

theorem AnswersNo.perform_eq (h : ix.AnswersNo w) : (w.perform ix).1 = ix := by
  cases w with
  | declareIndirect a =>
    rcases ix.declareIndirect_cases a with ⟨-, hc⟩ | ⟨-, hc⟩ <;> rw [AnswersNo, hc] at h
    · cases h
    · have ha : a ∈ ix.indirect := by simpa [Except.map] using h
      rw [Write.perform, hc, AtomSet.insert_of_mem ha]
      rfl
  | blame r a =>
    obtain ⟨fate, hfate, h⟩ := h
    rcases ix.blame_cases r a with ⟨-, hc⟩ | ⟨-, -, _, -, hc⟩ | ⟨-, -, hc⟩ <;> rw [hc] at h
    · cases h
    · rw [Write.perform, hc]
      rfl
    · cases h
      exact absurd rfl hfate
  | blamePointer r id =>
    obtain ⟨p, hid, h⟩ := h
    rcases ix.blamePointer_cases r p with ⟨-, hc⟩ | ⟨hr, -, hc⟩ | ⟨-, -, hc⟩ <;> rw [hc] at h
    · cases h
    · rw [perform_blamePointer_of_ok hr hid, hc]
      rfl
    · cases h
  | lift =>
    rw [Write.perform_lift]
    exact lift_eq_of_zero h
  | _ => exact h.elim

theorem not_self_or_root {r a : Atom} (hr : r ∈ ix.roots) (ha : a ∉ ix.roots) : ¬ (a = r ∨ a ∈ ix.roots) := by
  rintro (rfl | h)
  · exact ha hr
  · exact ha h

theorem answersNo_blame_iff {r a : Atom} (hr : r ∈ ix.roots) :
    ix.AnswersNo (.blame r a) ↔ a = r ∨ a ∈ ix.roots := by
  rcases ix.blame_cases r a with ⟨hn, -⟩ | ⟨-, hor, fate, hfate, hc⟩ | ⟨-, ha, hc⟩
  · exact absurd hr hn
  · refine iff_of_true ⟨fate, hfate, ?_⟩ hor
    rw [hc]
    rfl
  · refine iff_of_false ?_ (not_self_or_root hr ha)
    rintro ⟨fate, hfate, h⟩
    rw [hc] at h
    cases h
    exact hfate rfl

theorem blame_addsEdge {r a : Atom} (hr : r ∈ ix.roots) (ha : a ∉ ix.roots) :
    ∃ ix', ix.blame r a = .ok (ix', .recorded) ∧ ix.AddsEdge r a ix' := by
  rcases ix.blame_cases r a with ⟨hn, -⟩ | ⟨-, hor, -⟩ | ⟨-, -, hc⟩
  · exact absurd hr hn
  · exact absurd hor (not_self_or_root hr ha)
  · exact ⟨_, hc, {
      frame := rfl
      indirect := fun b => AtomSet.mem_insert
      effects := fun q b => Relation.mem_image_add
      causes := fun b q => Relation.mem_image_add
      edges := Relation.pairCount_add ix.effects r a }⟩

/-- What a call does to an index that comes up, it does as a whole. It is refused iff the index has a reason to, and
a lift never is. If it is refused, or answers that there was nothing to record, no table is touched. An edge from a
root is left out iff it leads to the root itself or into another one; any other is added, and nothing else. -/
theorem calls_all_or_nothing (calls : List Call) :
    let ix := after calls
    (∀ w e, (w.perform ix).2 = some e ↔ ix.Refuses w e) ∧
    (Write.lift.perform ix).2 = none ∧
    (∀ w : Write, w.AsksNobody → (∃ e, ix.Refuses w e) ∨ ix.AnswersNo w → (w.perform ix).1 = ix) ∧
    (∀ r ∈ ix.roots, ∀ a, ix.AnswersNo (.blame r a) ↔ a = r ∨ a ∈ ix.roots) ∧
    (∀ r ∈ ix.roots, ∀ a ∉ ix.roots,
      ∃ ix', ix.blame r a = .ok (ix', .recorded) ∧ ix.AddsEdge r a ix') := by
  intro ix
  have h : ix.Sound := sound_after calls
  refine ⟨fun w e => h.perform_refused_iff, h.perform_lift, ?_, fun r hr a => answersNo_blame_iff hr,
    fun r hr a => blame_addsEdge hr⟩
  rintro w hw (⟨e, he⟩ | hno)
  · exact he.perform_eq.2 hw
  · exact hno.perform_eq

/-- A root with one atom that it forces. -/
def oneEdge : List Call := [.write (.declareRoot 1 ⟨"Cast", none, []⟩), .write (.blame 1 2)]

theorem calls_all_or_nothing_oneEdge :
    let ix := after oneEdge
    let refused := (Write.declareRoot 2 ⟨"Cast", none, []⟩).perform ix
    refused = (ix, some (.inconsistent ⟨2, .indirectAsRoot⟩)) ∧ ix.AnswersNo (.blame 1 1) ∧
    ∃ ix', ix.blame 1 3 = .ok (ix', .recorded) ∧ ix.AddsEdge 1 3 ix' := by
  intro ix refused
  obtain ⟨hrefused, -, hkept, hno, hadds⟩ := calls_all_or_nothing oneEdge
  have hindirect : ix.Refuses (.declareRoot 2 ⟨"Cast", none, []⟩) (.inconsistent ⟨2, .indirectAsRoot⟩) :=
    .root (by decide)
  have hroot : 1 ∈ ix.roots := by decide
  have hsame : refused.1 = ix := hkept _ trivial (.inl ⟨_, hindirect⟩)
  exact ⟨Prod.ext hsame ((hrefused _ _).2 hindirect), (hno 1 hroot 1).2 (.inl rfl),
    hadds 1 hroot 3 (by decide)⟩

end Index

end Blame
