import Blame.Snapshot.Load
import Mathlib.Order.Defs.Unbundled

/-!
# Speaking of stages

Three ways to say what a stage of a load does. `Within R` is about every way in which it can end, in the
middle of a section too: how the index it leaves is related to the one it found. `Meets P f Q E` is about
what it comes to: from an index with `P`, to one with `Q` or to an error in `E`. `Coupled R f g` compares
two runs. All are carried over `andThen`, and for a section the first two follow from what one record does.
-/

namespace Blame.Snapshot.Stage

variable {σ α : Type} {f g : Stage σ} {step : Index → α → Except Inconsistency (Index × List LogLine)}

theorem andThen_assoc (f g h : Stage σ) : (f.andThen g).andThen h = f.andThen (g.andThen h) := by
  funext p
  unfold andThen
  rcases f p with ⟨q, _ | e⟩ <;> rfl

theorem andThen_eq_none_iff {p q : Progress σ} :
    f.andThen g p = (q, none) ↔ ∃ r, f p = (r, none) ∧ g r = (q, none) := by
  unfold andThen
  rcases f p with ⟨r, _ | e⟩ <;> simp

theorem stopAt_eq_none {fault : Option Fault} {p q : Progress σ} (h : stopAt fault p = (q, none)) :
    fault = none :=
  Option.map_eq_none_iff.1 (congrArg Prod.snd h)

theorem ofSection_eq_none {s : Section α} {p q : Progress σ} (h : ofSection step s p = (q, none)) :
    s.fault = none :=
  let ⟨_, _, hs⟩ := andThen_eq_none_iff.1 h
  stopAt_eq_none hs

/-! ### What becomes of the index -/

/-- However the stage ends, the index it found is related to the one it leaves. -/
def Within (R : Index → Index → Prop) (f : Stage σ) : Prop := ∀ p, R p.index (f p).1.index

section
variable {R : Index → Index → Prop} [IsPreorder Index R]

theorem Within.andThen (hf : f.Within R) (hg : g.Within R) : (f.andThen g).Within R := by
  intro p
  have h := hf p
  unfold Stage.andThen
  rcases ho : f p with ⟨q, _ | e⟩ <;> rw [ho] at h
  · exact trans_of R h (hg q)
  · exact h

theorem within_each {l : List α} (h : ∀ x ∈ l, ∀ ix r, step ix x = .ok r → R ix r.1) :
    (each (σ := σ) step l).Within R := by
  intro p
  induction l generalizing p with
  | nil => exact refl_of R p.index
  | cons x rest ih =>
    have hrest : ∀ y ∈ rest, ∀ ix r, step ix y = .ok r → R ix r.1 :=
      fun y hy => h y (List.mem_cons_of_mem x hy)
    unfold each
    split
    · rename_i ix log ho
      exact trans_of R (h x List.mem_cons_self _ _ ho) (ih hrest { p with index := ix, log := p.log ++ log })
    · exact refl_of R p.index

theorem within_stopAt (fault : Option Fault) : (stopAt (σ := σ) fault).Within R :=
  fun p => refl_of R p.index

/-- Only the records of the section have to keep the relation. -/
theorem within_ofSection_of_mem {s : Section α} (h : ∀ x ∈ s.records, ∀ ix r, step ix x = .ok r → R ix r.1) :
    (ofSection (σ := σ) step s).Within R :=
  (within_each h).andThen (within_stopAt s.fault)

theorem within_ofSection (h : ∀ ix x r, step ix x = .ok r → R ix r.1) (s : Section α) :
    (ofSection (σ := σ) step s).Within R :=
  within_ofSection_of_mem fun x _ ix => h ix x

theorem within_say (lines : Progress σ → List LogLine) : (say lines).Within R := fun p => refl_of R p.index

theorem within_settleAtoms {c : Classifier σ} {places : AtomTable (Option Location)}
    (h : ∀ ix memory a, R ix (ix.classify c memory a (places.find? a).join).index) (l : List Atom) :
    (settleAtoms c places l).Within R := by
  intro p
  induction l generalizing p with
  | nil => exact refl_of R p.index
  | cons a rest ih =>
    have ha := h p.index p.memory a
    unfold settleAtoms
    dsimp only
    split
    · exact trans_of R ha (ih { index := _, memory := _, log := _ })
    · exact ha

theorem within_fillStage {places : AtomTable (Option Location)}
    (h : ∀ e ∈ places.entries, ∀ ix, R ix (fillPlace ix e)) : (fillStage (σ := σ) places).Within R := by
  have hfold : ∀ l : List (Atom × Option Location), (∀ e ∈ l, ∀ ix, R ix (fillPlace ix e)) →
      ∀ ix, R ix (l.foldl fillPlace ix) := by
    intro l hl
    induction l with
    | nil => exact fun ix => refl_of R ix
    | cons e rest ih =>
      intro ix
      exact trans_of R (hl e List.mem_cons_self ix)
        (ih (fun u hu => hl u (List.mem_cons_of_mem e hu)) (fillPlace ix e))
  exact fun p => hfold places.entries h p.index

theorem within_liftStage (h : ∀ ix : Index, R ix ix.lift.1) (listsPointers : Bool) :
    (liftStage (σ := σ) listsPointers).Within R := by
  intro p
  have hl := h p.index
  unfold liftStage
  split
  · exact refl_of R p.index
  · rcases ho : p.index.lift with ⟨ix, _ | _⟩ <;> rwa [ho] at hl

/-- What every step keeps is kept by the whole load, wherever it ends. -/
theorem within_stages {c : Classifier σ} {d : Document}
    (hatom : ∀ r ∈ d.atoms.records, ∀ ix q, applyAtom ix r = .ok q → R ix q.1)
    (hroot : ∀ r ∈ d.roots.records, ∀ ix q, applyRoot ix r = .ok q → R ix q.1)
    (hedge : ∀ r ∈ d.edges.records, ∀ ix q, applyEdge ix r = .ok q → R ix q.1)
    (hindirect : ∀ a ∈ d.indirect.records, ∀ ix q, applyIndirect ix a = .ok q → R ix q.1)
    (hpointer : ∀ r ∈ d.pointers.records, ∀ ix q, applyPointer ix r = .ok q → R ix q.1)
    (hlift : ∀ ix : Index, R ix ix.lift.1)
    (hclassify : ∀ ix memory a, R ix (ix.classify c memory a (d.places.find? a).join).index)
    (hfill : ∀ e ∈ d.places.entries, ∀ ix, R ix (fillPlace ix e)) : (stages c d).Within R :=
  (within_ofSection_of_mem hatom).andThen <|
  (within_ofSection_of_mem hroot).andThen <|
  (within_ofSection_of_mem hedge).andThen <|
  (within_say _).andThen <|
  (within_ofSection_of_mem hindirect).andThen <|
  (within_ofSection_of_mem hpointer).andThen <|
  (within_liftStage hlift _).andThen <|
  Within.andThen (fun p => within_settleAtoms hclassify _ p) <|
  (within_fillStage hfill).andThen <|
  (within_stopAt _).andThen <|
  (within_stopAt _).andThen <|
  (within_say _).andThen <|
  (within_stopAt _).andThen <|
  within_say _

end

/-! ### What a stage comes to -/

/-- From an index with `P` the stage goes through to one with `Q`, or it ends with an error in `E`. -/
def Meets (P : Index → Prop) (f : Stage σ) (Q : Index → Prop) (E : LoadError → Prop) : Prop :=
  ∀ p, P p.index →
    match f p with
    | (q, none) => Q q.index
    | (_, some e) => E e

section
variable {P Q S : Index → Prop} {E : LoadError → Prop}

theorem Meets.andThen (hf : Meets P f Q E) (hg : Meets Q g S E) : Meets P (f.andThen g) S E := by
  intro p hp
  have h := hf p hp
  unfold Stage.andThen
  rcases ho : f p with ⟨q, _ | e⟩ <;> rw [ho] at h
  · exact hg q h
  · exact h

/-- The invariant `inv` speaks of the records applied so far. -/
theorem meets_each (inv : List α → Index → Prop) {l : List α}
    (h : ∀ done x rest ix, l = done ++ x :: rest → inv done ix →
      (∃ i, step ix x = .error i ∧ E (.inconsistent i)) ∨
      ∃ ix' log, step ix x = .ok (ix', log) ∧ inv (done ++ [x]) ix') :
    Meets (σ := σ) (inv []) (each step l) (inv l) E := by
  have hgo : ∀ rest done, l = done ++ rest → Meets (σ := σ) (inv done) (each step rest) (inv l) E := by
    intro rest
    induction rest with
    | nil =>
      intro done hl p hp
      rw [hl, List.append_nil]
      exact hp
    | cons x rest ih =>
      intro done hl p hp
      rcases h done x rest p.index hl hp with ⟨i, ho, hE⟩ | ⟨ix', log, ho, hi⟩ <;> simp only [each, ho]
      · exact hE
      · exact ih (done ++ [x]) (by simp [hl]) _ hi
  exact hgo l [] rfl

theorem Meets.anyError (hf : Meets P f Q E) : Meets P f Q fun _ => True := by
  intro p hp
  have h := hf p hp
  rcases ho : f p with ⟨q, _ | e⟩ <;> rw [ho] at h
  · exact h
  · trivial

/-- What is related to an index with `P` has `Q`, and nothing is said of errors. -/
theorem Within.meets {R : Index → Index → Prop} (hf : f.Within R) (h : ∀ ix ix', P ix → R ix ix' → Q ix') :
    Meets P f Q fun _ => True := by
  intro p hp
  have hq := h p.index _ hp (hf p)
  rcases ho : f p with ⟨q, _ | e⟩ <;> rw [ho] at hq
  · exact hq
  · trivial

theorem meets_stopAt_of_fault {fault : Option Fault} (h : ∀ f, fault = some f → E (.fault f)) :
    Meets (σ := σ) P (stopAt fault) P E := by
  intro p hp
  cases fault with
  | none => exact hp
  | some f => exact h f rfl

theorem meets_stopAt {fault : Option Fault} (h : fault = none) : Meets (σ := σ) P (stopAt fault) P E :=
  meets_stopAt_of_fault fun f hf => by
    rw [h] at hf
    cases hf

theorem meets_ofSection (inv : List α → Index → Prop) {s : Section α} (hs : s.fault = none)
    (h : ∀ done x rest ix, s.records = done ++ x :: rest → inv done ix →
      (∃ i, step ix x = .error i ∧ E (.inconsistent i)) ∨
      ∃ ix' log, step ix x = .ok (ix', log) ∧ inv (done ++ [x]) ix') :
    Meets (σ := σ) (inv []) (ofSection step s) (inv s.records) E :=
  (meets_each inv h).andThen (meets_stopAt hs)

theorem meets_say (lines : Progress σ → List LogLine) : Meets P (say lines) P E := fun _ hp => hp

section
variable {c : Classifier σ} {memory : σ} {ix : Index} {d : Document}

theorem Meets.of_load (h : Meets P (stages c d) Q E) (hp : P ix) (ho : (load c memory ix d).error = none) :
    Q (load c memory ix d).progress.index := by
  have hm := h { index := ix, memory } hp
  rw [load] at ho ⊢
  rcases hs : stages c d { index := ix, memory } with ⟨q, _ | e⟩ <;> rw [hs] at hm ho
  · exact hm
  · cases ho

theorem Meets.of_load_error (h : Meets P (stages c d) Q E) (hp : P ix) {e : LoadError}
    (ho : (load c memory ix d).error = some e) : E e := by
  have hm := h { index := ix, memory } hp
  rw [load] at ho
  rcases hs : stages c d { index := ix, memory } with ⟨q, _ | e'⟩ <;> rw [hs] at hm ho
  · cases ho
  · cases ho
    exact hm

end

end

/-! ### Two runs -/

/-- Begun at indexes that are related, two stages leave indexes that are related, and both go through or
both end with the same error. -/
def Coupled (R : Index → Index → Prop) (f g : Stage σ) : Prop :=
  ∀ p q, R p.index q.index → R (f p).1.index (g q).1.index ∧ (f p).2 = (g q).2

section
variable {R : Index → Index → Prop}

theorem Coupled.andThen {f' g' : Stage σ} (hf : f.Coupled R f') (hg : g.Coupled R g') :
    (f.andThen g).Coupled R (f'.andThen g') := by
  intro p q hpq
  obtain ⟨hR, herr⟩ := hf p q hpq
  unfold Stage.andThen
  rcases hp : f p with ⟨p', _ | e⟩ <;> rcases hq : f' q with ⟨q', _ | e'⟩ <;> rw [hp, hq] at hR herr
  · exact hg p' q' hR
  · cases herr
  · cases herr
  · exact ⟨hR, herr⟩

/-- What comes before the two stages is the same in both runs. -/
theorem Coupled.after [Std.Refl R] {g' : Stage σ} (hg : g.Coupled R g') (f : Stage σ) (p : Progress σ) :
    R (f.andThen g p).1.index (f.andThen g' p).1.index ∧ (f.andThen g p).2 = (f.andThen g' p).2 := by
  unfold Stage.andThen
  rcases f p with ⟨q, _ | e⟩
  · exact hg q q (refl_of R q.index)
  · exact ⟨refl_of R q.index, rfl⟩

theorem coupled_stopAt (fault : Option Fault) : (stopAt (σ := σ) fault).Coupled R (stopAt fault) :=
  fun _ _ h => ⟨h, rfl⟩

theorem coupled_say (lines lines' : Progress σ → List LogLine) : (say lines).Coupled R (say lines') :=
  fun _ _ h => ⟨h, rfl⟩

end

end Blame.Snapshot.Stage
