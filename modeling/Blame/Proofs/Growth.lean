import Blame.Proofs.Calls

/-!
# Relations only grow

No call but `clear` takes anything out of the roots, the indirect atoms or a relation, and a relation to
which nothing new is added is left as it is, entry for entry (`Grown`). So two indexes of one run whose
relations hold between the same things have the same relations (`Index.Grows`).
-/

namespace Blame

/-- A value that the default does not share was there. -/
theorem eq_some_getD {α : Type} {o : Option α} {d : α} {P : α → Prop} (hd : ¬ P d) (h : P (o.getD d)) :
    o = some (o.getD d) := by
  cases o with
  | none => exact absurd h hd
  | some v => rfl

theorem PointerSet.insert_of_contains {s : PointerSet} {p : PointerId} (h : s.contains p = true) :
    s.insert p = s := by
  have hk : p.key ∈ s.toList.map PointerId.key := of_decide_eq_true h
  cases s
  simp only [insert, appendPointer, if_pos hk]

namespace PointerRelation

theorem insertPointerEntry_of_find? {p : PointerId} {s : AtomSet} {l : List (PointerId × AtomSet)}
    (h : (l.find? fun e => e.1.key = p.key).map Prod.snd = some s) : insertPointerEntry p s l = l := by
  induction l with
  | nil => cases h
  | cons e rest ih =>
    by_cases he : e.1.key = p.key
    · have hs : e.2 = s := by simpa [he] using h
      simp [insertPointerEntry, he, ← hs]
    · have hr : (rest.find? fun e => e.1.key = p.key).map Prod.snd = some s := by simpa [he] using h
      simp [insertPointerEntry, he, ih hr]

theorem add_of_mem {t : PointerRelation} {p : PointerId} {a : Atom} (h : a ∈ t.image p) : t.add p a = t := by
  have hfind : (t.entries.find? fun e => e.1.key = p.key).map Prod.snd = some (t.image p) :=
    eq_some_getD (P := (a ∈ ·)) AtomSet.not_mem_empty h
  have he := insertPointerEntry_of_find? hfind
  rw [← AtomSet.insert_of_mem h] at he
  cases t
  simp only [add, mk.injEq]
  exact he

end PointerRelation

theorem Relation.add_of_mem {t : Relation} {a b : Atom} (h : b ∈ image t a) : add a b t = t := by
  have hfind : AtomTable.find? t a = some (image t a) := eq_some_getD (P := (b ∈ ·)) AtomSet.not_mem_empty h
  rw [add, AtomSet.insert_of_mem h]
  exact AtomTable.insert_of_find? hfind

theorem Index.insert_of_pointersIn {t : AtomTable PointerSet} {a : Atom} {p : PointerId}
    (h : (pointersIn t a).contains p = true) : t.insert a ((pointersIn t a).insert p) = t := by
  have hfind : t.find? a = some (pointersIn t a) :=
    eq_some_getD (P := fun s => s.contains p = true) Bool.false_ne_true h
  rw [PointerSet.insert_of_contains h]
  exact AtomTable.insert_of_find? hfind

/-- The second table holds between all that the first does, and if it holds between nothing more the two
are one. -/
def Grown {T α β : Type} (holds : T → α → β → Prop) (t t' : T) : Prop :=
  (∀ a b, holds t a b → holds t' a b) ∧ ((∀ a b, holds t' a b → holds t a b) → t' = t)

namespace Grown
variable {T α β : Type} {holds : T → α → β → Prop} {t u v : T}

theorem refl (t : T) : Grown holds t t := ⟨fun _ _ h => h, fun _ => rfl⟩

theorem trans (h : Grown holds t u) (k : Grown holds u v) : Grown holds t v := by
  refine ⟨fun a b hab => k.1 a b (h.1 a b hab), fun hback => ?_⟩
  have hvu : v = u := k.2 fun a b hab => h.1 a b (hback a b hab)
  have hut : u = t := h.2 fun a b hab => hback a b (k.1 a b hab)
  rw [hvu, hut]

end Grown

theorem grown_addEdge (t : Relation) (a b : Atom) :
    Grown (fun t a b => b ∈ Relation.image t a) t (Relation.add a b t) := by
  refine ⟨fun x y hy => Relation.mem_image_add.2 (.inr hy), fun hback => ?_⟩
  exact Relation.add_of_mem (hback a b (Relation.mem_image_add.2 (.inl ⟨rfl, rfl⟩)))

theorem grown_insertPointer (t : AtomTable PointerSet) (a : Atom) (p : PointerId) :
    Grown (fun t a p => (Index.pointersIn t a).contains p = true) t
      (t.insert a ((Index.pointersIn t a).insert p)) := by
  refine ⟨fun x q hq => Index.contains_pointersIn_insert.2 (.inr hq), fun hback => ?_⟩
  exact Index.insert_of_pointersIn (hback a p (Index.contains_pointersIn_insert.2 (.inl ⟨rfl, rfl⟩)))

theorem grown_addPointer (t : PointerRelation) (p : PointerId) (a : Atom) :
    Grown (fun t p a => a ∈ PointerRelation.image t p) t (t.add p a) := by
  refine ⟨fun q x hx => Index.mem_image_addPointer.2 (.inr hx), fun hback => ?_⟩
  exact PointerRelation.add_of_mem (hback p a (Index.mem_image_addPointer.2 (.inl ⟨rfl, rfl⟩)))

/-- The second index comes from the first without anything being taken out. -/
structure Index.Grows (ix ix' : Index) : Prop where
  roots : ∀ a ∈ ix.roots, a ∈ ix'.roots
  indirect : ∀ a ∈ ix.indirect, a ∈ ix'.indirect
  effects : Grown (fun t r a => a ∈ Relation.image t r) ix.effects ix'.effects
  causes : Grown (fun t a r => r ∈ Relation.image t a) ix.causes ix'.causes
  members : Grown (fun t a p => (pointersIn t a).contains p = true) ix.members ix'.members
  pointerEffects : Grown (fun t r p => (pointersIn t r).contains p = true) ix.pointerEffects ix'.pointerEffects
  pointerCauses : Grown (fun t p r => r ∈ PointerRelation.image t p) ix.pointerCauses ix'.pointerCauses

namespace Index
variable {ix ix' : Index}

instance : IsPreorder Index Grows where
  refl _ := ⟨fun _ h => h, fun _ h => h, .refl _, .refl _, .refl _, .refl _, .refl _⟩
  trans _ _ _ h k := {
    roots := fun a ha => k.roots a (h.roots a ha)
    indirect := fun a ha => k.indirect a (h.indirect a ha)
    effects := h.effects.trans k.effects
    causes := h.causes.trans k.causes
    members := h.members.trans k.members
    pointerEffects := h.pointerEffects.trans k.pointerEffects
    pointerCauses := h.pointerCauses.trans k.pointerCauses }

theorem grows_refl (ix : Index) : Grows ix ix := refl_of Grows ix

theorem grows_aside (ix : Index) (locations : AtomTable Location) (names : AtomTable Text) (R I : AtomSet) :
    Grows ix { ix with locations, names, rootsInSource := R, indirectInSource := I } :=
  { grows_refl ix with }

theorem grows_declareRoot {a : Atom} {d : Diagnostic} (h : ix.declareRoot a d = .ok ix') : Grows ix ix' := by
  rcases ix.declareRoot_cases a d with ⟨-, ho⟩ | ⟨-, ho⟩ <;> rw [ho] at h <;> cases h
  exact { grows_refl ix with roots := fun b hb => mem_roots_insert.2 (.inr hb) }

theorem grows_declareIndirect {a : Atom} {new : Bool} (h : ix.declareIndirect a = .ok (ix', new)) :
    Grows ix ix' := by
  rcases ix.declareIndirect_cases a with ⟨-, ho⟩ | ⟨-, ho⟩ <;> rw [ho] at h <;> cases h
  exact { grows_refl ix with indirect := fun b hb => AtomSet.mem_insert.2 (.inr hb) }

theorem grows_blame {r a : Atom} {fate : EdgeFate} (h : ix.blame r a = .ok (ix', fate)) : Grows ix ix' := by
  rcases ix.blame_cases r a with ⟨-, ho⟩ | ⟨-, -, _, -, ho⟩ | ⟨-, -, ho⟩ <;> rw [ho] at h <;> cases h
  · exact grows_refl ix
  · exact { grows_refl ix with
      indirect := fun b hb => AtomSet.mem_insert.2 (.inr hb)
      effects := grown_addEdge ix.effects r a
      causes := grown_addEdge ix.causes a r }

theorem grows_join (a : Atom) (p : PointerId) : Grows ix (ix.join a p) :=
  { grows_refl ix with members := grown_insertPointer ix.members a p }

theorem grows_blamePointer {r : Atom} {p : PointerId} {new : Bool}
    (h : ix.blamePointer r p = .ok (ix', new)) : Grows ix ix' := by
  rcases ix.blamePointer_cases r p with ⟨-, ho⟩ | ⟨-, -, ho⟩ | ⟨-, -, ho⟩ <;> rw [ho] at h <;> cases h
  · exact grows_refl ix
  · exact { grows_refl ix with
      pointerEffects := grown_insertPointer ix.pointerEffects r p
      pointerCauses := grown_addPointer ix.pointerCauses p r }

theorem grows_blamePointers (n : Nat) (l : List (Atom × PointerId)) : Grows ix (ix.blamePointers n l).1 := by
  induction l generalizing ix n with
  | nil => exact grows_refl ix
  | cons e rest ih =>
    rw [blamePointers]
    split
    · rename_i ix₁ new ho
      exact trans_of Grows (grows_blamePointer ho) (ih _)
    · exact grows_refl ix

theorem grows_locate (a : Atom) (l : Option Location) : Grows ix (ix.locate a l) := by
  obtain ⟨locations, ho, -⟩ := ix.locate_eq a l
  rw [ho]
  exact grows_aside ix _ _ _ _

theorem grows_fileInSource (a : Atom) (inSource : Bool) : Grows ix (ix.fileInSource a inSource) := by
  rcases ix.fileInSource_cases a inSource with ⟨-, ho⟩ | ⟨-, -, ho⟩ | ⟨-, -, ho⟩ <;> rw [ho]
  · exact grows_aside ix _ _ _ _
  · exact grows_aside ix _ _ _ _
  · exact grows_refl ix

theorem grows_classify {σ : Type} (c : Classifier σ) (memory : σ) (a : Atom) (l : Option Location) :
    Grows ix (ix.classify c memory a l).index := by
  rw [classify]
  split
  · exact grows_locate a l
  · exact trans_of Grows (grows_locate a l) (grows_fileInSource a _)

theorem grows_answered {α : Type} {f : α → Index} {o : Except Inconsistency α}
    (h : ∀ x, o = .ok x → Grows ix (f x)) : Grows ix (ix.answered f o).1 := by
  cases o with
  | ok x => exact h x rfl
  | error i => exact grows_refl ix

end Index

open Index

theorem Write.perform_grows (ix : Index) (w : Write) : Grows ix (w.perform ix).1 := by
  cases w with
  | declareRoot a d => exact grows_answered fun _ => grows_declareRoot
  | declareIndirect a => exact grows_answered fun _ => grows_declareIndirect
  | blame r a => exact grows_answered fun _ => grows_blame
  | locate a l => exact grows_locate a l
  | rename a name => exact grows_aside ix _ _ _ _
  | classify c memory a l => exact grows_classify c memory a l
  | join a id =>
    rw [Write.perform]
    split
    · exact grows_join a _
    · exact grows_refl ix
  | blamePointer r id =>
    rw [Write.perform]
    split
    · exact grows_refl ix
    · split
      · exact grows_answered fun _ => grows_blamePointer
      · exact grows_refl ix
  | lift =>
    rw [Write.perform_lift]
    exact grows_blamePointers 0 _

theorem Writes.grows {ix ix' : Index} (h : Writes ix ix') : Grows ix ix' := by
  induction h with
  | refl => exact grows_refl ix
  | tail _ hw ih =>
    obtain ⟨w, rfl⟩ := hw
    exact trans_of Grows ih (w.perform_grows _)

/-- Wherever the load ends. -/
theorem Snapshot.load_grows {σ : Type} (c : Classifier σ) (memory : σ) (ix : Index) (d : Document) :
    Grows ix (load c memory ix d).progress.index :=
  (load_writes c memory ix d).grows

end Blame
