import Blame.Proofs.Stages

/-!
# How a load can fail

Every reader of a record refuses a value that is wrong with the place where it stands, except that the parts
of the id of a pointer variable are looked at only when the id is compared: a list or an object among them
cannot be, and no place is given then. The index refuses what contradicts it, and a classifier may have no
answer. `load_error_cases` says that nothing else ends a load early.
-/

namespace Blame.Snapshot

/-- A value is wrong at some place. -/
inductive Fault.IsMalformed : Fault → Prop
  | intro (place : Text) (what : Malformed) : IsMalformed (.malformed place what)

/-- A value is a list or an object, and this is what a message says of it. -/
inductive Nested : Json → Unhashable → Prop
  | list (items : List Json) : Nested (.list items) ⟨"list"⟩
  | obj (members : Members) : Nested (.obj members) ⟨"dict"⟩

/-- A record of a pointer variable that has a level, and the id of which is a list with a list or an object
in it. -/
def HasNestedId (v : Json) (u : Unhashable) : Prop :=
  ∃ members parts a levels, v = .obj members ∧
    Json.member? "id" members = some (.list parts) ∧ (∃ w ∈ parts, Nested w u) ∧
    Json.member? "atoms" members = some (.list (.int a :: levels))

/-- The errors that can end a load of a document. -/
inductive EndsLoad {σ : Type} (c : Classifier σ) (members : Members) : LoadError → Prop
  | malformed (place : Text) (what : Malformed) : EndsLoad c members (.fault (.malformed place what))
  | inconsistent (i : Inconsistency) : EndsLoad c members (.inconsistent i)
  | unhashable {records : List Json} {v : Json} {u : Unhashable}
      (hrecords : Json.member? "pointers" members = some (.list records)) (hv : v ∈ records)
      (hid : HasNestedId v u) : EndsLoad c members (.fault (.unhashable u))
  | unclassifiable {memory : σ} {a : Atom} {l : Location} {u : Unclassifiable}
      (hplace : (Document.ofMembers members).places.find? a = some (some l)) (hl : l.valid = true)
      (hask : c.ask memory l.file = .error u) : EndsLoad c members (.unclassifiable u)

/-! ### Values -/

/-- If there is no value, then because one is wrong. -/
def Checked {α : Type} (r : Except Fault α) : Prop := ∀ f, r = .error f → f.IsMalformed

section
variable {α β : Type}

theorem checked_ok (a : α) : Checked (.ok a) := fun _ h => by cases h

theorem checked_malformed (place : Text) (what : Malformed) : Checked (α := α) (malformed place what) :=
  fun _ h => by
    cases h
    exact .intro place what

theorem Checked.bind {r : Except Fault α} {k : α → Except Fault β} (hr : Checked r)
    (hk : ∀ a, Checked (k a)) : Checked (r >>= k) := by
  cases r with
  | error f =>
    intro g hg
    cases hg
    exact hr f rfl
  | ok a => exact hk a

theorem exists_of_bind_eq_ok {r : Except Fault α} {k : α → Except Fault β} {b : β} (h : r >>= k = .ok b) :
    ∃ a, r = .ok a ∧ k a = .ok b := by
  cases r with
  | error f => cases h
  | ok a => exact ⟨a, rfl, h⟩

end

theorem readRecord_eq_ok {place : Text} {v : Json} {members : Members} (h : readRecord place v = .ok members) :
    v = .obj members := by
  cases v with
  | obj m =>
    cases h
    rfl
  | _ => cases h

section
variable (place : Text)

theorem checked_readAtom (v : Json) : Checked (readAtom place v) := by
  unfold readAtom
  split
  · exact checked_ok _
  · exact checked_malformed _ _

theorem checked_readRecord (v : Json) : Checked (readRecord place v) := by
  unfold readRecord
  split
  · exact checked_ok _
  · exact checked_malformed _ _

theorem checked_readReason (v : Json) : Checked (readReason place v) := by
  unfold readReason
  split
  · split
    · exact checked_malformed _ _
    · exact checked_ok _
  · exact checked_malformed _ _

theorem checked_readLocation (v : Json) : Checked (readLocation place v) := by
  unfold readLocation
  split
  · exact checked_ok _
  · split
    · exact checked_ok _
    · exact checked_malformed _ _
  · exact checked_malformed _ _

theorem checked_locationAt (members : Members) : Checked (locationAt place members) :=
  checked_readLocation _ _

theorem checked_listAt (members : Members) (key : Text) (required : Bool) :
    Checked (listAt members key required) := by
  unfold listAt
  split
  · split
    · exact checked_malformed _ _
    · exact checked_ok _
  · exact checked_ok _
  · exact checked_malformed _ _

theorem checked_readNotes (i : Nat) (l : List Json) : Checked (readNotes place i l) := by
  induction l generalizing i with
  | nil => exact checked_ok _
  | cons v rest ih =>
    exact (checked_readRecord _ v).bind fun members => (checked_locationAt _ members).bind fun _ =>
      (ih (i + 1)).bind fun _ => checked_ok _

theorem checked_kindAt (members : Members) : Checked (kindAt place members) := by
  unfold kindAt
  split
  · exact checked_ok _
  · dsimp only
    split
    · exact checked_ok _
    · exact checked_malformed _ _

/-! ### Records -/

theorem checked_readRootRecord (v : Json) : Checked (readRootRecord place v) :=
  (checked_readRecord place v).bind fun members => (checked_readAtom _ _).bind fun _ =>
    (checked_readReason _ _).bind fun _ => (checked_locationAt place members).bind fun _ =>
    (checked_listAt members _ _).bind fun _ => (checked_readNotes place _ _).bind fun _ => checked_ok _

theorem checked_readEdge (v : Json) : Checked (readEdge place v) := by
  unfold readEdge
  split
  · exact (checked_readAtom _ _).bind fun _ => (checked_readAtom _ _).bind fun _ => checked_ok _
  · exact checked_malformed _ _

theorem checked_readCastRecord (v : Json) : Checked (readCastRecord place v) :=
  (checked_readRecord place v).bind fun members => (checked_locationAt place members).bind fun _ =>
    checked_ok _

theorem checked_readVoidRecord (v : Json) : Checked (readVoidRecord place v) :=
  (checked_readRecord place v).bind fun members => (checked_locationAt place members).bind fun _ =>
    (checked_kindAt place members).bind fun _ => checked_ok _

end

/-! ### Ids of pointer variables -/

section
variable {u : Unhashable}

theorem nested_of_scalar_error {v : Json} (h : PointerScalar.ofJson? v = .error u) : Nested v u := by
  cases v with
  | list items =>
    cases h
    exact .list items
  | obj members =>
    cases h
    exact .obj members
  | _ => cases h

theorem exists_of_mapM_error {ε α β : Type} {f : α → Except ε β} {l : List α} {e : ε} (h : l.mapM f = .error e) :
    ∃ x ∈ l, f x = .error e := by
  induction l with
  | nil => cases h
  | cons x rest ih =>
    rw [List.mapM_cons] at h
    cases hx : f x with
    | error e' =>
      rw [hx] at h
      cases h
      exact ⟨x, List.mem_cons_self, hx⟩
    | ok y =>
      cases hrest : rest.mapM f with
      | error e' =>
        rw [hx, hrest] at h
        cases h
        obtain ⟨x', hx', he⟩ := ih hrest
        exact ⟨x', List.mem_cons_of_mem x hx', he⟩
      | ok ys =>
        rw [hx, hrest] at h
        cases h

/-- What stands for no id is an object, which a loader refuses by itself, or a list with such a part. -/
theorem nested_of_pointerId_error {id : Json} (h : PointerId.ofJson? id = .error u) :
    (∃ members, id = .obj members) ∨ ∃ parts, id = .list parts ∧ ∃ w ∈ parts, Nested w u := by
  cases id with
  | list parts =>
    refine .inr ⟨parts, rfl, ?_⟩
    rw [PointerId.ofJson?] at h
    cases hm : parts.mapM PointerScalar.ofJson? with
    | error u' =>
      rw [hm] at h
      cases h
      obtain ⟨w, hw, he⟩ := exists_of_mapM_error hm
      exact ⟨w, hw, nested_of_scalar_error he⟩
    | ok ss =>
      rw [hm] at h
      cases h
  | obj members => exact .inl ⟨members, rfl⟩
  | _ => cases h

end

/-! ### Sections -/

/-- Reading a record fails only for a value that is wrong. -/
def Reading.Checked {α : Type} (r : Reading α) : Prop := ∀ f, r.fault = some f → f.IsMalformed

section
variable {α : Type}

theorem Checked.reading {r : Except Fault α} (h : Checked r) : (Reading.ofExcept r).Checked := by
  intro f hf
  cases r with
  | ok a => cases hf
  | error g =>
    cases hf
    exact h f rfl

theorem checked_readAtomRecord (place : Text) (v : Json) : (readAtomRecord place v).Checked := by
  intro f hf
  unfold readAtomRecord at hf
  dsimp only at hf
  split at hf
  · rename_i g hg
    cases hf
    exact ((checked_readRecord place v).bind fun members => (checked_readAtom _ _).bind fun _ =>
      checked_ok _) f hg
  · rename_i members atom _
    split at hf
    · cases hf
    · rename_i g hg
      cases hf
      exact checked_locationAt place members f hg

theorem exists_of_readItems_fault {read : Nat → Json → Reading α} {i : Nat} {l : List Json} {f : Fault}
    (h : (readItems read i l).fault = some f) : ∃ j, ∃ v ∈ l, (read j v).fault = some f := by
  induction l generalizing i with
  | nil => cases h
  | cons v rest ih =>
    unfold readItems at h
    dsimp only at h
    split at h
    · rename_i g hg
      exact ⟨i, v, List.mem_cons_self, hg.trans h⟩
    · obtain ⟨j, w, hw, hf⟩ := ih h
      exact ⟨j, w, List.mem_cons_of_mem v hw, hf⟩

section
variable {members : Members} {key : Text} {required : Bool} {read : Text → Json → Reading α} {f : Fault}

theorem member?_of_mem_listAt {items : List Json} {v : Json} (h : listAt members key required = .ok items)
    (hv : v ∈ items) : Json.member? key members = some (.list items) := by
  unfold listAt at h
  split at h
  · split at h
    · cases h
    · cases h
      cases hv
  · rename_i hm
    cases h
    exact hm
  · cases h

theorem exists_of_readSection_fault (h : (readSection members key required read).fault = some f) :
    f.IsMalformed ∨ ∃ items, Json.member? key members = some (.list items) ∧
      ∃ place, ∃ v ∈ items, (read place v).fault = some f := by
  rw [readSection] at h
  cases hl : listAt members key required with
  | error g =>
    rw [hl] at h
    cases h
    exact .inl (checked_listAt members key required f hl)
  | ok items =>
    rw [hl] at h
    obtain ⟨j, v, hv, hf⟩ := exists_of_readItems_fault h
    exact .inr ⟨items, member?_of_mem_listAt hl hv, _, v, hv, hf⟩

theorem isMalformed_of_readSection (hread : ∀ place v, (read place v).Checked)
    (h : (readSection members key required read).fault = some f) : f.IsMalformed := by
  rcases exists_of_readSection_fault h with hf | ⟨_, _, place, v, _, hf⟩
  · exact hf
  · exact hread place v f hf

end

end

section
variable {place : Text} {items : List Json} {i : Nat}

theorem isMalformed_of_levels {f : Fault}
    (h : (readItems (fun i w => .ofExcept (readAtom (itemPlace place i) w)) i items).fault = some f) :
    f.IsMalformed :=
  let ⟨_, _, _, hf⟩ := exists_of_readItems_fault h
  (checked_readAtom _ _).reading f hf

theorem exists_cons_of_levels
    (h : (readItems (fun i w => .ofExcept (readAtom (itemPlace place i) w)) i items).records.isEmpty = false) :
    ∃ a rest, items = .int a :: rest := by
  cases items with
  | nil => cases h
  | cons w rest =>
    cases w with
    | int a => exact ⟨a, rest, rfl⟩
    | _ => cases h

end

/-- What a record of a pointer variable consists of: an id, which is no object, and a list of levels. -/
inductive PointerParts : Json → Json → List Json → Prop
  | intro {members : Members} {id : Json} {items : List Json} (hid : Json.member? "id" members = some id)
      (hobj : ∀ m, id ≠ .obj m) (hitems : listAt members "atoms" false = .ok items) :
      PointerParts (.obj members) id items

/-- The levels of a pointer variable that is recorded at a place. -/
abbrev readLevels (place : Text) (items : List Json) : Section Atom :=
  readItems (fun i w => .ofExcept (readAtom (itemPlace (place ++ ".atoms") i) w)) 0 items

namespace PointerParts
variable {place : Text} {v id : Json} {items : List Json}

theorem read_ok {p : PointerId} (h : PointerParts v id items) (hp : PointerId.ofJson? id = .ok p) :
    readPointerRecord place v =
      { record := some ⟨p, (readLevels place items).records⟩, fault := (readLevels place items).fault } := by
  obtain ⟨hid, hobj, hitems⟩ := h
  unfold readPointerRecord
  dsimp only [readRecord, bind, Except.bind]
  rw [hid]
  cases id with
  | obj m => exact absurd rfl (hobj m)
  | _ => simp only [hitems, pure, Except.pure, hp]

theorem read_error {u : Unhashable} (h : PointerParts v id items) (hu : PointerId.ofJson? id = .error u) :
    readPointerRecord place v =
      if (readLevels place items).records.isEmpty then { fault := (readLevels place items).fault }
      else { fault := some (.unhashable u) } := by
  obtain ⟨hid, hobj, hitems⟩ := h
  unfold readPointerRecord
  dsimp only [readRecord, bind, Except.bind]
  rw [hid]
  cases id with
  | obj m => exact absurd rfl (hobj m)
  | _ => simp only [hitems, pure, Except.pure, hu]

end PointerParts

theorem malformed_or_parts (place : Text) (v : Json) :
    (∃ f, f.IsMalformed ∧ readPointerRecord place v = { fault := some f }) ∨
    ∃ id items, PointerParts v id items := by
  cases v with
  | obj members =>
    cases hid : Json.member? "id" members with
    | none =>
      refine .inl ⟨_, .intro place .noPointerId, ?_⟩
      unfold readPointerRecord
      dsimp only [readRecord, bind, Except.bind]
      rw [hid]
      rfl
    | some id =>
      by_cases hobj : ∃ m, id = .obj m
      · obtain ⟨m, rfl⟩ := hobj
        refine .inl ⟨_, .intro (place ++ ".id") .objectAsPointerId, ?_⟩
        unfold readPointerRecord
        dsimp only [readRecord, bind, Except.bind]
        rw [hid]
        rfl
      · have hobj' : ∀ m, id ≠ .obj m := fun m hm => hobj ⟨m, hm⟩
        cases hitems : listAt members "atoms" false with
        | ok items => exact .inr ⟨id, items, hid, hobj', hitems⟩
        | error f =>
          refine .inl ⟨f, checked_listAt members "atoms" false f hitems, ?_⟩
          unfold readPointerRecord
          dsimp only [readRecord, bind, Except.bind]
          rw [hid]
          cases id with
          | obj m => exact absurd rfl (hobj' m)
          | _ => simp only [hitems]
  | _ => exact .inl ⟨_, .intro place _, rfl⟩

theorem readPointerRecord_fault {place : Text} {v : Json} {f : Fault}
    (h : (readPointerRecord place v).fault = some f) :
    f.IsMalformed ∨ ∃ u, f = .unhashable u ∧ HasNestedId v u := by
  obtain ⟨g, hg, ho⟩ | ⟨id, items, hparts⟩ := malformed_or_parts place v
  · rw [ho] at h
    cases h
    exact .inl hg
  -- what remains are the levels one by one and the parts of the id
  · cases hid : PointerId.ofJson? id with
    | ok p =>
      rw [hparts.read_ok hid] at h
      exact .inl (isMalformed_of_levels h)
    | error u =>
      rw [hparts.read_error hid] at h
      split at h
      · exact .inl (isMalformed_of_levels h)
      · rename_i hlevels
        cases h
        obtain ⟨a, rest, rfl⟩ := exists_cons_of_levels (Bool.eq_false_iff.2 hlevels)
        obtain ⟨hm, hobj, hitems⟩ := hparts
        obtain ⟨m, hm'⟩ | ⟨parts, rfl, hn⟩ := nested_of_pointerId_error hid
        · exact absurd hm' (hobj m)
        · exact .inr ⟨u, rfl, _, parts, a, rest, rfl, hm, hn, member?_of_mem_listAt hitems List.mem_cons_self⟩

theorem isMalformed_of_readCounts {members : Members} {f : Fault} (h : (readCounts members).fault = some f) :
    f.IsMalformed := by
  induction members with
  | nil => cases h
  | cons e rest ih =>
    rw [readCounts] at h
    split at h
    · exact ih h
    · split at h
      · exact ih h
      · rename_i g hg
        cases h
        exact checked_readAtom _ _ f hg

theorem isMalformed_of_readCountSection {members : Members} {f : Fault}
    (h : (readCountSection members).fault = some f) : f.IsMalformed := by
  unfold readCountSection at h
  split at h
  · cases h
  · exact isMalformed_of_readCounts h
  · cases h
    exact .intro _ _

/-! ### Stages -/

theorem exists_of_classify_eq_error {σ : Type} {c : Classifier σ} {memory : σ} {ix : Index}
    {a : Atom} {l : Option Location} {u : Unclassifiable} (h : (ix.classify c memory a l).inSource = .error u) :
    ∃ l', l = some l' ∧ l'.valid = true ∧ c.ask memory l'.file = .error u := by
  have hask : Index.askInSource c memory l = .error u := by
    rw [Index.classify] at h
    split at h
    · rename_i u' hu
      cases h
      exact hu
    · cases h
  cases l with
  | none => cases hask
  | some l' =>
    rw [Index.askInSource] at hask
    split at hask
    · rename_i hl
      exact ⟨l', rfl, hl, hask⟩
    · cases hask

open Stage

namespace Stage

variable {σ : Type} {E : LoadError → Prop}

/-- Wherever the stage starts, an error it ends with is in `E`. -/
abbrev FailsIn (E : LoadError → Prop) (f : Stage σ) : Prop := f.Meets (fun _ => True) (fun _ => True) E

theorem failsIn_ofSection {α : Type} {step : Index → α → Except Inconsistency (Index × List LogLine)}
    {s : Section α} (hi : ∀ i, E (.inconsistent i)) (hs : ∀ f, s.fault = some f → E (.fault f)) :
    (ofSection (σ := σ) step s).FailsIn E := by
  refine Meets.andThen (meets_each (fun _ _ => True) fun _ x _ ix _ _ => ?_) (meets_stopAt_of_fault hs)
  cases ho : step ix x with
  | error i => exact .inl ⟨i, rfl, hi i⟩
  | ok r => exact .inr ⟨r.1, r.2, rfl, trivial⟩

theorem failsIn_liftStage (hi : ∀ i, E (.inconsistent i)) (listsPointers : Bool) :
    (liftStage (σ := σ) listsPointers).FailsIn E := by
  intro p _
  cases listsPointers with
  | false => trivial
  | true =>
    rcases ho : p.index.lift with ⟨ix, i | n⟩
    · simpa [liftStage, ho] using hi i
    · simp [liftStage, ho]

theorem failsIn_settleAtoms {c : Classifier σ} {places : AtomTable (Option Location)}
    (h : ∀ memory a l u, places.find? a = some (some l) → l.valid = true → c.ask memory l.file = .error u →
      E (.unclassifiable u)) (l : List Atom) : (settleAtoms c places l).FailsIn E := by
  induction l with
  | nil => exact fun _ _ => trivial
  | cons a rest ih =>
    intro p _
    rw [settleAtoms]
    cases ho : (p.index.classify c p.memory a (places.find? a).join).inSource with
    | ok b => exact ih _ trivial
    | error u =>
      obtain ⟨l, hl, hvalid, hask⟩ := exists_of_classify_eq_error ho
      exact h p.memory a l u (Option.join_eq_some_iff.1 hl) hvalid hask

end Stage

section
variable {σ : Type} (c : Classifier σ) (members : Members)

/-- Only the section of pointer variables has values that are looked at before they are known to be right. -/
theorem failsIn_stages : (stages c (Document.ofMembers members)).FailsIn (EndsLoad c members) := by
  have hm : ∀ f : Fault, f.IsMalformed → EndsLoad c members (.fault f) := by
    rintro _ ⟨place, what⟩
    exact .malformed place what
  have hread : ∀ {α : Type} {key : Text} {required : Bool} {read : Text → Json → Reading α},
      (∀ place v, (read place v).Checked) →
      ∀ f, (readSection members key required read).fault = some f → EndsLoad c members (.fault f) :=
    fun h f hf => hm f (isMalformed_of_readSection h hf)
  have hpointers : ∀ f, (readSection members "pointers" false readPointerRecord).fault = some f →
      EndsLoad c members (.fault f) := by
    intro f hf
    rcases exists_of_readSection_fault hf with hf | ⟨records, hrecords, place, v, hv, hf⟩
    · exact hm f hf
    · rcases readPointerRecord_fault hf with hf | ⟨u, rfl, hid⟩
      · exact hm f hf
      · exact .unhashable hrecords hv hid
  have hsettle : (settleStage c (Document.ofMembers members).places).FailsIn (EndsLoad c members) :=
    fun p => failsIn_settleAtoms (fun _ _ _ _ => .unclassifiable) _ p
  have hfill : (fillStage (σ := σ) (Document.ofMembers members).places).FailsIn (EndsLoad c members) :=
    fun _ _ => trivial
  exact (failsIn_ofSection .inconsistent (hread checked_readAtomRecord)).andThen <|
    (failsIn_ofSection .inconsistent (hread fun p v => (checked_readRootRecord p v).reading)).andThen <|
    (failsIn_ofSection .inconsistent (hread fun p v => (checked_readEdge p v).reading)).andThen <|
    (meets_say _).andThen <|
    (failsIn_ofSection .inconsistent (hread fun p v => (checked_readAtom p v).reading)).andThen <|
    (failsIn_ofSection .inconsistent hpointers).andThen <|
    (failsIn_liftStage .inconsistent _).andThen <| hsettle.andThen <| hfill.andThen <|
    (meets_stopAt_of_fault (hread fun p v => (checked_readCastRecord p v).reading)).andThen <|
    (meets_stopAt_of_fault (hread fun p v => (checked_readVoidRecord p v).reading)).andThen <|
    (meets_say _).andThen <|
    (meets_stopAt_of_fault fun f hf => hm f (isMalformed_of_readCountSection hf)).andThen <| meets_say _

/-- A load goes through or fails in one of these ways, whatever the document holds. -/
theorem load_error_cases (memory : σ) (ix : Index) :
    let l := load c memory ix (Document.ofMembers members)
    l.error = none ∨ ∃ e, l.error = some e ∧ EndsLoad c members e := by
  intro l
  cases ho : l.error with
  | none => exact .inl rfl
  | some e => exact .inr ⟨e, rfl, (failsIn_stages c members).of_load_error trivial ho⟩

end

/-- A list in the id of a pointer variable with a level is met only when the id is compared. -/
theorem load_nestedId :
    (load (Classifier.ofPred fun _ => true) () {} (Document.ofMembers [("roots", .list []),
      ("pointers", .list [.obj [("id", .list [.list [.str "f"]]), ("atoms", .list [.int 1])]])])).error =
      some (.fault (.unhashable ⟨"list"⟩)) := by
  rfl

end Blame.Snapshot
