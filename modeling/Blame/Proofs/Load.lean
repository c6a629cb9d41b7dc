import Blame.Proofs.Recorded

/-!
# What a load comes to

When the sections are through, a load derives the relations of pointer variables, files every WILD atom as
in source or not, and gives the other atoms their locations. `Yields` says what becomes of any sound
index, `Describes` what that is for an empty one: the index that the records describe, and nothing else.
-/

namespace Blame.Snapshot

open Stage

/-- Whether a location counts as in source: it has to be valid, and its file accepted. -/
def inSource (accepts : Text → Bool) (l : Option Location) : Bool :=
  (Location.onlyValid l).any fun l => accepts l.file

section
variable {σ : Type} {accepts : Text → Bool} {places : AtomTable (Option Location)} {ix₀ ix₁ ix : Index}
  {E : LoadError → Prop}

/-! ### Pointer variables -/

/-- The relations of pointer variables are derived if there is reason to, and the index was `ix₁` before. -/
def Lifted (lists : Bool) (ix₁ ix : Index) : Prop :=
  ix.Sound ∧ ∃ pointerEffects pointerCauses, ix = { ix₁ with pointerEffects, pointerCauses } ∧
    ∀ r p, (ix.pointerEffectsOf r).contains p = true ↔ (ix₁.pointerEffectsOf r).contains p = true ∨
      lists = true ∧ ∃ a, r ∈ ix₁.causesOf a ∧ (ix₁.membersOf a).contains p = true

theorem liftStage_lifted (lists : Bool) (p : Progress σ) (h : p.index.Sound) :
    ∃ q, liftStage lists p = (q, none) ∧ Lifted lists p.index q.index := by
  cases lists with
  | false => exact ⟨p, rfl, h, _, _, rfl, by simp⟩
  | true =>
    obtain ⟨pe, pc, n, ho, hspec⟩ := h.lift_spec
    have hs := h.lift
    rw [ho] at hs
    refine ⟨{ p with index := _, log := _ }, by simp only [liftStage, ho]; rfl, hs, pe, pc, rfl, fun r p => ?_⟩
    exact (hspec r p).trans (by simp)

/-! ### Locations and files -/

theorem askInSource_ofPred (memory : Unit) (l : Option Location) :
    Index.askInSource (.ofPred accepts) memory l = .ok ⟨inSource accepts l, (), []⟩ := by
  cases l with
  | none => rfl
  | some l =>
    cases hl : l.valid <;> simp [Index.askInSource, Classifier.ofPred, inSource, Location.onlyValid, hl]

/-- The atoms of a list are located and filed, and the index was `ix₁` before. -/
structure Settled (accepts : Text → Bool) (places : AtomTable (Option Location)) (ix₁ : Index)
    (done : List Atom) (ix : Index) : Prop where
  sound : ix.Sound
  frame : ∃ locations rootsInSource indirectInSource,
    ix = { ix₁ with locations, rootsInSource, indirectInSource }
  location : ∀ a, ix.locationOf a =
    (if a ∈ done then (places.find? a).join else none).or (ix₁.locationOf a)
  rootInSource : ∀ a ∈ done, a ∈ ix.roots →
    (a ∈ ix.rootsInSource ↔ inSource accepts (places.find? a).join = true)
  indirectInSource : ∀ a ∈ done, a ∈ ix.indirect →
    (a ∈ ix.indirectInSource ↔ inSource accepts (places.find? a).join = true)

/-- In a sound index one atom is filed in one of the two sets, and no other atom is touched. -/
theorem fileInSource_eq (h : ix.Sound) (x : Atom) (b : Bool) :
    ∃ R I, ix.fileInSource x b = { ix with rootsInSource := R, indirectInSource := I } ∧
      (∀ a ∈ ix.roots, a ∈ R ↔ if a = x then b = true else a ∈ ix.rootsInSource) ∧
      ∀ a ∈ ix.indirect, a ∈ I ↔ if a = x then b = true else a ∈ ix.indirectInSource := by
  rcases ix.fileInSource_cases x b with ⟨hx, ho⟩ | ⟨hx, -, ho⟩ | ⟨hx, hn, ho⟩
  · have hne : ∀ a ∈ ix.indirect, a ≠ x := fun a ha hax => h.root_not_indirect x hx (hax ▸ ha)
    refine ⟨_, _, ho, fun a _ => Index.mem_setMembership, fun a ha => ?_⟩
    rw [if_neg (hne a ha)]
  · have hne : ∀ a ∈ ix.roots, a ≠ x := fun a ha hax => hx (hax ▸ ha)
    refine ⟨_, _, ho, fun a ha => ?_, fun a _ => Index.mem_setMembership⟩
    rw [if_neg (hne a ha)]
  · have hne : ∀ a ∈ ix.roots, a ≠ x := fun a ha hax => hx (hax ▸ ha)
    have hne' : ∀ a ∈ ix.indirect, a ≠ x := fun a ha hax => hn (hax ▸ ha)
    refine ⟨_, _, ho, fun a ha => ?_, fun a ha => ?_⟩
    · rw [if_neg (hne a ha)]
    · rw [if_neg (hne' a ha)]

theorem Settled.concat {done : List Atom} (h : Settled accepts places ix₁ done ix) (x : Atom) :
    Settled accepts places ix₁ (done ++ [x])
      ((ix.locate x (places.find? x).join).fileInSource x (inSource accepts (places.find? x).join)) := by
  have hlocate := h.sound.locate x (places.find? x).join
  have hsound := hlocate.fileInSource x (inSource accepts (places.find? x).join)
  have hdone : ∀ a ∈ done ++ [x], a ≠ x → a ∈ done := by
    intro a ha hne
    rw [List.mem_append, List.mem_singleton] at ha
    exact ha.resolve_right hne
  obtain ⟨ls, he, hls⟩ := ix.locate_eq x (places.find? x).join
  rw [he] at hlocate hsound ⊢
  obtain ⟨R, I, ho, hR, hI⟩ := fileInSource_eq hlocate x (inSource accepts (places.find? x).join)
  obtain ⟨_, _, _, hf⟩ := h.frame
  rw [ho] at hsound ⊢
  refine ⟨hsound, ⟨_, _, _, by rw [hf]⟩, fun a => ?_, fun a ha hr => ?_, fun a ha hi => ?_⟩
  · refine (hls a).trans ?_
    rw [h.location]
    by_cases hx : x = a
    · subst hx
      by_cases hm : x ∈ done <;> simp [hm, ← Option.or_assoc]
    · by_cases hm : a ∈ done <;> simp [hm, hx, Ne.symm hx]
  · refine (hR a hr).trans ?_
    split
    · rename_i hax
      rw [hax]
    · exact h.rootInSource a (hdone a ha ‹_›) hr
  · refine (hI a hi).trans ?_
    split
    · rename_i hax
      rw [hax]
    · exact h.indirectInSource a (hdone a ha ‹_›) hi

theorem settleAtoms_settled (rest done : List Atom) (p : Progress Unit)
    (h : Settled accepts places ix₁ done p.index) :
    ∃ q, settleAtoms (.ofPred accepts) places rest p = (q, none) ∧
      Settled accepts places ix₁ (done ++ rest) q.index := by
  induction rest generalizing done p with
  | nil => exact ⟨p, rfl, by simpa using h⟩
  | cons x rest ih =>
    simp only [settleAtoms, Index.classify, askInSource_ofPred]
    rw [List.append_cons]
    refine ih (done ++ [x]) _ ?_
    exact h.concat x

theorem settleStage_settled (accepts : Text → Bool) (places : AtomTable (Option Location))
    (p : Progress Unit) (h : p.index.Sound) :
    ∃ q, settleStage (.ofPred accepts) places p = (q, none) ∧
      Settled accepts places p.index (p.index.roots.union p.index.indirect).toList q.index := by
  have hnil : Settled accepts places p.index [] p.index :=
    ⟨h, ⟨_, _, _, rfl⟩, by simp, by simp, by simp⟩
  exact settleAtoms_settled _ [] p hnil

/-- The atoms without a location have that of the table, and the index was `ix₁` before. -/
def Filled (places : AtomTable (Option Location)) (ix₁ ix : Index) : Prop :=
  ix.Sound ∧ ∃ locations, ix = { ix₁ with locations } ∧
    ∀ a, ix.locationOf a = (ix₁.locationOf a).or (places.find? a).join

theorem fillPlace_eq (ix : Index) (e : Atom × Option Location) :
    ∃ locations, fillPlace ix e = { ix with locations } ∧
      ∀ a, locations.find? a = (ix.locationOf a).or (if e.1 = a then e.2 else none) := by
  rw [fillPlace]
  split
  · rename_i hn
    obtain ⟨ls, he, hls⟩ := ix.locate_eq e.1 e.2
    refine ⟨ls, he, fun a => ?_⟩
    rw [hls]
    by_cases ha : e.1 = a
    · subst ha
      simp [Option.isNone_iff_eq_none.1 hn]
    · simp [ha]
  · rename_i hn
    refine ⟨ix.locations, rfl, fun a => ?_⟩
    show ix.locationOf a = _
    by_cases ha : e.1 = a
    · subst ha
      cases hl : ix.locationOf e.1 <;> simp [hl] at hn ⊢
    · simp [ha]

theorem foldl_fillPlace_eq (l : List (Atom × Option Location)) (ix : Index) :
    ∃ locations, l.foldl fillPlace ix = { ix with locations } ∧
      ∀ a, locations.find? a = (ix.locationOf a).or (l.findSome? fun e => if e.1 = a then e.2 else none) := by
  induction l generalizing ix with
  | nil => exact ⟨ix.locations, rfl, fun a => by simp [Index.locationOf]⟩
  | cons e rest ih =>
    obtain ⟨ls, he, hls⟩ := fillPlace_eq ix e
    obtain ⟨ms, hf, hms⟩ := ih { ix with locations := ls }
    refine ⟨ms, by rw [List.foldl_cons, he, hf], fun a => ?_⟩
    rw [hms, Index.locationOf, hls, Option.or_assoc, List.findSome?_cons]
    cases (if e.1 = a then e.2 else none) <;> rfl

/-- A table has one entry for each of its atoms, so the first is the only one. -/
theorem findSome?_entries (t : AtomTable (Option Location)) (a : Atom) :
    (t.entries.findSome? fun e => if e.1 = a then e.2 else none) = (t.find? a).join := by
  have h : ∀ l : List (Atom × Option Location), (l.map Prod.fst).Pairwise (· < ·) →
      (l.findSome? fun e => if e.1 = a then e.2 else none) =
        ((l.find? (·.1 == a)).map Prod.snd).join := by
    intro l hl
    induction l with
    | nil => rfl
    | cons e rest ih =>
      have hl' := List.pairwise_cons.1 hl
      by_cases he : e.1 = a
      · have hrest : (rest.findSome? fun e => if e.1 = a then e.2 else none) = none := by
          rw [List.findSome?_eq_none_iff]
          intro u hu
          have hlt := hl'.1 u.1 (List.mem_map_of_mem hu)
          exact if_neg (Int.ne_of_lt (he ▸ hlt)).symm
        rw [List.findSome?_cons, if_pos he, hrest]
        cases hv : e.2 <;> simp [he, hv]
      · simp [he, ih hl'.2]
  exact h t.entries t.ascending

theorem fillStage_filled (places : AtomTable (Option Location)) (p : Progress σ) (h : p.index.Sound) :
    ∃ q, fillStage places p = (q, none) ∧ Filled places p.index q.index := by
  obtain ⟨ls, he, hls⟩ := foldl_fillPlace_eq places.entries p.index
  refine ⟨{ p with index := { p.index with locations := ls } }, by rw [fillStage, he],
    h.aside _ _ _, ls, rfl, fun a => ?_⟩
  rw [← findSome?_entries]
  exact hls a

/-! ### The whole load -/

/-- What a load of the records makes of an index that was `ix₀` before. -/
structure Yields (accepts : Text → Bool) (ix₀ : Index) (s : Records) (lists : Bool) (ix : Index) : Prop
    extends Recorded ix₀ s ix where
  pointerEffect : ∀ r p, (ix.pointerEffectsOf r).contains p = true ↔
    (ix₀.pointerEffectsOf r).contains p = true ∨
      lists = true ∧ ∃ a, r ∈ ix.causesOf a ∧ (ix.membersOf a).contains p = true
  location : ∀ a, ix.locationOf a =
    if a ∈ ix.roots ∨ a ∈ ix.indirect then (s.place? a).or (ix₀.locationOf a)
    else (ix₀.locationOf a).or (s.place? a)
  rootInSource : ∀ a ∈ ix.roots, (a ∈ ix.rootsInSource ↔ inSource accepts (s.place? a) = true)
  indirectInSource : ∀ a ∈ ix.indirect, (a ∈ ix.indirectInSource ↔ inSource accepts (s.place? a) = true)

theorem Underway.yields {d : Document} {lists : Bool} {ix₂ ix₃ : Index} (h : Underway ix₀ d.records ix₁)
    (hl : Lifted lists ix₁ ix₂)
    (hs : Settled accepts d.places ix₂ (ix₂.roots.union ix₂.indirect).toList ix₃)
    (hf : Filled d.places ix₃ ix) : Yields accepts ix₀ d.records lists ix := by
  obtain ⟨h, hloc₀, -, -, hpe₀, -⟩ := h
  obtain ⟨-, pe, pc, rfl, hpe⟩ := hl
  obtain ⟨-, ⟨ls, R, I, rfl⟩, hloc, hroot, hindirect⟩ := hs
  obtain ⟨hsound, ms, rfl, hms⟩ := hf
  simp only [← AtomSet.mem_iff, AtomSet.mem_union, Document.find?_places] at hloc hroot hindirect hms
  exact { h with
    sound := hsound
    pointerEffect := fun r p => by
      have hold : ix₁.pointerEffectsOf r = ix₀.pointerEffectsOf r := by
        rw [Index.pointerEffectsOf, hpe₀]
        rfl
      rw [← hold]
      exact hpe r p
    location := fun a => by
      have hold : ix₁.locationOf a = ix₀.locationOf a := by
        rw [Index.locationOf, hloc₀]
        rfl
      refine (hms a).trans ?_
      rw [hloc, ← hold]
      show Option.or (Option.or (if a ∈ ix₁.roots ∨ a ∈ ix₁.indirect then _ else _) (ix₁.locationOf a)) _ =
        if a ∈ ix₁.roots ∨ a ∈ ix₁.indirect then _ else _
      split
      · cases d.records.place? a <;> simp
      · simp
    rootInSource := fun a ha => hroot a (.inl ha) ha
    indirectInSource := fun a ha => hindirect a (.inr ha) ha }

theorem meets_ending (d : Document) :
    Meets (Underway ix₀ d.records)
      (((liftStage d.listsPointers).andThen (settleStage (.ofPred accepts) d.places)).andThen
        (fillStage d.places))
      (Yields accepts ix₀ d.records d.listsPointers) E := by
  intro p h
  obtain ⟨q₁, h₁, hl⟩ := liftStage_lifted d.listsPointers p h.sound
  obtain ⟨q₂, h₂, hs⟩ := settleStage_settled accepts d.places q₁ hl.1
  obtain ⟨q₃, h₃, hf⟩ := fillStage_filled d.places q₂ hs.sound
  simp only [andThen, h₁, h₂, h₃]
  exact h.yields hl hs hf

theorem meets_stages (accepts : Text → Bool) {d : Document} (hd : d.WellFormed) :
    Meets (Underway ix₀ {}) (stages (.ofPred accepts) d) (Yields accepts ix₀ d.records d.listsPointers)
      (Refused ix₀ d.records) := by
  refine (meets_atoms hd.atoms).andThen <| (meets_roots hd.roots).andThen <|
    (meets_edges hd.edges).andThen <| (meets_say _).andThen <|
    (meets_indirect hd.indirect).andThen <| (meets_pointers hd.pointers).andThen ?_
  rw [← andThen_assoc, ← andThen_assoc]
  exact (meets_ending d).andThen <| (meets_stopAt hd.casts).andThen <| (meets_stopAt hd.voids).andThen <|
    (meets_say _).andThen <| (meets_stopAt hd.counts).andThen <| meets_say _

/-- A load into a sound index is refused for a contradiction, or it goes through to what the records make
of the index. -/
theorem load_yields (accepts : Text → Bool) {d : Document} (h : ix₀.Sound) (hd : d.WellFormed) :
    let l := load (.ofPred accepts) () ix₀ d
    (d.records.Contradict ix₀ ∧ ∃ i, l.error = some (.inconsistent i)) ∨
    (l.error = none ∧ Yields accepts ix₀ d.records d.listsPointers l.progress.index) := by
  have hm := meets_stages accepts hd { index := ix₀, memory := () }
    ⟨recorded_nil h, rfl, rfl, rfl, rfl, rfl⟩
  rw [load]
  rcases ho : stages (.ofPred accepts) d { index := ix₀, memory := () } with ⟨q, _ | e⟩ <;> rw [ho] at hm
  · exact .inr ⟨rfl, hm⟩
  · obtain ⟨hc, i, rfl⟩ := hm
    exact .inl ⟨hc, i, rfl⟩

/-- Each section ends the load at its fault, so a load that went through found none. -/
theorem wellFormed_of_load {c : Classifier σ} {memory : σ} {d : Document}
    (h : (load c memory ix₀ d).error = none) : d.WellFormed := by
  rw [load] at h
  rcases ho : stages c d { index := ix₀, memory } with ⟨q, o⟩
  rw [ho] at h
  replace h : o = none := h
  subst h
  simp only [stages, andThen_eq_none_iff] at ho
  obtain ⟨_, hatoms, _, hroots, _, hedges, _, -, _, hindirect, _, hpointers, _, -, _, -, _, -, _, hcasts,
    _, hvoids, _, -, _, hcounts, -⟩ := ho
  exact {
    atoms := ofSection_eq_none hatoms
    roots := ofSection_eq_none hroots
    edges := ofSection_eq_none hedges
    indirect := ofSection_eq_none hindirect
    pointers := ofSection_eq_none hpointers
    casts := stopAt_eq_none hcasts
    voids := stopAt_eq_none hvoids
    counts := stopAt_eq_none hcounts }

theorem yields_of_load {d : Document} (h : ix₀.Sound) (ho : (load (.ofPred accepts) () ix₀ d).error = none) :
    Yields accepts ix₀ d.records d.listsPointers (load (.ofPred accepts) () ix₀ d).progress.index := by
  rcases load_yields accepts h (wellFormed_of_load ho) with ⟨-, i, hi⟩ | ⟨-, hy⟩
  · rw [ho] at hi
    cases hi
  · exact hy

end

/-! ### An empty index -/

/-- The index that the records describe. -/
structure Describes (accepts : Text → Bool) (s : Records) (ix : Index) : Prop where
  root : ∀ a, a ∈ ix.roots ↔ s.Declares a
  diagnostic : ∀ a, ix.diagnostics.find? a = s.diagnostic? a
  effect : ∀ r a, a ∈ ix.effectsOf r ↔ s.Edge r a
  cause : ∀ r a, r ∈ ix.causesOf a ↔ s.Edge r a
  indirect : ∀ a, a ∈ ix.indirect ↔ (∃ r, s.Edge r a) ∨ a ∈ s.indirect
  member : ∀ a p, (ix.membersOf a).contains p = true ↔ s.Joins a p
  pointerEffect : ∀ r p, (ix.pointerEffectsOf r).contains p = true ↔ s.Explains r p
  pointerCause : ∀ r p, r ∈ ix.pointerCausesOf p ↔ s.Explains r p
  name : ∀ a, ix.names.find? a = s.name? a
  shownName : ∀ a, ix.nameOf a = (s.name? a).getD ("q_" ++ Number.intText a)
  location : ∀ a, ix.locationOf a = s.place? a
  rootInSource : ∀ a, a ∈ ix.rootsInSource ↔ s.Declares a ∧ inSource accepts (s.place? a) = true
  indirectInSource : ∀ a, a ∈ ix.indirectInSource ↔
    ((∃ r, s.Edge r a) ∨ a ∈ s.indirect) ∧ inSource accepts (s.place? a) = true

namespace Yields

variable {accepts : Text → Bool} {s : Records} {lists : Bool} {ix : Index}

theorem root_iff (h : Yields accepts {} s lists ix) (a : Atom) : a ∈ ix.roots ↔ s.Declares a := by
  rw [h.mem_roots]
  exact or_iff_left AtomSet.not_mem_empty

theorem effect_iff (h : Yields accepts {} s lists ix) (r a : Atom) : a ∈ ix.effectsOf r ↔ s.Edge r a := by
  rw [h.effect, h.root_iff]
  exact or_iff_right AtomSet.not_mem_empty

theorem indirect_iff (h : Yields accepts {} s lists ix) (a : Atom) :
    a ∈ ix.indirect ↔ (∃ r, s.Edge r a) ∨ a ∈ s.indirect := by
  simp only [h.indirect a, h.root_iff]
  exact or_iff_right AtomSet.not_mem_empty

theorem member_iff (h : Yields accepts {} s lists ix) (a : Atom) (p : PointerId) :
    (ix.membersOf a).contains p = true ↔ s.Joins a p := by
  rw [h.member]
  exact or_iff_right Bool.false_ne_true

theorem pointerEffect_iff (h : Yields accepts {} s lists ix) (hlists : lists = true ∨ s.pointers = [])
    (r : Atom) (p : PointerId) : (ix.pointerEffectsOf r).contains p = true ↔ s.Explains r p := by
  rw [h.pointerEffect]
  simp only [← h.sound.effect_iff_cause, h.effect_iff, h.member_iff]
  refine (or_iff_right Bool.false_ne_true).trans ⟨And.right, fun he => ⟨?_, he⟩⟩
  -- A level of a pointer variable comes from a record, so the derivation was not left out.
  obtain ⟨a, -, x, hx, -⟩ := he
  exact hlists.resolve_right (List.ne_nil_of_mem hx)

theorem name_eq (h : Yields accepts {} s lists ix) (a : Atom) : ix.names.find? a = s.name? a :=
  (h.name a).trans Option.or_none

theorem location_eq (h : Yields accepts {} s lists ix) (a : Atom) : ix.locationOf a = s.place? a := by
  rw [h.location]
  split
  · exact Option.or_none
  · exact Option.none_or

theorem describes (h : Yields accepts {} s lists ix) (hlists : lists = true ∨ s.pointers = []) :
    Describes accepts s ix where
  root := h.root_iff
  diagnostic a := (h.diagnostic a).trans Option.or_none
  effect := h.effect_iff
  cause r a := (h.sound.effect_iff_cause r a).symm.trans (h.effect_iff r a)
  indirect := h.indirect_iff
  member := h.member_iff
  pointerEffect := h.pointerEffect_iff hlists
  pointerCause r p := (h.sound.pointerEffect_iff_cause r p).symm.trans (h.pointerEffect_iff hlists r p)
  name := h.name_eq
  shownName a := by
    rw [Index.nameOf, h.name_eq]
  location := h.location_eq
  rootInSource a := by
    rw [← h.root_iff]
    refine ⟨fun ha => ?_, fun ⟨hr, hs⟩ => (h.rootInSource a hr).2 hs⟩
    have hr := h.sound.rootsInSource_root a ha
    exact ⟨hr, (h.rootInSource a hr).1 ha⟩
  indirectInSource a := by
    rw [← h.indirect_iff]
    refine ⟨fun ha => ?_, fun ⟨hi, hs⟩ => (h.indirectInSource a hi).2 hs⟩
    have hi := h.sound.indirectInSource_indirect a ha
    exact ⟨hi, (h.indirectInSource a hi).1 ha⟩

end Yields

theorem listsPointers_ofMembers (members : Members) :
    (Document.ofMembers members).listsPointers = true ∨ (Document.ofMembers members).records.pointers = [] := by
  unfold Document.records Document.ofMembers readSection
  dsimp only
  rcases listAt members "pointers" false with f | _ | ⟨v, rest⟩
  · exact .inr rfl
  · exact .inr rfl
  · exact .inl rfl

theorem describes_of_load {accepts : Text → Bool} {members : Members}
    (ho : (load (.ofPred accepts) () {} (Document.ofMembers members)).error = none) :
    Describes accepts (Document.ofMembers members).records
      (load (.ofPred accepts) () {} (Document.ofMembers members)).progress.index :=
  (yields_of_load Index.sound_empty ho).describes (listsPointers_ofMembers members)

/-- A load of a document without faults into an empty index fails for a contradiction iff there is one
among the records; otherwise the index is the one that they describe. -/
theorem load_spec (accepts : Text → Bool) (members : Members)
    (hd : (Document.ofMembers members).WellFormed) :
    let s := (Document.ofMembers members).records
    let l := load (.ofPred accepts) () {} (Document.ofMembers members)
    ((∃ i, l.error = some (.inconsistent i)) ↔
      (∃ e ∈ s.edges, ¬ s.Declares e.root) ∨ ∃ a ∈ s.indirect, s.Declares a) ∧
    (¬ ((∃ e ∈ s.edges, ¬ s.Declares e.root) ∨ ∃ a ∈ s.indirect, s.Declares a) →
      l.error = none ∧ Describes accepts s l.progress.index) := by
  intro s l
  have hc : s.Contradict {} ↔ (∃ e ∈ s.edges, ¬ s.Declares e.root) ∨ ∃ a ∈ s.indirect, s.Declares a := by
    have hroots : ∀ a, a ∉ ({} : Index).roots := fun _ => AtomSet.not_mem_empty
    have hindirect : ∀ a, a ∉ ({} : Index).indirect := fun _ => AtomSet.not_mem_empty
    simp [Records.Contradict, hroots, hindirect]
  rw [← hc]
  rcases load_yields accepts Index.sound_empty hd with ⟨hs, i, ho⟩ | ⟨ho, hy⟩
  · exact ⟨⟨fun _ => hs, fun _ => ⟨i, ho⟩⟩, fun hn => absurd hs hn⟩
  · refine ⟨⟨fun ⟨i, hi⟩ => ?_, fun hs => absurd hs hy.agree⟩, fun _ => ⟨ho, ?_⟩⟩
    · cases ho.symm.trans hi
    · exact hy.describes (listsPointers_ofMembers members)

/-- A root with two records, an edge into a root, and a pointer variable with two ids. -/
def twiceToldMembers : Members :=
  [("atoms", .list [.obj [("id", .int 5), ("name", .str "p")]]),
    ("roots", .list [
      .obj [("atom", .int 1), ("reason", .str "Cast"),
        ("location", .obj [("file", .str "a.c"), ("line", .int 3)])],
      .obj [("atom", .int 2), ("reason", .str "Cast")],
      .obj [("atom", .int 1), ("reason", .str "Macro")]]),
    ("propagation", .list [.list [.int 1, .int 5], .list [.int 1, .int 2]]),
    ("indirect", .list [.int 7]),
    ("pointers", .list [
      .obj [("id", .int 1), ("atoms", .list [.int 5])],
      .obj [("id", .bool true), ("atoms", .list [.int 7])]])]

theorem load_spec_twiceTold :
    (Document.ofMembers twiceToldMembers).WellFormed ∧
    let ix := (load (.ofPred (· == "a.c")) () {} (Document.ofMembers twiceToldMembers)).progress.index
    Describes (· == "a.c") (Document.ofMembers twiceToldMembers).records ix ∧
    ix.diagnostics.find? 1 = some ⟨"Macro", none, []⟩ ∧ 1 ∈ ix.rootsInSource := by
  have hd : (Document.ofMembers twiceToldMembers).WellFormed := ⟨rfl, rfl, rfl, rfl, rfl, rfl, rfl, rfl⟩
  refine ⟨hd, ((load_spec _ _ hd).2 (by decide)).2, ?_, ?_⟩
  · decide
  · decide

end Blame.Snapshot
