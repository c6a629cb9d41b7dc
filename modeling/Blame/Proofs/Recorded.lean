import Blame.Proofs.Lift
import Blame.Proofs.Records
import Blame.Proofs.Stages
import Mathlib.Tactic.Tauto

/-!
# The sections of a load

What the first five sections of a snapshot make of a sound index. `Recorded` says it as a whole, for the
records applied so far: one lemma for each kind of record, then one for each section.
-/

namespace Blame.Snapshot

open Stage

/-- The tables that only the end of a load writes are as before. -/
def Kept (ix₀ ix : Index) : Prop :=
  ix.locations = ix₀.locations ∧ ix.rootsInSource = ix₀.rootsInSource ∧
  ix.indirectInSource = ix₀.indirectInSource ∧ ix.pointerEffects = ix₀.pointerEffects ∧
  ix.pointerCauses = ix₀.pointerCauses

/-- The records are written into the index, which was `ix₀` before. -/
structure Recorded (ix₀ : Index) (s : Records) (ix : Index) : Prop where
  sound : ix.Sound
  diagnostic : ∀ a, ix.diagnostics.find? a = (s.diagnostic? a).or (ix₀.diagnostics.find? a)
  name : ∀ a, ix.names.find? a = (s.name? a).or (ix₀.names.find? a)
  effect : ∀ r a, a ∈ ix.effectsOf r ↔ a ∈ ix₀.effectsOf r ∨ (⟨r, a⟩ ∈ s.edges ∧ a ∉ ix.roots)
  indirect : ∀ a, a ∈ ix.indirect ↔
    a ∈ ix₀.indirect ∨ (∃ r, ⟨r, a⟩ ∈ s.edges ∧ a ∉ ix.roots) ∨ a ∈ s.indirect
  member : ∀ a p, (ix.membersOf a).contains p = true ↔ (ix₀.membersOf a).contains p = true ∨ s.Joins a p
  root_new : ∀ x ∈ s.roots, x.atom ∉ ix₀.indirect
  edge_root : ∀ e ∈ s.edges, e.root ∈ ix.roots

/-- The records are written so far, and the end of the load is still to come. -/
structure Underway (ix₀ : Index) (s : Records) (ix : Index) : Prop extends Recorded ix₀ s ix where
  kept : Kept ix₀ ix

/-- The load ends with a contradiction, and the records do contradict the index. -/
def Refused (ix₀ : Index) (s : Records) (e : LoadError) : Prop :=
  s.Contradict ix₀ ∧ ∃ i, e = .inconsistent i

/-! ### The five sections -/

section
variable {σ : Type} {ix₀ ix : Index} {s : Records} {d : Document}

theorem recorded_nil (h : ix₀.Sound) : Recorded ix₀ {} ix₀ where
  sound := h
  diagnostic _ := rfl
  name _ := rfl
  effect := by simp
  indirect := by simp
  member := by simp [Records.Joins]
  root_new := by simp
  edge_root := by simp

theorem Recorded.mem_roots (h : Recorded ix₀ s ix) (a : Atom) :
    a ∈ ix.roots ↔ s.Declares a ∨ a ∈ ix₀.roots := by
  rw [Index.roots, Index.roots, AtomTable.mem_keys_iff, AtomTable.mem_keys_iff, h.diagnostic,
    Records.declares_iff]
  cases s.diagnostic? a <;> simp

theorem Recorded.agree (h : Recorded ix₀ s ix) : ¬ s.Contradict ix₀ := by
  rintro (⟨x, hx, hi⟩ | ⟨e, he, hr⟩ | ⟨a, ha, hr⟩)
  · exact h.root_new x hx hi
  · exact hr ((h.mem_roots e.root).1 (h.edge_root e he))
  · exact h.sound.root_not_indirect a ((h.mem_roots a).2 hr) ((h.indirect a).2 (.inr (.inr ha)))

theorem applyName_eq (a : Atom) (name : Option Text) (ix : Index) :
    ∃ names, applyName a name ix = { ix with names } ∧
      ∀ b, names.find? b = (if a = b then name else none).or (ix.names.find? b) := by
  cases name with
  | none => exact ⟨ix.names, rfl, fun b => by simp⟩
  | some s =>
    refine ⟨ix.names.insert a s, rfl, fun b => ?_⟩
    rw [AtomTable.find?_insert]
    split <;> rfl

theorem Kept.applyName (h : Kept ix₀ ix) (a : Atom) (name : Option Text) :
    Kept ix₀ (applyName a name ix) := by
  cases name <;> exact h

theorem applyAtom_recorded {done : List AtomRecord} (h : Recorded ix₀ { atoms := done } ix)
    (x : AtomRecord) :
    Recorded ix₀ { atoms := done ++ [x] } (applyName x.atom x.name ix) := by
  obtain ⟨names, he, hn⟩ := applyName_eq x.atom x.name ix
  rw [he]
  exact { h with
    sound := h.sound.aside _ _ _
    name := fun a => by
      simp [hn, h.name, Records.name?, Option.or_assoc] }

theorem insertRoot_recorded {atoms : List AtomRecord} {done : List RootRecord}
    (h : Recorded ix₀ { atoms, roots := done } ix) (x : RootRecord) (hx : x.atom ∉ ix.indirect) :
    Recorded ix₀ { atoms, roots := done ++ [x] }
      (applyName x.atom x.name { ix with diagnostics := ix.diagnostics.insert x.atom x.diagnostic }) := by
  obtain ⟨names, he, hn⟩ := applyName_eq x.atom x.name
    { ix with diagnostics := ix.diagnostics.insert x.atom x.diagnostic }
  rw [he]
  exact { h with
    sound := (h.sound.insertRoot x.diagnostic hx).aside _ _ _
    diagnostic := fun a => by
      simp only [AtomTable.find?_insert, h.diagnostic, Records.diagnostic?, lastSome_concat]
      by_cases ha : x.atom = a <;> simp [ha]
    name := fun a => by
      simp [hn, h.name, Records.name?, Option.or_assoc]
    -- Which edges count depends on the roots; none is written yet.
    effect := fun r a => by
      show a ∈ ix.effectsOf r ↔ _
      rw [h.effect]
      simp
    indirect := fun a => by
      rw [h.indirect]
      simp
    root_new := fun y hy => by
      rcases List.mem_append.1 hy with hy | hy
      · exact h.root_new y hy
      · rw [List.mem_singleton.1 hy]
        exact fun hi => hx ((h.indirect x.atom).2 (.inl hi))
    edge_root := by simp }

theorem mem_edges_concat {done : List EdgeRecord} {x : EdgeRecord} {r a : Atom} :
    ⟨r, a⟩ ∈ done ++ [x] ↔ ⟨r, a⟩ ∈ done ∨ r = x.root ∧ a = x.affected := by
  cases x
  simp

theorem ignoreEdge_recorded (h : Recorded ix₀ s ix) (x : EdgeRecord) (hr : x.root ∈ ix.roots)
    (ha : x.affected ∈ ix.roots) : Recorded ix₀ { s with edges := s.edges ++ [x] } ix := by
  have hlisted : ∀ r a, (⟨r, a⟩ ∈ s.edges ++ [x] ∧ a ∉ ix.roots) ↔ (⟨r, a⟩ ∈ s.edges ∧ a ∉ ix.roots) := by
    intro r a
    rw [mem_edges_concat]
    refine and_congr_left fun hn => ⟨fun hm => hm.resolve_right ?_, .inl⟩
    rintro ⟨-, rfl⟩
    exact hn ha
  exact { h with
    effect := fun r a => by
      rw [hlisted]
      exact h.effect r a
    indirect := fun a => by
      simp only [hlisted]
      exact h.indirect a
    edge_root := fun e he => by
      rcases List.mem_append.1 he with he | he
      · exact h.edge_root e he
      · rwa [List.mem_singleton.1 he] }

theorem insertEdge_recorded (h : Recorded ix₀ s ix) (x : EdgeRecord) (hr : x.root ∈ ix.roots)
    (ha : x.affected ∉ ix.roots) :
    Recorded ix₀ { s with edges := s.edges ++ [x] } { ix with
      indirect := ix.indirect.insert x.affected
      effects := Relation.add x.root x.affected ix.effects
      causes := Relation.add x.affected x.root ix.causes } := by
  have hlisted : ∀ r a, (⟨r, a⟩ ∈ s.edges ++ [x] ∧ a ∉ ix.roots) ↔
      (r = x.root ∧ a = x.affected) ∨ (⟨r, a⟩ ∈ s.edges ∧ a ∉ ix.roots) := by
    intro r a
    rw [mem_edges_concat, or_and_right, or_comm]
    refine or_congr_left ⟨And.left, fun hx => ⟨hx, ?_⟩⟩
    rw [hx.2]
    exact ha
  exact { h with
    sound := h.sound.insertEdge hr ha
    effect := fun r a => by
      show a ∈ Relation.image (Relation.add x.root x.affected ix.effects) r ↔
        _ ∨ (⟨r, a⟩ ∈ s.edges ++ [x] ∧ a ∉ ix.roots)
      rw [Relation.mem_image_add, hlisted, or_left_comm]
      exact or_congr_right (h.effect r a)
    indirect := fun a => by
      show a ∈ ix.indirect.insert x.affected ↔ _ ∨ (∃ r, ⟨r, a⟩ ∈ s.edges ++ [x] ∧ a ∉ ix.roots) ∨ _
      rw [AtomSet.mem_insert, h.indirect]
      simp only [hlisted, exists_or, exists_eq_left, exists_and_right, or_left_comm, or_assoc]
    edge_root := fun e he => by
      rcases List.mem_append.1 he with he | he
      · exact h.edge_root e he
      · rwa [List.mem_singleton.1 he] }

theorem insertIndirect_recorded (h : Recorded ix₀ s ix) {a : Atom} (ha : a ∉ ix.roots) :
    Recorded ix₀ { s with indirect := s.indirect ++ [a] } { ix with indirect := ix.indirect.insert a } :=
  { h with
    sound := h.sound.insertIndirect ha
    indirect := fun b => by
      show b ∈ ix.indirect.insert a ↔ _ ∨ (∃ r, ⟨r, b⟩ ∈ s.edges ∧ b ∉ ix.roots) ∨ b ∈ s.indirect ++ [a]
      rw [AtomSet.mem_insert, h.indirect, List.mem_append, List.mem_singleton,
        or_comm, or_assoc, or_assoc] }

theorem foldl_join_eq (p : PointerId) (l : List Atom) (ix : Index) :
    ∃ members, l.foldl (fun ix a => ix.join a p) ix = { ix with members } ∧
      ∀ a q, (Index.pointersIn members a).contains q = true ↔
        (ix.membersOf a).contains q = true ∨ p.key = q.key ∧ a ∈ l := by
  induction l generalizing ix with
  | nil => exact ⟨ix.members, rfl, fun a q => by simp [Index.membersOf]⟩
  | cons b rest ih =>
    obtain ⟨members, he, hm⟩ := ih (ix.join b p)
    refine ⟨members, he, fun a q => ?_⟩
    have hj : ((ix.join b p).membersOf a).contains q = true ↔
        (a = b ∧ q.key = p.key) ∨ (ix.membersOf a).contains q = true := Index.contains_pointersIn_insert
    rw [hm, hj, List.mem_cons, @eq_comm _ q.key]
    tauto

theorem applyPointer_recorded (h : Recorded ix₀ s ix) (x : PointerRecord) :
    Recorded ix₀ { s with pointers := s.pointers ++ [x] }
      (x.atoms.foldl (fun ix a => ix.join a x.pointer) ix) := by
  obtain ⟨members, he, hm⟩ := foldl_join_eq x.pointer x.atoms ix
  rw [he]
  exact { h with
    sound := h.sound.aside _ _ _
    member := fun a p => by
      show (Index.pointersIn members a).contains p = true ↔ _
      rw [hm, h.member]
      simp only [Records.Joins, List.mem_append, List.mem_singleton, or_and_right, exists_or,
        exists_eq_left, or_assoc] }

theorem meets_atoms (hd : d.atoms.fault = none) :
    Meets (σ := σ) (Underway ix₀ {}) (ofSection applyAtom d.atoms)
      (Underway ix₀ { atoms := d.atoms.records }) (Refused ix₀ d.records) := by
  refine meets_ofSection (fun done => Underway ix₀ { atoms := done }) hd ?_
  rintro done x rest ix - ⟨h, hk⟩
  exact .inr ⟨_, _, rfl, applyAtom_recorded h x, hk.applyName _ _⟩

theorem meets_roots (hd : d.roots.fault = none) :
    Meets (σ := σ) (Underway ix₀ { atoms := d.atoms.records }) (ofSection applyRoot d.roots)
      (Underway ix₀ { atoms := d.atoms.records, roots := d.roots.records }) (Refused ix₀ d.records) := by
  refine meets_ofSection
    (fun done => Underway ix₀ { atoms := d.atoms.records, roots := done }) hd ?_
  rintro done x rest ix hl ⟨h, hk⟩
  rcases ix.declareRoot_cases x.atom x.diagnostic with ⟨hx, ho⟩ | ⟨hx, ho⟩ <;> rw [applyRoot, ho]
  · have hold : x.atom ∈ ix₀.indirect := by
      simpa using (h.indirect x.atom).1 hx
    have hmem : x ∈ d.roots.records := by
      simp [hl]
    exact .inl ⟨_, rfl, .inl ⟨x, hmem, hold⟩, _, rfl⟩
  · have hk' : Kept ix₀ { ix with diagnostics := ix.diagnostics.insert x.atom x.diagnostic } := hk
    exact .inr ⟨_, _, rfl, insertRoot_recorded h x hx, hk'.applyName _ _⟩

theorem meets_edges (hd : d.edges.fault = none) :
    Meets (σ := σ) (Underway ix₀ { atoms := d.atoms.records, roots := d.roots.records })
      (ofSection applyEdge d.edges)
      (Underway ix₀ { atoms := d.atoms.records, roots := d.roots.records, edges := d.edges.records })
      (Refused ix₀ d.records) := by
  refine meets_ofSection
    (fun done => Underway ix₀ { atoms := d.atoms.records, roots := d.roots.records, edges := done }) hd ?_
  rintro done x rest ix hl ⟨h, hk⟩
  rcases ix.blame_cases x.root x.affected with ⟨hr, ho⟩ | ⟨hr, ha, fate, -, ho⟩ | ⟨hr, ha, ho⟩ <;>
    rw [applyEdge, ho]
  · have hmem : x ∈ d.edges.records := by
      simp [hl]
    exact .inl ⟨_, rfl, .inr (.inl ⟨x, hmem, mt (h.mem_roots x.root).2 hr⟩), _, rfl⟩
  · have ha' : x.affected ∈ ix.roots := ha.elim (fun e => e ▸ hr) id
    exact .inr ⟨_, _, rfl, ignoreEdge_recorded h x hr ha', hk⟩
  · exact .inr ⟨_, _, rfl, insertEdge_recorded h x hr ha, hk⟩

theorem meets_indirect (hd : d.indirect.fault = none) :
    Meets (σ := σ)
      (Underway ix₀ { atoms := d.atoms.records, roots := d.roots.records, edges := d.edges.records })
      (ofSection applyIndirect d.indirect) (Underway ix₀ { d.records with pointers := [] })
      (Refused ix₀ d.records) := by
  refine meets_ofSection
    (fun done => Underway ix₀ { d.records with indirect := done, pointers := [] }) hd ?_
  rintro done a rest ix hl ⟨h, hk⟩
  rcases ix.declareIndirect_cases a with ⟨hr, ho⟩ | ⟨hr, ho⟩ <;> rw [applyIndirect, ho]
  · have hmem : a ∈ d.indirect.records := by
      simp [hl]
    exact .inl ⟨_, rfl, .inr (.inr ⟨a, hmem, (h.mem_roots a).1 hr⟩), _, rfl⟩
  · exact .inr ⟨_, _, rfl, insertIndirect_recorded h hr, hk⟩

theorem Kept.foldl_join (h : Kept ix₀ ix) (p : PointerId) (l : List Atom) :
    Kept ix₀ (l.foldl (fun ix a => ix.join a p) ix) := by
  obtain ⟨members, he, -⟩ := foldl_join_eq p l ix
  rw [he]
  exact h

theorem meets_pointers (hd : d.pointers.fault = none) :
    Meets (σ := σ) (Underway ix₀ { d.records with pointers := [] }) (ofSection applyPointer d.pointers)
      (Underway ix₀ d.records) (Refused ix₀ d.records) := by
  refine meets_ofSection (fun done => Underway ix₀ { d.records with pointers := done }) hd ?_
  rintro done x rest ix - ⟨h, hk⟩
  exact .inr ⟨_, _, rfl, applyPointer_recorded h x, hk.foldl_join x.pointer x.atoms⟩

end

end Blame.Snapshot
