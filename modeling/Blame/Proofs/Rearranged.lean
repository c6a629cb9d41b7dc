import Blame.Proofs.Alike
import Blame.Proofs.Load
import Blame.Proofs.Reading

/-!
# The order of records

Edges, indirect atoms, pointer variables and their levels are sets to a load: their order does not
matter, nor how often one is listed. Of several records about one atom the last counts or the first, so
these may change places as long as there is one for each atom. A document that is rearranged in this way
(`Rearranged`) says the same (`Records.SameAs`), and the index that it describes reads alike.
-/

namespace Blame.Snapshot

/-! ### Rearranged documents -/

/-- Under a key two objects have the same value, or lists that are related. -/
def SameUpTo (R : List Json → List Json → Prop) (key : Text) (members members' : Members) : Prop :=
  Json.member? key members' = Json.member? key members ∨
  ∃ l l', Json.member? key members = some (.list l) ∧ Json.member? key members' = some (.list l') ∧ R l l'

/-- The same entries, in any order and as often as one likes. -/
def SameEntries (l l' : List Json) : Prop := ∀ v, v ∈ l' ↔ v ∈ l

/-- The same records in another order, where no two of them have one value under the key. -/
def Permuted (key : Text) (l l' : List Json) : Prop := l'.Perm l ∧ (l.map (field? key)).Nodup

/-- The same pointer variable, with the same levels in any order and as often as one likes. -/
inductive SameLevels : Json → Json → Prop
  | refl (v : Json) : SameLevels v v
  | obj {members members' : Members} (hatoms : SameUpTo SameEntries "atoms" members members')
      (hrest : ∀ key : Text, key ≠ "atoms" → Json.member? key members' = Json.member? key members) :
      SameLevels (.obj members) (.obj members')

/-- The same pointer variables, in any order and as often as one likes. -/
def SamePointers (l l' : List Json) : Prop :=
  (∀ v ∈ l, ∃ v' ∈ l', SameLevels v v') ∧ ∀ v' ∈ l', ∃ v ∈ l, SameLevels v v'

/-- The second document is the first with its lists rearranged. -/
structure Rearranged (members members' : Members) : Prop where
  atoms : SameUpTo (Permuted "id") "atoms" members members'
  roots : SameUpTo (Permuted "atom") "roots" members members'
  propagation : SameUpTo SameEntries "propagation" members members'
  indirect : SameUpTo SameEntries "indirect" members members'
  pointers : SameUpTo SamePointers "pointers" members members'
  rest : ∀ key, key ∉ (["atoms", "roots", "propagation", "indirect", "pointers"] : List Text) →
    Json.member? key members' = Json.member? key members

/-! ### Sections -/

section
variable {α : Type} {R : List Json → List Json → Prop} {read : Text → Json → Reading α}
  {key : Text} {required : Bool} {members members' : Members} {l l' : List Json}

theorem listAt_congr (h : Json.member? key members' = Json.member? key members) :
    listAt members' key required = listAt members key required := by
  rw [listAt, listAt, h]

theorem readSection_congr (h : Json.member? key members' = Json.member? key members) :
    readSection members' key required read = readSection members key required read := by
  rw [readSection, readSection, listAt_congr h]

theorem SameUpTo.exists_listAt (h : SameUpTo R key members members') (ho : listAt members key required = .ok l) :
    ∃ l', listAt members' key required = .ok l' ∧ (l' = l ∨ R l l') := by
  rcases h with hm | ⟨l₁, l₂, h₁, h₂, hR⟩
  · exact ⟨l, (listAt_congr hm).trans ho, .inl rfl⟩
  · have hl : listAt members key required = .ok l₁ := by
      rw [listAt, h₁]
    cases hl.symm.trans ho
    refine ⟨l₂, ?_, .inr hR⟩
    rw [listAt, h₂]

/-- A section without faults, as it is and rearranged. -/
structure SectionPair (read : Text → Json → Reading α) (R : List Json → List Json → Prop)
    (s s' : Section α) (l l' : List Json) : Prop where
  faultless : Faultless read l
  related : l' = l ∨ R l l'
  section_eq : s = { records := recordsIn read l }
  section_eq' : s' = { records := recordsIn read l' }

theorem SameUpTo.sections (h : SameUpTo R key members members') (hread : Placeless read)
    (hR : ∀ l l', R l l' → Faultless read l → Faultless read l')
    (hf : (readSection members key required read).fault = none) :
    ∃ l l', SectionPair read R (readSection members key required read)
      (readSection members' key required read) l l' := by
  obtain ⟨l, hl, hclean⟩ := exists_of_readSection hread hf
  obtain ⟨l', hl', hrel⟩ := h.exists_listAt hl
  have hclean' : Faultless read l' := by
    rcases hrel with rfl | hrel
    · exact hclean
    · exact hR l l' hrel hclean
  exact ⟨l, l', hclean, hrel, readSection_of_faultless hread hl hclean,
    readSection_of_faultless hread hl' hclean'⟩

theorem SameEntries.faultless (h : SameEntries l l') (hf : Faultless read l) : Faultless read l' :=
  fun v hv => hf v ((h v).1 hv)

theorem SameEntries.mem_recordsIn_iff (h : SameEntries l l') (x : α) :
    x ∈ recordsIn read l' ↔ x ∈ recordsIn read l := by
  simp only [mem_recordsIn, h _]

theorem Permuted.sameEntries (h : Permuted key l l') : SameEntries l l' := fun _ => h.1.mem_iff

/-- The same records, in another order only if no two of them are about one atom. -/
def SameByAtom (atomOf : α → Atom) (l l' : List α) : Prop := l' = l ∨ l'.Perm l ∧ (l.map atomOf).Nodup

theorem Permuted.sameByAtom {atomOf : α → Atom} (h : Permuted key l l')
    (hkey : ∀ v x, (read "" v).record = some x → field? key v = some (.int (atomOf x))) :
    SameByAtom atomOf (recordsIn read l) (recordsIn read l') := by
  refine .inr ⟨h.1.filterMap _, ?_⟩
  have hdistinct : l.Pairwise fun v w => field? key v ≠ field? key w := List.pairwise_map.1 h.2
  refine List.pairwise_map.2 (List.pairwise_filterMap.2 (hdistinct.imp ?_))
  intro v w hne x hx y hy hxy
  refine hne ?_
  rw [hkey v x hx, hkey w y hy, hxy]

namespace SectionPair
variable {s s' : Section α}

theorem fault_eq (h : SectionPair read R s s' l l') : s'.fault = none := by
  rw [h.section_eq']

theorem sameByAtom {atomOf : α → Atom} (h : SectionPair read (Permuted key) s s' l l')
    (hkey : ∀ v x, (read "" v).record = some x → field? key v = some (.int (atomOf x))) :
    SameByAtom atomOf s.records s'.records := by
  rw [h.section_eq, h.section_eq']
  rcases h.related with rfl | hp
  · exact .inl rfl
  · exact hp.sameByAtom hkey

theorem mem_iff (h : SectionPair read SameEntries s s' l l') (x : α) : x ∈ s'.records ↔ x ∈ s.records := by
  rw [h.section_eq, h.section_eq']
  rcases h.related with rfl | he
  · rfl
  · exact he.mem_recordsIn_iff x

end SectionPair

end

/-! ### Records -/

section
variable {α β : Type} {l l' : List α} {atomOf : α → Atom}

theorem findSome?_eq_some_iff_of_unique {f : α → Option β} {b : β}
    (h : ∀ x ∈ l, ∀ y ∈ l, f x ≠ none → f y ≠ none → x = y) :
    l.findSome? f = some b ↔ ∃ x ∈ l, f x = some b := by
  refine ⟨List.exists_of_findSome?_eq_some, fun ⟨x, hx, hb⟩ => ?_⟩
  cases hf : l.findSome? f with
  | none =>
    have hn := List.findSome?_eq_none_iff.1 hf x hx
    rw [hb] at hn
    cases hn
  | some c =>
    obtain ⟨y, hy, hc⟩ := List.exists_of_findSome?_eq_some hf
    have hxy : x = y := h x hx y hy (by simp [hb]) (by simp [hc])
    subst hxy
    exact hc.symm.trans hb

namespace SameByAtom

theorem mem_iff (h : SameByAtom atomOf l l') (x : α) : x ∈ l' ↔ x ∈ l := by
  rcases h with rfl | ⟨hp, -⟩
  · rfl
  · exact hp.mem_iff

/-- At most one record is about the atom, so there is no first among several. -/
theorem findSome?_eq (h : SameByAtom atomOf l l') (a : Atom) {f : α → Option β}
    (hf : ∀ x, f x ≠ none → atomOf x = a) : l'.findSome? f = l.findSome? f := by
  rcases h with rfl | ⟨hp, hn⟩
  · rfl
  · have hone : ∀ x ∈ l, ∀ y ∈ l, f x ≠ none → f y ≠ none → x = y := fun x hx y hy hfx hfy =>
      List.inj_on_of_nodup_map hn hx hy ((hf x hfx).trans (hf y hfy).symm)
    have hone' : ∀ x ∈ l', ∀ y ∈ l', f x ≠ none → f y ≠ none → x = y := fun x hx y hy =>
      hone x (hp.mem_iff.1 hx) y (hp.mem_iff.1 hy)
    refine Option.ext fun b => ?_
    rw [findSome?_eq_some_iff_of_unique hone, findSome?_eq_some_iff_of_unique hone']
    simp only [hp.mem_iff]

theorem find?_eq (h : SameByAtom atomOf l l') (a : Atom) :
    l'.find? (fun x => atomOf x = a) = l.find? (fun x => atomOf x = a) := by
  rw [List.find?_eq_findSome?_guard, List.find?_eq_findSome?_guard]
  refine h.findSome?_eq a fun x hx => ?_
  by_contra hne
  exact hx (by simp [Option.guard, hne])

theorem reverse (h : SameByAtom atomOf l l') : SameByAtom atomOf l.reverse l'.reverse := by
  rcases h with rfl | ⟨hp, hn⟩
  · exact .inl rfl
  · refine .inr ⟨(l'.reverse_perm.trans hp).trans l.reverse_perm.symm, ?_⟩
    rw [List.map_reverse]
    exact List.nodup_reverse.2 hn

theorem lastSome_eq (h : SameByAtom atomOf l l') (a : Atom) (g : α → Option β) :
    lastSome (fun x => if atomOf x = a then g x else none) l' =
      lastSome (fun x => if atomOf x = a then g x else none) l := by
  refine h.reverse.findSome?_eq a fun x hx => ?_
  by_contra hne
  exact hx (if_neg hne)

end SameByAtom

end

/-- Two lists of records say the same of an index. -/
structure Records.SameAs (s s' : Records) : Prop where
  atoms : SameByAtom AtomRecord.atom s.atoms s'.atoms
  roots : SameByAtom RootRecord.atom s.roots s'.roots
  edges : ∀ e, e ∈ s'.edges ↔ e ∈ s.edges
  indirect : ∀ a, a ∈ s'.indirect ↔ a ∈ s.indirect
  joins : ∀ a p, s'.Joins a p ↔ s.Joins a p

namespace Records.SameAs
variable {s s' : Records}

theorem declares (h : s.SameAs s') (a : Atom) : s'.Declares a ↔ s.Declares a := by
  simp only [Declares, h.roots.mem_iff]

theorem edge (h : s.SameAs s') (r a : Atom) : s'.Edge r a ↔ s.Edge r a := by
  simp only [Edge, h.edges, h.declares]

theorem explains (h : s.SameAs s') (r : Atom) (p : PointerId) : s'.Explains r p ↔ s.Explains r p := by
  simp only [Explains, h.edge, h.joins]

theorem contradict (h : s.SameAs s') (ix : Index) : s'.Contradict ix ↔ s.Contradict ix := by
  simp only [Contradict, h.roots.mem_iff, h.edges, h.indirect, h.declares]

theorem diagnostic? (h : s.SameAs s') (a : Atom) : s'.diagnostic? a = s.diagnostic? a :=
  h.roots.lastSome_eq a fun x => some x.diagnostic

theorem name? (h : s.SameAs s') (a : Atom) : s'.name? a = s.name? a := by
  have hroots := h.roots.lastSome_eq a RootRecord.name
  have hatoms := h.atoms.lastSome_eq a AtomRecord.name
  rw [Records.name?, Records.name?, hroots, hatoms]

theorem place? (h : s.SameAs s') (a : Atom) : s'.place? a = s.place? a := by
  have hroots := h.roots.find?_eq a
  have hatoms := h.atoms.lastSome_eq a AtomRecord.location
  rw [Records.place?, Records.place?, hroots, hatoms]

end Records.SameAs

/-- Records that say the same describe indexes that read alike. -/
theorem Describes.alike {accepts : Text → Bool} {s s' : Records} {ix ix' : Index}
    (h : Describes accepts s ix) (h' : Describes accepts s' ix') (hs : s.SameAs s') : ix.Alike ix' where
  diagnostics := AtomTable.ext_find? fun a => by
    rw [h'.diagnostic, h.diagnostic, hs.diagnostic?]
  locations := AtomTable.ext_find? fun a => by
    have hl : ix'.locationOf a = ix.locationOf a := by
      rw [h'.location, h.location, hs.place?]
    exact hl
  names := AtomTable.ext_find? fun a => by
    rw [h'.name, h.name, hs.name?]
  rootsInSource := AtomSet.ext_mem fun a => by
    rw [h'.rootInSource, h.rootInSource, hs.declares, hs.place?]
  indirect := AtomSet.ext_mem fun a => by
    simp only [h'.indirect, h.indirect, hs.edge, hs.indirect]
  indirectInSource := AtomSet.ext_mem fun a => by
    simp only [h'.indirectInSource, h.indirectInSource, hs.edge, hs.indirect, hs.place?]
  effects r := AtomSet.ext_mem fun a => by
    rw [h'.effect, h.effect, hs.edge]
  causes a := AtomSet.ext_mem fun r => by
    rw [h'.cause, h.cause, hs.edge]
  pointerEffects r p := by
    rw [Bool.eq_iff_iff, h'.pointerEffect, h.pointerEffect, hs.explains]
  pointerCauses p := AtomSet.ext_mem fun r => by
    rw [h'.pointerCause, h.pointerCause, hs.explains]

/-! ### Pointer variables -/

theorem SameLevels.parts {v v' id : Json} {items : List Json} (h : SameLevels v v')
    (hp : PointerParts v id items) : ∃ items', SameEntries items items' ∧ PointerParts v' id items' := by
  cases h with
  | refl => exact ⟨items, fun _ => Iff.rfl, hp⟩
  | obj hatoms hrest =>
    obtain ⟨hid, hobj, hitems⟩ := hp
    obtain ⟨items', hitems', hrel⟩ := hatoms.exists_listAt hitems
    have hsame : SameEntries items items' := by
      rcases hrel with rfl | hrel
      · exact fun _ => Iff.rfl
      · exact hrel
    refine ⟨items', hsame, ?_, hobj, hitems'⟩
    rw [hrest "id" (by decide), hid]

theorem SameEntries.exists_levels {levels : List Atom} {items : List Json}
    (h : SameEntries (levels.map .int) items) :
    ∃ levels' : List Atom, items = levels'.map .int ∧ ∀ a, a ∈ levels' ↔ a ∈ levels := by
  obtain ⟨levels', rfl⟩ := faultless_levels_iff.1 (h.faultless (faultless_levels_iff.2 ⟨levels, rfl⟩))
  have hinj : Function.Injective Json.int := fun _ _ => Json.int.inj
  refine ⟨levels', rfl, fun a => ?_⟩
  rw [← List.mem_map_of_injective hinj, h, List.mem_map_of_injective hinj]

/-- The record, if there is one, lists the atom as a level of the variable. -/
def ListsLevel (o : Option PointerRecord) (a : Atom) (p : PointerId) : Prop :=
  ∃ x, o = some x ∧ x.pointer.key = p.key ∧ a ∈ x.atoms

theorem SameLevels.reads {v v' : Json} {levels : List Atom} {o : Option PointerRecord} (h : SameLevels v v')
    (hr : ReadsPointer v levels o) :
    ∃ levels' o', ReadsPointer v' levels' o' ∧ ∀ a p, ListsLevel o' a p ↔ ListsLevel o a p := by
  cases hr with
  | record hparts hid =>
    obtain ⟨items, hsame, hparts'⟩ := h.parts hparts
    obtain ⟨levels', rfl, hmem⟩ := hsame.exists_levels
    refine ⟨levels', _, .record hparts' hid, fun a p => ?_⟩
    simp [ListsLevel, hmem]
  | bare hparts hid =>
    obtain ⟨items, hsame, hparts'⟩ := h.parts hparts
    have hnone : SameEntries (([] : List Atom).map .int) items := hsame
    obtain ⟨levels', rfl, hmem⟩ := hnone.exists_levels
    have hnil : levels' = [] := List.eq_nil_iff_forall_not_mem.2 fun a ha => List.not_mem_nil ((hmem a).1 ha)
    subst hnil
    exact ⟨[], none, .bare hparts' hid, fun _ _ => Iff.rfl⟩

theorem SameLevels.lists {v v' : Json} (h : SameLevels v v')
    (hf : (readPointerRecord "" v).fault = none) :
    (readPointerRecord "" v').fault = none ∧ ∀ a p,
      ListsLevel (readPointerRecord "" v').record a p ↔
        ListsLevel (readPointerRecord "" v).record a p := by
  obtain ⟨levels, o, hr⟩ := readsPointer_of_faultless hf
  obtain ⟨levels', o', hr', hlists⟩ := h.reads hr
  rw [hr.read, hr'.read]
  exact ⟨rfl, hlists⟩

theorem exists_recordsIn_iff {l : List Json} {a : Atom} {p : PointerId} :
    (∃ x ∈ recordsIn readPointerRecord l, x.pointer.key = p.key ∧ a ∈ x.atoms) ↔
      ∃ v ∈ l, ListsLevel (readPointerRecord "" v).record a p := by
  simp only [mem_recordsIn, ListsLevel]
  constructor
  · rintro ⟨x, ⟨v, hv, hx⟩, hlists⟩
    exact ⟨v, hv, x, hx, hlists⟩
  · rintro ⟨v, hv, x, hx, hlists⟩
    exact ⟨x, ⟨v, hv, hx⟩, hlists⟩

namespace SamePointers
variable {l l' : List Json}

theorem faultless (h : SamePointers l l') (hf : Faultless readPointerRecord l) :
    Faultless readPointerRecord l' := by
  intro v' hv'
  obtain ⟨v, hv, hsame⟩ := h.2 v' hv'
  exact (hsame.lists (hf v hv)).1

theorem joins (h : SamePointers l l') (hf : Faultless readPointerRecord l) (a : Atom) (p : PointerId) :
    (∃ x ∈ recordsIn readPointerRecord l', x.pointer.key = p.key ∧ a ∈ x.atoms) ↔
      ∃ x ∈ recordsIn readPointerRecord l, x.pointer.key = p.key ∧ a ∈ x.atoms := by
  rw [exists_recordsIn_iff, exists_recordsIn_iff]
  constructor
  · rintro ⟨v', hv', hlists⟩
    obtain ⟨v, hv, hsame⟩ := h.2 v' hv'
    have hiff := (hsame.lists (hf v hv)).2 a p
    exact ⟨v, hv, hiff.1 hlists⟩
  · rintro ⟨v, hv, hlists⟩
    obtain ⟨v', hv', hsame⟩ := h.1 v hv
    have hiff := (hsame.lists (hf v hv)).2 a p
    exact ⟨v', hv', hiff.2 hlists⟩

end SamePointers

theorem SectionPair.joins {s s' : Section PointerRecord} {l l' : List Json}
    (h : SectionPair readPointerRecord SamePointers s s' l l') (a : Atom) (p : PointerId) :
    (∃ x ∈ s'.records, x.pointer.key = p.key ∧ a ∈ x.atoms) ↔
      ∃ x ∈ s.records, x.pointer.key = p.key ∧ a ∈ x.atoms := by
  rw [h.section_eq, h.section_eq']
  rcases h.related with rfl | hp
  · rfl
  · exact hp.joins h.faultless a p

/-! ### Loads -/

namespace Rearranged
variable {members members' : Members}

theorem records (h : Rearranged members members') (hd : (Document.ofMembers members).WellFormed) :
    (Document.ofMembers members').WellFormed ∧
    (Document.ofMembers members).records.SameAs (Document.ofMembers members').records := by
  obtain ⟨l₁, l₁', atoms⟩ := h.atoms.sections placeless_readAtomRecord
    (fun _ _ hp => hp.sameEntries.faultless) hd.atoms
  obtain ⟨l₂, l₂', roots⟩ := h.roots.sections (.ofExcept sameValue_readRootRecord)
    (fun _ _ hp => hp.sameEntries.faultless) hd.roots
  obtain ⟨l₃, l₃', edges⟩ := h.propagation.sections (.ofExcept sameValue_readEdge)
    (fun _ _ hp => hp.faultless) hd.edges
  obtain ⟨l₄, l₄', indirect⟩ := h.indirect.sections (.ofExcept sameValue_readAtom)
    (fun _ _ hp => hp.faultless) hd.indirect
  obtain ⟨l₅, l₅', pointers⟩ := h.pointers.sections placeless_readPointerRecord
    (fun _ _ hp => hp.faultless) hd.pointers
  have hcounts : readCountSection members' = readCountSection members := by
    rw [readCountSection, readCountSection, h.rest "rewrite_stats" (by decide)]
  constructor
  · exact {
      atoms := atoms.fault_eq
      roots := roots.fault_eq
      edges := edges.fault_eq
      indirect := indirect.fault_eq
      pointers := pointers.fault_eq
      casts := (congrArg Section.fault (readSection_congr (h.rest "casts" (by decide)))).trans hd.casts
      voids := (congrArg Section.fault (readSection_congr (h.rest "voids" (by decide)))).trans hd.voids
      counts := (congrArg Section.fault hcounts).trans hd.counts }
  · exact {
      atoms := atoms.sameByAtom fun _ _ => field?_of_readAtomRecord
      roots := roots.sameByAtom fun _ _ => field?_of_readRootRecord
      edges := edges.mem_iff
      indirect := indirect.mem_iff
      joins := pointers.joins }

end Rearranged

/-- A snapshot that loads also loads with its lists rearranged, and every report comes out the same. -/
theorem load_order_independent (accepts : Text → Bool) {members members' : Members}
    (h : Rearranged members members') :
    let first := load (.ofPred accepts) () {} (Document.ofMembers members)
    let second := load (.ofPred accepts) () {} (Document.ofMembers members')
    first.error = none →
      let ix := first.progress.index
      let ix' := second.progress.index
      second.error = none ∧
      ix'.summary = ix.summary ∧
      ix'.rootReport ix'.nameOf = ix.rootReport ix.nameOf ∧
      ∃ entries, ix.causeMap ix.nameOf = .ok entries ∧ ix'.causeMap ix'.nameOf = .ok entries := by
  intro first second ho ix ix'
  obtain ⟨hd, hs⟩ := h.records (wellFormed_of_load ho)
  have hyields := yields_of_load Index.sound_empty ho
  have ho' : second.error = none := by
    rcases load_yields accepts Index.sound_empty hd with ⟨hc, -⟩ | ⟨ho', -⟩
    · exact absurd ((hs.contradict {}).1 hc) hyields.agree
    · exact ho'
  have halike : ix.Alike ix' := (describes_of_load ho).alike (describes_of_load ho') hs
  refine ⟨ho', halike.summary, ?_, _, hyields.sound.causeMap_eq, ?_⟩
  · rw [halike.nameOf, halike.rootReport]
  · rw [halike.nameOf, halike.causeMap]
    exact hyields.sound.causeMap_eq

/-- Two roots share an atom, and a pointer variable has a level of each. -/
def orderedMembers : Members :=
  [("atoms", .list [.obj [("id", .int 5), ("name", .str "p")], .obj [("id", .int 6)]]),
    ("roots", .list [
      .obj [("atom", .int 1), ("reason", .str "Cast"),
        ("location", .obj [("file", .str "a.c"), ("line", .int 3)])],
      .obj [("atom", .int 2), ("reason", .str "Macro")]]),
    ("propagation", .list [.list [.int 1, .int 5], .list [.int 2, .int 5], .list [.int 1, .int 6]]),
    ("indirect", .list [.int 7]),
    ("pointers", .list [
      .obj [("id", .int 1), ("atoms", .list [.int 5, .int 6])],
      .obj [("id", .str "q"), ("atoms", .list [.int 6])]])]

def shuffledMembers : Members :=
  [("atoms", .list [.obj [("id", .int 6)], .obj [("id", .int 5), ("name", .str "p")]]),
    ("roots", .list [
      .obj [("atom", .int 2), ("reason", .str "Macro")],
      .obj [("atom", .int 1), ("reason", .str "Cast"),
        ("location", .obj [("file", .str "a.c"), ("line", .int 3)])]]),
    ("propagation", .list [.list [.int 1, .int 6], .list [.int 2, .int 5], .list [.int 1, .int 5],
      .list [.int 1, .int 6]]),
    ("indirect", .list [.int 7, .int 7]),
    ("pointers", .list [
      .obj [("id", .str "q"), ("atoms", .list [.int 6])],
      .obj [("id", .int 1), ("atoms", .list [.int 6, .int 5, .int 6])]])]

theorem rearranged_shuffled : Rearranged orderedMembers shuffledMembers := by
  have hq : SameLevels (.obj [("id", .str "q"), ("atoms", .list [.int 6])])
      (.obj [("id", .str "q"), ("atoms", .list [.int 6])]) := .refl _
  have h1 : SameLevels (.obj [("id", .int 1), ("atoms", .list [.int 5, .int 6])])
      (.obj [("id", .int 1), ("atoms", .list [.int 6, .int 5, .int 6])]) := by
    refine .obj (.inr ⟨_, _, rfl, rfl, fun v => ?_⟩) fun key hkey => ?_
    · simp
      tauto
    · simp [Json.member?, hkey.symm]
  exact {
    atoms := .inr ⟨_, _, rfl, rfl, .swap _ _ _, by simp [field?, Json.member?]⟩
    roots := .inr ⟨_, _, rfl, rfl, .swap _ _ _, by simp [field?, Json.member?]⟩
    propagation := .inr ⟨_, _, rfl, rfl, fun v => by simp; tauto⟩
    indirect := .inr ⟨_, _, rfl, rfl, fun v => by simp⟩
    pointers := .inr ⟨_, _, rfl, rfl, by simp [hq, h1], by simp [hq, h1]⟩
    rest := fun key hkey => by
      simp only [List.mem_cons, List.not_mem_nil, or_false, not_or] at hkey
      simp [orderedMembers, shuffledMembers, Json.member?, Ne.symm hkey.1, Ne.symm hkey.2.1, Ne.symm hkey.2.2.1,
        Ne.symm hkey.2.2.2.1, Ne.symm hkey.2.2.2.2] }

theorem load_order_independent_shuffled :
    let first := load (.ofPred (· == "a.c")) () {} (Document.ofMembers orderedMembers)
    let second := load (.ofPred (· == "a.c")) () {} (Document.ofMembers shuffledMembers)
    let ix := first.progress.index
    let ix' := second.progress.index
    Rearranged orderedMembers shuffledMembers ∧ first.error = none ∧ second.error = none ∧
    ix'.summary = ix.summary ∧ ix'.rootReport ix'.nameOf = ix.rootReport ix.nameOf ∧
    ∃ entries, ix.causeMap ix.nameOf = .ok entries ∧ ix'.causeMap ix'.nameOf = .ok entries :=
  ⟨rearranged_shuffled, rfl, load_order_independent (· == "a.c") rearranged_shuffled rfl⟩

end Blame.Snapshot
