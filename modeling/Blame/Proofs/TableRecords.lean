import Blame.Proofs.Faults
import Blame.Proofs.ReadDocuments
import Blame.Proofs.RetoldRoots
import Blame.Snapshot.File

/-!
# The records of tables

The texts and the coordinates in the tables of a snapshot are those that stand in it. They were read off a document, so
the records of the tables are restored when they are written and read again.
-/

namespace Blame

open Number Text

/-! ### Texts of values -/

namespace Text
variable {c : CodePoint} {cs : List CodePoint}

theorem not_isPrintable_of_isHalf (h : c.isHalf = true) : isPrintable c = false := by
  cases c with
  | char a => cases h
  | half n =>
    have hrun : (0xD7FC, 0xF8FF) ∈ unprintableRuns := by decide +kernel
    have hn : (CodePoint.half n).toNat = 0xD800 + n.val := rfl
    have hlies : inRuns unprintableRuns (CodePoint.half n).toNat = true := by
      refine List.any_eq_true.2 ⟨_, hrun, ?_⟩
      rw [hn, Bool.and_eq_true, decide_eq_true_eq, decide_eq_true_eq]
      dsimp only
      omega
    rw [isPrintable, hlies, hn]
    simp
    omega

theorem halfFree_hexDigits (width n : Nat) : HalfFree (hexDigits width n) := by
  refine HalfFree.append (fun c hc => ?_) fun c hc => ?_
  · rw [List.eq_of_mem_replicate hc]
    rfl
  · obtain ⟨a, -, rfl⟩ := List.mem_map.1 hc
    rfl

theorem HalfFree.cons (hc : c.isHalf = false) (h : HalfFree cs) : HalfFree (c :: cs) := List.forall_mem_cons.2 ⟨hc, h⟩

theorem halfFree_quoteChar {quote : CodePoint} (hquote : quote.isHalf = false) (c : CodePoint) :
    HalfFree (quoteChar quote c) := by
  have hescape : HalfFree (numberEscape c) := by
    unfold numberEscape
    split
    · exact .cons rfl (.cons rfl (halfFree_hexDigits _ _))
    · split
      · exact .cons rfl (.cons rfl (halfFree_hexDigits _ _))
      · exact .cons rfl (.cons rfl (halfFree_hexDigits _ _))
  unfold quoteChar
  split
  · rename_i h
    refine .cons rfl (.cons ?_ nofun)
    rw [Bool.or_eq_true, decide_eq_true_eq, decide_eq_true_eq] at h
    rcases h with rfl | rfl
    · exact hquote
    · rfl
  split
  · exact .cons rfl (.cons rfl nofun)
  split
  · exact .cons rfl (.cons rfl nofun)
  split
  · exact .cons rfl (.cons rfl nofun)
  split
  · rename_i hprintable
    refine .cons ?_ nofun
    rw [← Bool.not_eq_true]
    intro hhalf
    rw [not_isPrintable_of_isHalf hhalf] at hprintable
    cases hprintable
  · exact hescape

/-- Quotes and escapes leave no half of a surrogate pair. -/
theorem halfFree_quoted (s : Text) : HalfFree (quoted s).toList := by
  have hquote : (quoteFor s.toList).isHalf = false := by
    unfold quoteFor
    split <;> rfl
  refine .cons hquote (HalfFree.append (fun c hc => ?_) (.cons hquote nofun))
  obtain ⟨d, -, hd⟩ := List.mem_flatMap.1 hc
  exact halfFree_quoteChar hquote d c hd

end Text

namespace Json

mutual

theorem halfFree_shown : (v : Json) → HalfFree (shown v).toList
  | null => by rw [shown]; exact ArePlain.halfFree (by decide)
  | bool true => by rw [shown]; exact ArePlain.halfFree (by decide)
  | bool false => by rw [shown]; exact ArePlain.halfFree (by decide)
  | int n => by rw [shown]; exact (arePlain_intChars n).halfFree
  | float x => by rw [shown]; exact ArePlain.halfFree x.isPlain_text
  | str s => by rw [shown]; exact halfFree_quoted s
  | list items => by
    rw [shown]
    exact ((ArePlain.halfFree (by decide)).append (halfFree_shownItems items)).append (ArePlain.halfFree (by decide))
  | obj members => by
    rw [shown]
    exact ((ArePlain.halfFree (by decide)).append (halfFree_shownMembers members)).append (ArePlain.halfFree (by decide))

theorem halfFree_shownItems : (items : List Json) → HalfFree (shownItems items).toList
  | [] => nofun
  | [v] => by rw [shownItems]; exact halfFree_shown v
  | v :: w :: rest => by
    rw [shownItems]
    exact ((halfFree_shown v).append (ArePlain.halfFree (by decide))).append (halfFree_shownItems (w :: rest))

theorem halfFree_shownMembers : (members : List (Text × Json)) → HalfFree (shownMembers members).toList
  | [] => nofun
  | [(k, v)] => by
    rw [shownMembers]
    exact ((halfFree_quoted k).append (ArePlain.halfFree (by decide))).append (halfFree_shown v)
  | (k, v) :: m :: rest => by
    have hcolon : HalfFree (": " : Text).toList := ArePlain.halfFree (by decide)
    rw [shownMembers]
    have hmember := ((halfFree_quoted k).append hcolon).append (halfFree_shown v)
    exact (hmember.append (ArePlain.halfFree (by decide))).append (halfFree_shownMembers (m :: rest))

end

/-- The text that a value stands for can be restored. -/
theorem AsRead.unpaired_asText {v : Json} (h : AsRead v) : Unpaired v.asText.toList := by
  cases h with
  | str hs => exact hs
  | _ => exact unpaired_of_halfFree (halfFree_shown _)

theorem asRead_of_member? {key : Text} {members : List (Text × Json)} {v : Json} (h : ∀ m ∈ members, AsRead m.2)
    (hv : member? key members = some v) : AsRead v := by
  induction members with
  | nil => cases hv
  | cons m rest ih =>
    obtain ⟨hm, hrest⟩ := List.forall_mem_cons.1 h
    rw [member?] at hv
    split at hv
    · cases hv
      exact hm
    · exact ih hrest hv

/-- An object whose keys are plain texts. -/
theorem Restorable.of_plain_keys {room : Nat} {members : List (Text × Json)}
    (hkeys : ∀ key ∈ members.map Prod.fst, key.IsPlain) (hnodup : (members.map Prod.fst).Nodup)
    (h : ∀ m ∈ members, Restorable room m.2) : Restorable (room + 1) (Json.obj members) :=
  .obj (fun m hm => unpaired_of_halfFree (hkeys m.1 (List.mem_map_of_mem hm)).halfFree) hnodup h

end Json

/-! ### Locations -/

open Json

/-- The file and the coordinates are restored when the location is written. -/
structure Location.Restorable (l : Location) : Prop where
  file : Unpaired l.file.toList
  line : (natDigits l.line.natAbs).length ≤ digitLimit
  colStart : (natDigits l.colStart.natAbs).length ≤ digitLimit
  colEnd : (natDigits l.colEnd.natAbs).length ≤ digitLimit

namespace Location
variable {l : Location} {members : List (Text × Json)}

theorem restorable_default : Restorable {} := ⟨.nil, by decide, by decide, by decide⟩

theorem Restorable.of_mem_toMembers (h : l.Restorable) (room : Nat) : ∀ m ∈ l.toMembers, Json.Restorable room m.2 := by
  intro m hm
  simp only [Location.toMembers, List.mem_cons, List.not_mem_nil, or_false] at hm
  rcases hm with rfl | rfl | rfl | rfl
  · exact .str h.file
  · exact .int h.line
  · exact .int h.colStart
  · exact .int h.colEnd

theorem Restorable.toMembers (h : l.Restorable) (room : Nat) : Json.Restorable (room + 1) (.obj l.toMembers) := by
  refine .of_plain_keys ?_ ?_ (h.of_mem_toMembers room)
  · change ∀ key ∈ (["file", "line", "colstart", "colend"] : List Text), key.IsPlain
    decide +kernel
  · change (["file", "line", "colstart", "colend"] : List Text).Nodup
    decide +kernel

theorem length_coordinate_le (h : ∀ m ∈ members, AsRead m.2) {keys : List Text} {n : Int}
    (hn : coordinate members keys = .ok n) : (natDigits n.natAbs).length ≤ digitLimit := by
  have hzero : (natDigits (0 : Int).natAbs).length ≤ digitLimit := by decide
  induction keys with
  | nil =>
    cases hn
    exact hzero
  | cons key keys ih =>
    rw [coordinate] at hn
    split at hn
    · exact ih hn
    · cases hn
      exact hzero
    · rename_i m hm
      cases hn
      cases asRead_of_member? h hm with
      | int hdigits => exact hdigits
    · cases hn

theorem restorable_of_ofMembers (h : ∀ m ∈ members, AsRead m.2) (hl : ofMembers members = .ok l) : l.Restorable := by
  unfold ofMembers at hl
  cases hline : coordinate members ["line"] with
  | error e =>
    rw [hline] at hl
    cases hl
  | ok line =>
  cases hstart : coordinate members ["colstart", "col_start"] with
  | error e =>
    rw [hline, hstart] at hl
    cases hl
  | ok colStart =>
  cases hend : coordinate members ["colend", "col_end"] with
  | error e =>
    rw [hline, hstart, hend] at hl
    cases hl
  | ok colEnd =>
  rw [hline, hstart, hend] at hl
  cases hl
  refine ⟨?_, length_coordinate_le h hline, length_coordinate_le h hstart, length_coordinate_le h hend⟩
  dsimp only
  split
  · exact .nil
  · exact .nil
  · rename_i v _ hv
    exact (asRead_of_member? h hv).unpaired_asText

end Location

/-! ### Records of a snapshot -/

namespace Snapshot

variable {members : Members} {place : Text} {v : Json}

theorem unpaired_textAt (h : ∀ m ∈ members, AsRead m.2) (key : Text) : Unpaired (textAt members key).toList := by
  unfold textAt
  cases hv : Json.member? key members with
  | none => exact .nil
  | some v => exact (asRead_of_member? h hv).unpaired_asText

theorem restorable_locationAt {l : Location} (h : ∀ m ∈ members, AsRead m.2)
    (hl : locationAt place members = .ok (some l)) : l.Restorable := by
  unfold locationAt valueAt at hl
  cases hv : Json.member? "location" members with
  | none =>
    rw [hv] at hl
    cases hl
  | some v =>
    have hread := asRead_of_member? h hv
    rw [hv, Option.getD_some] at hl
    cases hread with
    | obj hmembers =>
      unfold readLocation at hl
      dsimp only at hl
      split at hl
      · rename_i m hm
        cases hl
        exact Location.restorable_of_ofMembers hmembers hm
      · cases hl
    | _ => cases hl

theorem restorable_getD_locationAt {l : Option Location} (h : ∀ m ∈ members, AsRead m.2)
    (hl : locationAt place members = .ok l) : (l.getD {}).Restorable := by
  cases l with
  | none => exact Location.restorable_default
  | some l => exact restorable_locationAt h hl

theorem asRead_of_readRecord (hv : AsRead v) (h : readRecord place v = .ok members) : ∀ m ∈ members, AsRead m.2 := by
  cases readRecord_eq_ok h
  cases hv with
  | obj hmembers => exact hmembers

/-- What was read off a snapshot file was read off a JSON text. -/
theorem asRead_of_readDocument {nesting : Nat} {tree : FileTree} {cwd p : Text}
    (h : readDocument nesting tree cwd p = .ok members) : ∀ m ∈ members, AsRead m.2 := by
  unfold readDocument at h
  dsimp only at h
  split at h
  · cases h
  · cases h
  · rename_i cs hcs
    have hfree : HalfFree cs := by
      unfold readText at hcs
      split at hcs
      · cases hcs
      · split at hcs
        · cases hcs
        · rename_i hdecode
          cases hcs
          exact halfFree_unixLines (Utf8.halfFree_decode hdecode)
    split at h
    · cases h
    · cases h
    · rename_i hread
      cases h
      cases Json.asRead_of_read hfree hread with
      | obj hmembers => exact hmembers
    · cases h

/-- What a section holds was read off an item of its list. -/
theorem exists_of_mem_readSection {α : Type} {key : Text} {required : Bool} {read : Text → Json → Reading α} {x : α}
    (hmembers : ∀ m ∈ members, AsRead m.2) (hx : x ∈ (readSection members key required read).records) :
    ∃ place v, AsRead v ∧ (read place v).record = some x := by
  unfold readSection at hx
  cases hl : listAt members key required with
  | error f =>
    rw [hl] at hx
    cases hx
  | ok items =>
    have hitems : ∀ v ∈ items, AsRead v := by
      intro v hv
      cases asRead_of_member? hmembers (member?_of_mem_listAt hl hv) with
      | list h => exact h v hv
    rw [hl] at hx
    dsimp only at hx
    generalize 0 = i at hx
    clear hl
    induction items generalizing i with
    | nil => cases hx
    | cons v rest ih =>
      unfold readItems at hx
      dsimp only at hx
      split at hx
      · exact ⟨_, v, hitems v List.mem_cons_self, Option.mem_toList.1 hx⟩
      · rcases List.mem_append.1 hx with hx | hx
        · exact ⟨_, v, hitems v List.mem_cons_self, Option.mem_toList.1 hx⟩
        · exact ih (fun w hw => hitems w (List.mem_cons_of_mem v hw)) (i + 1) hx

theorem record_ofExcept {α : Type} {r : Except Fault α} {x : α} (h : (Reading.ofExcept r).record = some x) :
    r = .ok x := by
  cases r with
  | error f => cases h
  | ok a => exact congrArg Except.ok (Option.some.inj h)

section
variable (h : ∀ m ∈ members, AsRead m.2)
include h

theorem restorable_atoms {x : AtomRecord} (hx : x ∈ (Document.ofMembers members).atoms.records) {l : Location}
    (hl : x.location = some l) : l.Restorable := by
  obtain ⟨place, v, hv, hread⟩ := exists_of_mem_readSection h hx
  unfold readAtomRecord at hread
  dsimp only at hread
  split at hread
  · cases hread
  · rename_i m atom hhead
    obtain ⟨m', hm', hhead⟩ := exists_of_bind_eq_ok hhead
    obtain ⟨atom', -, hhead⟩ := exists_of_bind_eq_ok hhead
    cases hhead
    split at hread
    · rename_i l' hl'
      cases hread
      cases hl
      exact restorable_locationAt (asRead_of_readRecord hv hm') hl'
    · cases hread
      cases hl

theorem restorable_roots {x : RootRecord} (hx : x ∈ (Document.ofMembers members).roots.records) {l : Location}
    (hl : x.diagnostic.location = some l) : l.Restorable := by
  obtain ⟨place, v, hv, hread⟩ := exists_of_mem_readSection h hx
  obtain ⟨m, hm, hread⟩ := exists_of_bind_eq_ok (record_ofExcept hread)
  obtain ⟨atom, -, hread⟩ := exists_of_bind_eq_ok hread
  obtain ⟨reason, -, hread⟩ := exists_of_bind_eq_ok hread
  obtain ⟨l', hl', hread⟩ := exists_of_bind_eq_ok hread
  obtain ⟨items, -, hread⟩ := exists_of_bind_eq_ok hread
  obtain ⟨notes, -, hread⟩ := exists_of_bind_eq_ok hread
  cases hread
  cases hl
  exact restorable_locationAt (asRead_of_readRecord hv hm) hl'

/-- The types and the place of a cast are restored. -/
structure CastRecord.Restorable (x : CastRecord) : Prop where
  dst : Unpaired x.dst.toList
  src : Unpaired x.src.toList
  location : x.location.Restorable

theorem restorable_casts {x : CastRecord} (hx : x ∈ (Document.ofMembers members).casts.records) : x.Restorable := by
  obtain ⟨place, v, hv, hread⟩ := exists_of_mem_readSection h hx
  obtain ⟨m, hm, hread⟩ := exists_of_bind_eq_ok (record_ofExcept hread)
  obtain ⟨l, hl, hread⟩ := exists_of_bind_eq_ok hread
  cases hread
  have hmembers := asRead_of_readRecord hv hm
  exact ⟨unpaired_textAt hmembers _, unpaired_textAt hmembers _, restorable_getD_locationAt hmembers hl⟩

theorem restorable_voids {x : VoidRecord} (hx : x ∈ (Document.ofMembers members).voids.records) :
    x.location.Restorable ∧ Unpaired x.name.toList := by
  obtain ⟨place, v, hv, hread⟩ := exists_of_mem_readSection h hx
  obtain ⟨m, hm, hread⟩ := exists_of_bind_eq_ok (record_ofExcept hread)
  obtain ⟨l, hl, hread⟩ := exists_of_bind_eq_ok hread
  obtain ⟨kind, -, hread⟩ := exists_of_bind_eq_ok hread
  cases hread
  have hmembers := asRead_of_readRecord hv hm
  exact ⟨restorable_getD_locationAt hmembers hl, unpaired_textAt hmembers _⟩

end

end Snapshot

/-! ### Tables -/

/-- The types and the places of a group of casts are restored. -/
structure CastGroup.Restorable (g : CastGroup) : Prop where
  dst : Unpaired g.dst.toList
  src : Unpaired g.src.toList
  locations : ∀ l ∈ g.locations, l.Restorable

theorem CastTable.restorable_add {t : CastTable} {dst src : Text} {l : Location} (ht : ∀ g ∈ t, g.Restorable)
    (hdst : Unpaired dst.toList) (hsrc : Unpaired src.toList) (hl : l.Restorable) :
    ∀ g ∈ t.add dst src l, g.Restorable := by
  have hsingle : ∀ m ∈ [l], m.Restorable := List.forall_mem_singleton.2 hl
  induction t with
  | nil => exact List.forall_mem_singleton.2 ⟨hdst, hsrc, hsingle⟩
  | cons g rest ih =>
    obtain ⟨hg, hrest⟩ := List.forall_mem_cons.1 ht
    rw [add]
    split
    · exact List.forall_mem_cons.2 ⟨⟨hg.dst, hg.src, List.forall_mem_append.2 ⟨hg.locations, hsingle⟩⟩, hrest⟩
    · exact List.forall_mem_cons.2 ⟨hg, ih hrest⟩

theorem CastTable.restorable_toJson {t : CastTable} (ht : ∀ g ∈ t, g.Restorable) (room : Nat) :
    ∀ v ∈ t.toJson, Json.Restorable (room + 3) v := by
  intro v hv
  obtain ⟨g, hg, rfl⟩ := List.mem_map.1 hv
  have hlocations : Json.Restorable (room + 2) (.list (g.locations.map fun l => .obj l.toMembers)) := by
    refine .list fun v hv => ?_
    obtain ⟨l, hl, rfl⟩ := List.mem_map.1 hv
    exact ((ht g hg).locations l hl).toMembers room
  refine .of_plain_keys ?_ ?_ fun m hm => ?_
  · change ∀ key ∈ (["Dst", "Src", "Locs"] : List Text), key.IsPlain
    decide +kernel
  · change (["Dst", "Src", "Locs"] : List Text).Nodup
    decide +kernel
  · simp only [List.mem_cons, List.not_mem_nil, or_false] at hm
    rcases hm with rfl | rfl | rfl
    · exact .str (ht g hg).dst
    · exact .str (ht g hg).src
    · exact hlocations

/-- The name and the place of a void declaration are restored. -/
structure VoidDecl.Restorable (d : VoidDecl) : Prop where
  location : d.location.Restorable
  name : Unpaired d.name.toList

namespace VoidTable
variable {t : VoidTable} {l : Location} {name : Text}

theorem restorable_add (ht : ∀ d ∈ t, d.Restorable) (hl : l.Restorable) (hname : Unpaired name.toList) :
    ∀ d ∈ t.add l name, d.Restorable := by
  unfold add
  split
  · exact ht
  · exact List.forall_mem_append.2 ⟨ht, List.forall_mem_singleton.2 ⟨hl, hname⟩⟩

theorem restorable_nameTypedef (ht : ∀ d ∈ t, d.Restorable) (hl : l.Restorable) :
    ∀ d ∈ t.nameTypedef l name, d.Restorable := by
  induction t with
  | nil => exact ht
  | cons d rest ih =>
    obtain ⟨hd, hrest⟩ := List.forall_mem_cons.1 ht
    rw [nameTypedef]
    split
    · refine List.forall_mem_cons.2 ⟨⟨?_, hd.name⟩, hrest⟩
      dsimp only
      split
      · exact hl
      · exact hd.location
    · exact List.forall_mem_cons.2 ⟨hd, ih hrest⟩

theorem restorable_setKind (kind : VoidKind) (name : Text) (ht : ∀ d ∈ t, d.Restorable) (hl : l.Restorable) :
    ∀ d ∈ t.setKind l kind name, d.Restorable := by
  unfold setKind
  split
  · intro d hd
    obtain ⟨e, he, rfl⟩ := List.mem_map.1 hd
    split
    · exact ⟨(ht e he).location, (ht e he).name⟩
    · exact ht e he
  · split
    · exact restorable_nameTypedef ht hl
    · exact ht

theorem restorable_setGeneric (generic : Bool) (ht : ∀ d ∈ t, d.Restorable) :
    ∀ d ∈ t.setGeneric l generic, d.Restorable := by
  induction t with
  | nil => exact ht
  | cons d rest ih =>
    obtain ⟨hd, hrest⟩ := List.forall_mem_cons.1 ht
    rw [setGeneric]
    split
    · exact List.forall_mem_cons.2 ⟨⟨hd.location, hd.name⟩, hrest⟩
    · exact List.forall_mem_cons.2 ⟨hd, ih hrest⟩

theorem restorable_toJson (ht : ∀ d ∈ t, d.Restorable) (room : Nat) : ∀ v ∈ t.toJson, Json.Restorable (room + 1) v := by
  intro v hv
  obtain ⟨d, hd, rfl⟩ := List.mem_map.1 hv
  refine .of_plain_keys ?_ ?_ (List.forall_mem_append.2 ⟨(ht d hd).location.of_mem_toMembers room, fun m hm => ?_⟩)
  · change ∀ key ∈ (["file", "line", "colstart", "colend", "type", "name", "generic"] : List Text), key.IsPlain
    decide +kernel
  · change (["file", "line", "colstart", "colend", "type", "name", "generic"] : List Text).Nodup
    decide +kernel
  · simp only [List.mem_cons, List.not_mem_nil, or_false] at hm
    rcases hm with rfl | rfl | rfl
    · have hplain : d.kind.name.IsPlain := by cases d.kind <;> decide +kernel
      exact .str (unpaired_of_halfFree hplain.halfFree)
    · exact .str (ht d hd).name
    · exact .bool d.generic

end VoidTable

namespace Snapshot

variable {members : Members}

theorem restorable_applyVoid {t : VoidTable} {r : VoidRecord} (ht : ∀ d ∈ t, d.Restorable)
    (hr : r.location.Restorable ∧ Unpaired r.name.toList) : ∀ d ∈ applyVoid t r, d.Restorable := by
  have hadd := VoidTable.restorable_add ht hr.1 hr.2
  unfold applyVoid
  dsimp only
  cases r.kind with
  | none =>
    cases r.generic with
    | none => exact hadd
    | some g => exact VoidTable.restorable_setGeneric g hadd
  | some k =>
    have hkind := VoidTable.restorable_setKind k r.name hadd hr.1
    cases r.generic with
    | none => exact hkind
    | some g => exact VoidTable.restorable_setGeneric g hkind

section
variable (h : ∀ m ∈ members, AsRead m.2)
include h

theorem restorable_castTable : ∀ g ∈ (Document.ofMembers members).castTable, g.Restorable := by
  refine List.foldlRecOn (motive := fun t : CastTable => ∀ g ∈ t, g.Restorable) _ _ nofun fun t ht r hr => ?_
  have hrecord := restorable_casts h hr
  exact CastTable.restorable_add ht hrecord.dst hrecord.src hrecord.location

theorem restorable_voidTable : ∀ d ∈ (Document.ofMembers members).voidTable, d.Restorable :=
  List.foldlRecOn (motive := fun t : VoidTable => ∀ d ∈ t, d.Restorable) _ _ nofun fun _ ht _ hr =>
    restorable_applyVoid ht (restorable_voids h hr)

/-! ### Places of roots -/

theorem restorable_place {a : Atom} {l : Location} (hl : (Document.ofMembers members).records.place? a = some l) :
    l.Restorable := by
  rcases Option.or_eq_some_iff.1 hl with hatoms | ⟨-, hroots⟩
  · obtain ⟨x, hx, hplace⟩ := exists_of_lastSome hatoms
    split at hplace
    · exact restorable_atoms h hx hplace
    · cases hplace
  · obtain ⟨x, hx, hplace⟩ := Option.bind_eq_some_iff.1 hroots
    exact restorable_roots h (List.mem_of_find?_eq_some hx) hplace

theorem restorable_diagnostic {a : Atom} {d : Diagnostic} {l : Location}
    (hd : (Document.ofMembers members).records.diagnostic? a = some d) (hl : d.location = some l) : l.Restorable := by
  obtain ⟨x, hx, hdiagnostic⟩ := exists_of_lastSome hd
  split at hdiagnostic
  · cases hdiagnostic
    exact restorable_roots h hx hl
  · cases hdiagnostic

/-- The places of a report on a document that was read. -/
theorem restorable_location_entry {ix : Index} {nameOf : Atom → Text}
    (hix : Situates (Document.ofMembers members).records ix) {e : RootEntry} (he : e ∈ (ix.rootReport nameOf).entries)
    {l : Location} (hl : e.location = some l) : l.Restorable := by
  obtain ⟨a, d, hd, rfl⟩ := Index.mem_rootReport.1 he
  rcases Option.or_eq_some_iff.1 hl with hplace | ⟨-, hplace⟩ <;>
    obtain ⟨hplace, -⟩ := Option.filter_eq_some_iff.1 hplace
  · exact restorable_place h ((hix.location a).symm.trans hplace)
  · exact restorable_diagnostic h ((hix.diagnostic a).symm.trans hd) hplace

theorem restorable_macroLocations {ix : Index} {nameOf : Atom → Text}
    (hix : Situates (Document.ofMembers members).records ix) :
    ∀ l ∈ (ix.rootReport nameOf).macroLocations, l.Restorable := by
  intro l hl
  obtain ⟨e, he, -, hplace⟩ := Index.mem_macroLocations.1 hl
  exact restorable_location_entry h hix he hplace

end

end Snapshot

end Blame
