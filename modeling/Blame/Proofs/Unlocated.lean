import Blame.Proofs.Records
import Blame.Proofs.VoidRows

/-!
# Void declarations without a place

A declaration whose location is absent or not valid is known by that location all the same, and those without one
share the empty location. So of several at one such location only the first is listed, unless it is a typedef that
has been put somewhere in between, and the flags of the others become its own (`stems_of_mem`). Where the records at
such a location are all of one name, nothing is lost by that and nothing marked for another (`KeepsUnlocated`).
-/

namespace Blame

namespace VoidTable
variable {t : VoidTable} {i : Nat} {d d' : VoidDecl}

/-- At a location that is not valid stands one declaration at most, and the flag is its own. -/
theorem Tidy.row_setGeneric (h : t.Tidy) (l : Location) (generic : Bool) (hd : t[i]? = some d)
    (hplace : d.location.valid = false) :
    (setGeneric l generic t)[i]? = some (if d.location = l then { d with generic } else d) := by
  induction t generalizing i with
  | nil => cases hd
  | cons e rest ih =>
    obtain ⟨hfirst, hrest⟩ := List.pairwise_cons.1 h
    rw [setGeneric]
    cases i with
    | zero =>
      cases hd
      split <;> rfl
    | succ i =>
      split
      · rename_i hhere
        have hother : d.location ≠ l := by
          rintro rfl
          have hvalid := (hfirst d (List.mem_of_getElem? hd) hhere).right.place
          rw [hplace] at hvalid
          cases hvalid
        rw [if_neg hother]
        exact hd
      · exact ih hrest hd

theorem Tidy.perform (h : t.Tidy) (c : VoidCall) : (t.perform c).Tidy := h.step (step_perform t c)

theorem Tidy.foldl (h : t.Tidy) (calls : List VoidCall) : (calls.foldl VoidTable.perform t).Tidy := by
  induction calls generalizing t with
  | nil => exact h
  | cons c rest ih => exact ih (h.perform c)

theorem length_setGeneric (l : Location) (generic : Bool) (t : VoidTable) :
    (setGeneric l generic t).length = t.length :=
  (forall₂_setGeneric l generic t).length_eq.symm

theorem length_setKind (l : Location) (kind : VoidKind) (name : Text) (t : VoidTable) :
    (setKind l kind name t).length = t.length := by
  have hstep : Step t (.setKind l kind name) (setKind l kind name t) := step_setKind t l kind name
  generalize setKind l kind name t = t' at hstep
  cases hstep with
  | kept hkept _ => exact hkept.length_eq.symm
  | moved _ _ ht _ => simp [ht]

theorem row_of_add {l : Location} {name : Text} (h : (add l name t)[i]? = some d) :
    t[i]? = some d ∨ (∀ e ∈ t, e.location ≠ l) ∧ d = { location := l, name } := by
  rw [add] at h
  split at h
  · exact .inl h
  · rename_i hfree
    rcases Nat.lt_or_ge i t.length with hi | hi
    · rw [List.getElem?_append_left hi] at h
      exact .inl h
    · rw [List.getElem?_append_right hi] at h
      refine .inr ⟨fun e he hplace => hfree ?_, List.mem_singleton.1 (List.mem_of_getElem? h)⟩
      exact List.any_eq_true.2 ⟨e, he, beq_iff_eq.2 hplace⟩

theorem Grows.exists_name {t' : VoidTable} (h : t.Grows t') (hd : d ∈ t) : ∃ e ∈ t', e.name = d.name :=
  List.mem_map.1 (h.names.subset (List.mem_map_of_mem hd))

end VoidTable

namespace Snapshot

open VoidTable

variable {records : List VoidRecord} {t : VoidTable} {i : Nat} {d e : VoidDecl}

/-- The table of the void declarations in the records. -/
def tableOf (records : List VoidRecord) : VoidTable := after (records.flatMap VoidRecord.calls)

/-- No declaration stands at the location of the record when those before it are taken over. -/
def FindsRoom (before : List VoidRecord) (r : VoidRecord) : Prop := ∀ d ∈ tableOf before, d.location ≠ r.location

/-- The last flag that the records give a location. -/
def flagAt (l : Location) (records : List VoidRecord) : Bool :=
  (lastSome (fun r => if r.location = l then r.generic else none) records).getD false

/-- A declaration without a valid location is listed, and it is marked only if a record of its name says so. -/
structure KeepsUnlocated (records : List VoidRecord) (t : VoidTable) : Prop where
  listed : ∀ r ∈ records, r.location.valid = false → ∃ e ∈ t, e.name = r.name
  marked : ∀ e ∈ t, e.location.valid = false → e.generic = true →
    ∃ r ∈ records, r.name = e.name ∧ r.generic = some true

/-- No location that is not valid is given by records of different names. -/
def Uncrowded (records : List VoidRecord) : Prop :=
  ∀ r ∈ records, ∀ q ∈ records, r.location.valid = false → r.location = q.location → r.name = q.name

/-- The entry goes back to a record that found room. If it has no valid location, that is the location of the record
and the flag is the last that any record has given it since. -/
def Stems (records : List VoidRecord) (e : VoidDecl) : Prop :=
  ∃ before r after, records = before ++ r :: after ∧ FindsRoom before r ∧ r.name = e.name ∧
    (e.location.valid = false → r.location = e.location ∧ e.generic = flagAt e.location (r :: after))

/-! ### One record -/

/-- The calls about a declaration that is in the table. -/
def VoidRecord.details (r : VoidRecord) : List VoidCall := r.calls.tail

theorem tableOf_concat (records : List VoidRecord) (r : VoidRecord) :
    tableOf (records ++ [r]) = r.details.foldl perform (add r.location r.name (tableOf records)) := by
  rw [tableOf, List.flatMap_append, List.flatMap_singleton, after_append]
  rfl

theorem tidy_tableOf (records : List VoidRecord) : (tableOf records).Tidy := tidy_after _

theorem grows_tableOf (before after : List VoidRecord) : (tableOf before).Grows (tableOf (before ++ after)) := by
  rw [tableOf, tableOf, List.flatMap_append]
  exact grows_after _ _

theorem length_details (r : VoidRecord) (t : VoidTable) : (r.details.foldl perform t).length = t.length := by
  obtain ⟨l, name, kind, generic⟩ := r
  cases kind with
  | none =>
    cases generic with
    | none => rfl
    | some generic => exact length_setGeneric l generic t
  | some kind =>
    cases generic with
    | none => exact length_setKind l kind name t
    | some generic => exact (length_setGeneric l generic _).trans (length_setKind l kind name t)

theorem row_kind (l : Location) (name : Text) (kind : Option VoidKind) (hd : t[i]? = some d) :
    ∃ e, ((kind.map fun kind => VoidCall.setKind l kind name).toList.foldl perform t)[i]? = some e ∧
      e.generic = d.generic := by
  cases kind with
  | none => exact ⟨d, hd, rfl⟩
  | some kind =>
    obtain ⟨e, he, hbecomes⟩ := row_setKind l kind name hd
    refine ⟨e, he, ?_⟩
    cases hbecomes <;> rfl

theorem row_generic (h : t.Tidy) (l : Location) (generic : Option Bool) (hd : t[i]? = some d)
    (hplace : d.location.valid = false) :
    ∃ e, ((generic.map fun generic => VoidCall.setGeneric l generic).toList.foldl perform t)[i]? = some e ∧
      e.generic = (if l = d.location then generic else none).getD d.generic := by
  cases generic with
  | none => exact ⟨d, hd, by simp⟩
  | some generic =>
    refine ⟨_, h.row_setGeneric l generic hd hplace, ?_⟩
    by_cases hl : l = d.location
    · simp [hl]
    · simp [hl, Ne.symm hl]

/-- The kind leaves the flag alone, and then the record may set it. -/
theorem row_details (r : VoidRecord) (h : t.Tidy) (hd : t[i]? = some d) :
    ∃ e, (r.details.foldl perform t)[i]? = some e ∧ d.Grown e ∧
      (e.location.valid = false →
        e.generic = (if r.location = d.location then r.generic else none).getD d.generic) := by
  obtain ⟨l, name, kind, generic⟩ := r
  let kindCalls := (kind.map fun kind => VoidCall.setKind l kind name).toList
  let genericCalls := (generic.map fun generic => VoidCall.setGeneric l generic).toList
  have hdetails : VoidRecord.details ⟨l, name, kind, generic⟩ = kindCalls ++ genericCalls := rfl
  obtain ⟨d', hd', hflag⟩ := row_kind l name kind hd
  obtain ⟨_, hd₂, hgrown⟩ := grows_foldl kindCalls t i d hd
  obtain rfl := Option.some.inj (hd'.symm.trans hd₂)
  obtain ⟨e, he, hgrown'⟩ := grows_foldl genericCalls (kindCalls.foldl perform t) i d' hd'
  rw [hdetails, List.foldl_append]
  refine ⟨e, he, hgrown.trans hgrown', fun hplace => ?_⟩
  have hlast : e.location = d'.location := hgrown'.location_of_invalid hplace
  have hplace' : d'.location.valid = false := hlast ▸ hplace
  obtain ⟨_, he₂, hflag'⟩ := row_generic (h.foldl kindCalls) l generic hd' hplace'
  obtain rfl := Option.some.inj (he.symm.trans he₂)
  rw [hflag', hflag, hgrown.location_of_invalid hplace']

/-! ### Where the entries come from -/

theorem flagAt_concat (l : Location) (records : List VoidRecord) (r : VoidRecord) :
    flagAt l (records ++ [r]) = (if r.location = l then r.generic else none).getD (flagAt l records) := by
  rw [flagAt, lastSome_concat, flagAt]
  cases (if r.location = l then r.generic else none) <;> rfl

theorem stems_of_mem (he : e ∈ tableOf records) : Stems records e := by
  induction records using List.reverseRecOn generalizing e with
  | nil => exact absurd he List.not_mem_nil
  | append_singleton records r ih =>
    rw [tableOf_concat] at he
    obtain ⟨i, hi⟩ := List.mem_iff_getElem?.1 he
    have hlt : i < (add r.location r.name (tableOf records)).length := by
      rw [← length_details r]
      exact (List.getElem?_eq_some_iff.1 hi).1
    have hd := List.getElem?_eq_getElem hlt
    generalize (add r.location r.name (tableOf records))[i] = d at hd
    have htidy : (add r.location r.name (tableOf records)).Tidy :=
      (tidy_tableOf records).perform (.add r.location r.name)
    obtain ⟨_, hi₂, hgrown, hflag⟩ := row_details r htidy hd
    obtain rfl := Option.some.inj (hi.symm.trans hi₂)
    rcases row_of_add hd with hold | ⟨hroom, rfl⟩
    · obtain ⟨before, q, after, rfl, hroom, hname, hplaced⟩ := ih (List.mem_of_getElem? hold)
      refine ⟨before, q, after ++ [r], by simp, hroom, hname.trans hgrown.name.symm, fun hplace => ?_⟩
      have hsame : e.location = d.location := hgrown.location_of_invalid hplace
      obtain ⟨hq, hbefore⟩ := hplaced (hsame ▸ hplace)
      rw [hflag hplace, hbefore, hsame, ← List.cons_append, flagAt_concat]
      exact ⟨hq, rfl⟩
    · refine ⟨records, r, [], rfl, hroom, hgrown.name.symm, fun hplace => ?_⟩
      have hsame : e.location = r.location := hgrown.location_of_invalid hplace
      rw [hflag hplace, hsame, ← List.nil_append [r], flagAt_concat]
      exact ⟨rfl, rfl⟩

theorem FindsRoom.listed {before : List VoidRecord} {r : VoidRecord} (h : FindsRoom before r)
    (after : List VoidRecord) : ∃ e ∈ tableOf (before ++ r :: after), e.name = r.name := by
  have hfree : ¬ (tableOf before).any (·.location == r.location) = true := by
    rw [List.any_eq_true]
    rintro ⟨d, hd, hplace⟩
    exact h d hd (beq_iff_eq.1 hplace)
  have hnew : ⟨r.location, r.name, .unknown, false⟩ ∈ add r.location r.name (tableOf before) := by
    rw [add, if_neg hfree]
    exact List.mem_append_right _ List.mem_cons_self
  obtain ⟨d, hd, hname⟩ := (grows_foldl r.details _).exists_name hnew
  rw [← tableOf_concat] at hd
  obtain ⟨e, he, hname'⟩ := (grows_tableOf (before ++ [r]) after).exists_name hd
  rw [List.append_assoc] at he
  exact ⟨e, he, hname'.trans hname⟩

/-- A declaration without a valid location is listed, or it is lost to another one that came before it. -/
theorem listed_or_lost (before : List VoidRecord) {r : VoidRecord} (hplace : r.location.valid = false)
    (after : List VoidRecord) :
    (∃ e ∈ tableOf (before ++ r :: after), e.name = r.name) ∨
    ∃ q ∈ before, q.location = r.location ∧ q.name ≠ r.name ∧
      ∃ e ∈ tableOf (before ++ r :: after), e.name = q.name := by
  by_cases hroom : FindsRoom before r
  · exact .inl (hroom.listed after)
  obtain ⟨d, hd, hhere⟩ : ∃ d ∈ tableOf before, d.location = r.location := by
    simpa [FindsRoom] using hroom
  obtain ⟨e, he, hname⟩ := (grows_tableOf before (r :: after)).exists_name hd
  by_cases hsame : d.name = r.name
  · exact .inl ⟨e, he, hname.trans hsame⟩
  · obtain ⟨_, q, _, rfl, -, hq, hplaced⟩ := stems_of_mem hd
    obtain ⟨hlocation, -⟩ := hplaced (hhere ▸ hplace)
    exact .inr ⟨q, by simp, hlocation.trans hhere, hq ▸ hsame, e, he, hname.trans hq.symm⟩

theorem exists_of_flagAt {l : Location} (h : flagAt l records = true) :
    ∃ r ∈ records, r.location = l ∧ r.generic = some true := by
  cases hlast : lastSome (fun r : VoidRecord => if r.location = l then r.generic else none) records with
  | none => simp [flagAt, hlast] at h
  | some flag =>
    obtain rfl : flag = true := by simpa [flagAt, hlast] using h
    obtain ⟨r, hr, hflag⟩ := List.exists_of_findSome?_eq_some hlast
    split at hflag
    · exact ⟨r, List.mem_reverse.1 hr, ‹_›, hflag⟩
    · cases hflag

theorem keepsUnlocated_of_uncrowded (h : Uncrowded records) : KeepsUnlocated records (tableOf records) where
  listed r hr hplace := by
    obtain ⟨before, after, rfl⟩ := List.append_of_mem hr
    rcases listed_or_lost before hplace after with hlisted | ⟨q, hq, hhere, hname, -⟩
    · exact hlisted
    · exact absurd (h r hr q (List.mem_append_left _ hq) hplace hhere.symm).symm hname
  marked e he hplace hgeneric := by
    obtain ⟨before, q, after, rfl, -, hname, hplaced⟩ := stems_of_mem he
    obtain ⟨hq, hflag⟩ := hplaced hplace
    obtain ⟨r, hr, hhere, hmark⟩ := exists_of_flagAt (hflag ▸ hgeneric)
    have hr' : r ∈ before ++ q :: after := List.mem_append_right _ hr
    have hsame : r.name = q.name :=
      h r hr' q (List.mem_append_right _ List.mem_cons_self) (hhere ▸ hplace) (hhere.trans hq.symm)
    exact ⟨r, hr', hsame.trans hname, hmark⟩

/-- The void declarations of any snapshot. A name is listed iff a record of that name has found no other declaration
at its location. One without a valid location is lost only to an earlier one of that location and another name, which
is listed; and an entry without a valid location has the last flag that any record has given that location since the
entry was made. So if no such location is given by records of different names, no declaration without a valid location
is lost or marked for another. -/
theorem unlocated_merged (d : Document) :
    let records := d.voids.records
    (∀ name, (∃ e ∈ d.voidTable, e.name = name) ↔
      ∃ before r after, records = before ++ r :: after ∧ FindsRoom before r ∧ r.name = name) ∧
    (∀ before r after, records = before ++ r :: after → r.location.valid = false →
      (∃ e ∈ d.voidTable, e.name = r.name) ∨
      ∃ q ∈ before, q.location = r.location ∧ q.name ≠ r.name ∧ ∃ e ∈ d.voidTable, e.name = q.name) ∧
    (∀ e ∈ d.voidTable, e.location.valid = false →
      ∃ before r after, records = before ++ r :: after ∧ FindsRoom before r ∧ r.name = e.name ∧
        r.location = e.location ∧ e.generic = flagAt e.location (r :: after)) ∧
    (Uncrowded records → KeepsUnlocated records d.voidTable) := by
  intro records
  rw [d.voidTable_eq_after]
  refine ⟨fun name => ⟨?_, ?_⟩, ?_, fun e he hplace => ?_, keepsUnlocated_of_uncrowded⟩
  · rintro ⟨e, he, rfl⟩
    obtain ⟨before, r, after, hrecords, hroom, hname, -⟩ := stems_of_mem he
    exact ⟨before, r, after, hrecords, hroom, hname⟩
  · rintro ⟨before, r, after, hrecords, hroom, rfl⟩
    obtain ⟨e, he, hname⟩ := hroom.listed after
    rw [← hrecords] at he
    exact ⟨e, he, hname⟩
  · intro before r after hrecords hplace
    have hcases := listed_or_lost before hplace after
    rw [← hrecords] at hcases
    exact hcases
  · obtain ⟨before, r, after, hrecords, hroom, hname, hplaced⟩ := stems_of_mem he
    exact ⟨before, r, after, hrecords, hroom, hname, hplaced hplace⟩

/-- Two declarations without a location, of which the second is generic. -/
def unlocatedMembers : Members :=
  [("roots", .list []),
    ("voids", .list [.obj [("name", .str "p")], .obj [("name", .str "q"), ("generic", .bool true)]])]

/-- The second is lost, and the first is marked for it. -/
theorem merged_unlocatedMembers :
    let d := Document.ofMembers unlocatedMembers
    (load (.ofPred fun _ => true) () {} d).error = none ∧
    d.voids.records = [⟨{}, "p", none, none⟩, ⟨{}, "q", none, some true⟩] ∧
    d.voidTable = [⟨{}, "p", .unknown, true⟩] ∧
    (¬ ∃ e ∈ d.voidTable, e.name = "q") ∧
    (¬ ∃ r ∈ d.voids.records, r.name = "p" ∧ r.generic = some true) ∧
    ¬ KeepsUnlocated d.voids.records d.voidTable := by
  intro d
  have htable : d.voidTable = [⟨{}, "p", .unknown, true⟩] := by decide
  have hlost : ¬ ∃ e ∈ d.voidTable, e.name = "q" := by
    rw [htable]
    decide
  refine ⟨rfl, by decide, htable, hlost, by decide, fun h => hlost ?_⟩
  exact h.listed ⟨{}, "q", none, some true⟩ (by decide) (by decide)

end Snapshot

end Blame
