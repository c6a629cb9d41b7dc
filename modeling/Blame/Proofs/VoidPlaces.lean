import Blame.Snapshot.Load
import Mathlib.Data.List.Infix
import Mathlib.Data.List.Nodup

/-!
# Places of void declarations

A void declaration is added only where none stands yet, but a typedef can be seen before its place is known: it is
found by its name later on and put where it is then said to stand. Whether something stands there is not looked at.
So two declarations can come to share a location, and this is the only way (`Collides`): what is put there is a
typedef, and all that stood there already had their kinds (`Tidy`). A declaration that has a valid location and a
kind keeps both, so a location that is shared once is shared for good.
-/

namespace Blame

/-- A call that changes a table of void declarations. -/
inductive VoidCall where
  | add (l : Location) (name : Text)
  | setKind (l : Location) (kind : VoidKind) (name : Text)
  | setGeneric (l : Location) (generic : Bool)

namespace VoidDecl

/-- A declaration that is looked up by its name, as its place is not known and neither is its kind. -/
structure Unplaced (name : Text) (d : VoidDecl) : Prop where
  place : d.location.valid = false
  name : d.name = name
  kind : d.kind = .unknown

/-- A declaration that no call moves and whose kind no call changes. -/
structure Settled (d : VoidDecl) : Prop where
  place : d.location.valid = true
  kind : d.kind ≠ .unknown

/-- The first declaration has become the second, at the same location; a known kind is kept. -/
structure KeptAs (d d' : VoidDecl) : Prop where
  location : d'.location = d.location
  kind : d.kind ≠ .unknown → d'.kind = d.kind

/-- What two declarations at one location have in common. -/
structure MayShare (d e : VoidDecl) : Prop where
  left : d.Settled
  right : e.Settled
  typedef : d.kind = .typedef ∨ e.kind = .typedef

variable {d d' e e' : VoidDecl} {name : Text}

theorem KeptAs.refl (d : VoidDecl) : d.KeptAs d := ⟨rfl, fun _ => rfl⟩

theorem Settled.not_unplaced (h : d.Settled) : ¬ d.Unplaced name := fun hu => h.kind hu.kind

theorem Settled.kept (h : d.Settled) (hd : d.KeptAs d') : d'.Settled :=
  ⟨hd.location ▸ h.place, hd.kind h.kind ▸ h.kind⟩

theorem MayShare.symm (h : d.MayShare e) : e.MayShare d := ⟨h.right, h.left, h.typedef.symm⟩

theorem MayShare.kept (h : d.MayShare e) (hd : d.KeptAs d') (he : e.KeptAs e') : d'.MayShare e' where
  left := h.left.kept hd
  right := h.right.kept he
  typedef := by rw [hd.kind h.left.kind, he.kind h.right.kind]; exact h.typedef

end VoidDecl

namespace VoidTable
variable {t t' : VoidTable} {l : Location} {name : Text} {c : VoidCall}

def perform (t : VoidTable) : VoidCall → VoidTable
  | .add l name => add l name t
  | .setKind l kind name => setKind l kind name t
  | .setGeneric l generic => setGeneric l generic t

/-- The table after a run of calls on an empty one. -/
def after (calls : List VoidCall) : VoidTable := calls.foldl perform []

/-- No two declarations have one location. -/
def Distinct (t : VoidTable) : Prop := (t.map VoidDecl.location).Nodup

instance (t : VoidTable) : Decidable t.Distinct := inferInstanceAs (Decidable (List.Nodup _))

/-- Declarations share a location only if it is valid, they have their kinds and at most one of them is no typedef. -/
def Tidy (t : VoidTable) : Prop := t.Pairwise fun d e => d.location = e.location → d.MayShare e

/-- A call that puts a typedef where another declaration stands: no declaration at the location waits for a kind,
so a typedef of that name is looked up, and there is one. -/
inductive Collides (t : VoidTable) : VoidCall → Prop
  | typedef {l : Location} {name : Text} {d e : VoidDecl} (hvalid : l.valid = true) (hd : d ∈ t)
      (hplace : d.location = l) (hkinds : ∀ d ∈ t, d.location = l → d.kind ≠ .unknown) (he : e ∈ t)
      (hunplaced : e.Unplaced name) : Collides t (.setKind l .typedef name)

/-! ### What a call does -/

/-- The three things a call can do to a table: add a declaration where there was none, leave all of them where they
are, or put a typedef that had no place to a valid location where no declaration waits for its kind. -/
inductive Step (t : VoidTable) : VoidCall → VoidTable → Prop
  | added (l : Location) (name : Text) (hfree : ∀ d ∈ t, d.location ≠ l) :
      Step t (.add l name) (t ++ [{ location := l, name }])
  | kept {c : VoidCall} {t' : VoidTable} (hkept : List.Forall₂ VoidDecl.KeptAs t t') (hc : ¬ t.Collides c) :
      Step t c t'
  | moved {l : Location} {name : Text} {before rest : VoidTable} {d : VoidDecl} (hvalid : l.valid = true)
      (hkinds : ∀ e ∈ t, e.location = l → e.kind ≠ .unknown) (ht : t = before ++ d :: rest)
      (hd : d.Unplaced name) :
      Step t (.setKind l .typedef name) (before ++ { d with kind := .typedef, location := l } :: rest)

theorem forall₂_keptAs_refl (t : VoidTable) : List.Forall₂ VoidDecl.KeptAs t t :=
  List.forall₂_same.2 fun d _ => .refl d

theorem forall₂_setGeneric (l : Location) (generic : Bool) :
    ∀ t : VoidTable, List.Forall₂ VoidDecl.KeptAs t (setGeneric l generic t)
  | [] => .nil
  | d :: rest => by
    rw [setGeneric]
    split
    · exact .cons ⟨rfl, fun _ => rfl⟩ (forall₂_keptAs_refl rest)
    · exact .cons (.refl d) (forall₂_setGeneric l generic rest)

theorem awaitsKind_iff {d : VoidDecl} :
    awaitsKind l d = true ↔ d.location = l ∧ d.kind = .unknown ∧ l.valid = true := by
  simp [awaitsKind, and_assoc]

theorem forall₂_map_kind (l : Location) (kind : VoidKind) (t : VoidTable) :
    List.Forall₂ VoidDecl.KeptAs t (t.map fun d => if awaitsKind l d then { d with kind } else d) := by
  rw [List.forall₂_map_right_iff, List.forall₂_same]
  intro d _
  split
  · exact ⟨rfl, fun hk => absurd (awaitsKind_iff.1 ‹_›).2.1 hk⟩
  · exact .refl d

/-- The first typedef of the name without a place gets its kind and, if it is valid, the location. -/
theorem nameTypedef_cases (l : Location) (name : Text) (t : VoidTable) :
    (∀ d ∈ t, ¬ d.Unplaced name) ∧ nameTypedef l name t = t ∨
    ∃ before d rest, t = before ++ d :: rest ∧ d.Unplaced name ∧ nameTypedef l name t =
      before ++ { d with kind := .typedef, location := if l.valid then l else d.location } :: rest := by
  induction t with
  | nil => exact .inl ⟨by simp, rfl⟩
  | cons d rest ih =>
    by_cases hd : d.Unplaced name
    · refine .inr ⟨[], d, rest, rfl, hd, ?_⟩
      simp [nameTypedef, hd.place, hd.name, hd.kind]
    · have hnext : nameTypedef l name (d :: rest) = d :: nameTypedef l name rest := by
        rw [nameTypedef, if_neg]
        intro h
        simp only [Bool.and_eq_true, Bool.not_eq_true', beq_iff_eq] at h
        exact hd ⟨h.1.1, h.1.2, h.2⟩
      obtain ⟨hnone, hrest⟩ | ⟨before, e, tail, rfl, he, hrest⟩ := ih
      · exact .inl ⟨List.forall_mem_cons.2 ⟨hd, hnone⟩, by rw [hnext, hrest]⟩
      · exact .inr ⟨d :: before, e, tail, rfl, he, by rw [hnext, hrest]; rfl⟩

theorem step_add (t : VoidTable) (l : Location) (name : Text) : Step t (.add l name) (add l name t) := by
  rw [add]
  split
  · exact .kept (forall₂_keptAs_refl t) nofun
  · rename_i hfree
    refine .added l name fun d hd hplace => hfree ?_
    exact List.any_eq_true.2 ⟨d, hd, beq_iff_eq.2 hplace⟩

theorem step_setKind (t : VoidTable) (l : Location) (kind : VoidKind) (name : Text) :
    Step t (.setKind l kind name) (setKind l kind name t) := by
  rw [setKind]
  by_cases hwaits : t.any (awaitsKind l) = true
  · rw [if_pos hwaits]
    refine .kept (forall₂_map_kind l kind t) ?_
    rintro ⟨-, -, -, hkinds, -, -⟩
    obtain ⟨d, hd, hwaits⟩ := List.any_eq_true.1 hwaits
    obtain ⟨hplace, hkind, -⟩ := awaitsKind_iff.1 hwaits
    exact hkinds d hd hplace hkind
  rw [if_neg hwaits]
  by_cases hkind : kind = .typedef
  swap
  · rw [if_neg hkind]
    refine .kept (forall₂_keptAs_refl t) ?_
    rintro ⟨-⟩
    exact hkind rfl
  subst hkind
  rw [if_pos rfl]
  obtain ⟨hnone, hsame⟩ | ⟨before, d, rest, rfl, hd, hnamed⟩ := nameTypedef_cases l name t
  · rw [hsame]
    refine .kept (forall₂_keptAs_refl t) ?_
    rintro ⟨-, -, -, -, he, hunplaced⟩
    exact hnone _ he hunplaced
  rw [hnamed]
  cases hvalid : l.valid with
  | true =>
    refine .moved hvalid (fun e he hplace hunknown => hwaits ?_) rfl hd
    exact List.any_eq_true.2 ⟨e, he, awaitsKind_iff.2 ⟨hplace, hunknown, hvalid⟩⟩
  | false =>
    refine .kept ?_ ?_
    · refine List.rel_append (forall₂_keptAs_refl before) (.cons ?_ (forall₂_keptAs_refl rest))
      exact ⟨rfl, fun hk => absurd hd.kind hk⟩
    · rintro ⟨htrue, -⟩
      rw [hvalid] at htrue
      cases htrue

theorem step_perform (t : VoidTable) (c : VoidCall) : Step t c (t.perform c) := by
  cases c with
  | add l name => exact step_add t l name
  | setKind l kind name => exact step_setKind t l kind name
  | setGeneric l generic => exact .kept (forall₂_setGeneric l generic t) nofun

/-! ### Declarations at one location -/

theorem Tidy.kept (h : t.Tidy) (hkept : List.Forall₂ VoidDecl.KeptAs t t') : t'.Tidy := by
  refine List.pairwise_iff_getElem.2 fun i j hi' hj' hij hplace => ?_
  have hi : i < t.length := hkept.length_eq ▸ hi'
  have hj : j < t.length := hkept.length_eq ▸ hj'
  have hfirst : t[i].KeptAs t'[i] := hkept.get hi hi'
  have hsecond : t[j].KeptAs t'[j] := hkept.get hj hj'
  refine (List.pairwise_iff_getElem.1 h i j hi hj hij ?_).kept hfirst hsecond
  rw [← hfirst.location, ← hsecond.location]
  exact hplace

theorem map_location_of_kept (hkept : List.Forall₂ VoidDecl.KeptAs t t') :
    t'.map VoidDecl.location = t.map VoidDecl.location := by
  rw [← List.forall₂_eq_eq_eq, List.forall₂_map_left_iff, List.forall₂_map_right_iff]
  exact (hkept.imp fun _ _ h => h.location).flip

theorem mem_middle_of_mem {before rest : VoidTable} {d e : VoidDecl} (he : e ∈ before ++ rest) :
    e ∈ before ++ d :: rest :=
  ((List.sublist_cons_self d rest).append_left before).mem he

theorem tidy_middle_iff {before rest : VoidTable} {d : VoidDecl} :
    Tidy (before ++ d :: rest) ↔
      (∀ e ∈ before ++ rest, d.location = e.location → d.MayShare e) ∧ Tidy (before ++ rest) := by
  rw [Tidy, List.pairwise_middle fun h hplace => (h hplace.symm).symm, List.pairwise_cons]
  rfl

theorem distinct_middle_iff {before rest : VoidTable} {d : VoidDecl} :
    Distinct (before ++ d :: rest) ↔
      (∀ e ∈ before ++ rest, e.location ≠ d.location) ∧ Distinct (before ++ rest) := by
  rw [Distinct, List.map_append, List.map_cons, List.nodup_middle, ← List.map_append, List.nodup_cons, List.mem_map]
  simp only [not_exists, not_and, Distinct, ne_eq]

/-- A typedef is moved out of an invalid location, where it shares nothing in a tidy table; so it shares its new
location with exactly those that stand there already. -/
theorem collides_moved_iff {before rest : VoidTable} {d : VoidDecl} (hvalid : l.valid = true)
    (hkinds : ∀ e ∈ before ++ d :: rest, e.location = l → e.kind ≠ .unknown) (hd : d.Unplaced name) :
    Collides (before ++ d :: rest) (.setKind l .typedef name) ↔ ∃ e ∈ before ++ rest, e.location = l := by
  constructor
  · rintro ⟨-, he, hplace, -, -, -⟩
    rcases List.mem_append.1 he with he | he
    · exact ⟨_, List.mem_append_left _ he, hplace⟩
    · rcases List.mem_cons.1 he with rfl | he
      · rw [← hplace, hd.place] at hvalid
        cases hvalid
      · exact ⟨_, List.mem_append_right _ he, hplace⟩
  · rintro ⟨e, he, hplace⟩
    exact .typedef hvalid (mem_middle_of_mem he) hplace hkinds (List.mem_append_right _ List.mem_cons_self) hd

theorem Tidy.step (h : t.Tidy) (hs : t.Step c t') : t'.Tidy := by
  cases hs with
  | added l name hfree =>
    refine tidy_middle_iff.2 ⟨fun d hd hplace => absurd hplace.symm (hfree d ?_), ?_⟩
    · rwa [List.append_nil] at hd
    · rwa [List.append_nil]
  | kept hkept _ => exact h.kept hkept
  | @moved l name before rest d hvalid hkinds ht hd =>
    subst ht
    refine tidy_middle_iff.2 ⟨fun e he hplace => ?_, (tidy_middle_iff.1 h).2⟩
    have hknown : e.kind ≠ .unknown := hkinds e (mem_middle_of_mem he) hplace.symm
    exact ⟨⟨hvalid, nofun⟩, ⟨hplace ▸ hvalid, hknown⟩, .inl rfl⟩

/-- In a tidy table it can be told from the call whether a location gets a second declaration, and no call takes
one away again. -/
theorem Tidy.distinct_step_iff (h : t.Tidy) (hs : t.Step c t') : t'.Distinct ↔ t.Distinct ∧ ¬ t.Collides c := by
  cases hs with
  | added l name hfree =>
    have hc : ¬ t.Collides (.add l name) := nofun
    rw [distinct_middle_iff, List.append_nil, and_iff_right hfree, and_iff_left hc]
  | kept hkept hc => rw [and_iff_left hc, Distinct, map_location_of_kept hkept, Distinct]
  | @moved l name before rest d hvalid hkinds ht hd =>
    subst ht
    have hfree : ∀ e ∈ before ++ rest, e.location ≠ d.location := fun e he hplace =>
      ((tidy_middle_iff.1 h).1 e he hplace.symm).left.not_unplaced hd
    rw [distinct_middle_iff, distinct_middle_iff, and_iff_right hfree, collides_moved_iff hvalid hkinds hd, and_comm]
    simp only [not_exists, not_and, ne_eq]

/-! ### Runs -/

theorem after_concat (calls : List VoidCall) (c : VoidCall) : after (calls ++ [c]) = (after calls).perform c :=
  List.foldl_concat ..

theorem tidy_after (calls : List VoidCall) : (after calls).Tidy := by
  induction calls using List.reverseRecOn with
  | nil => exact .nil
  | append_singleton calls c ih =>
    rw [after_concat]
    exact ih.step (step_perform _ c)

theorem distinct_after_concat_iff (calls : List VoidCall) (c : VoidCall) :
    (after (calls ++ [c])).Distinct ↔ (after calls).Distinct ∧ ¬ (after calls).Collides c := by
  rw [after_concat]
  exact (tidy_after calls).distinct_step_iff (step_perform _ c)

/-- After any run of calls on an empty table, declarations share a location only if it is valid, they have their
kinds and at most one of them is no typedef. The locations are distinct iff no call of the run has put a typedef
where another declaration stood. -/
theorem shared_only_by_typedefs (calls : List VoidCall) :
    (after calls).Tidy ∧
    ((after calls).Distinct ↔ ∀ before c, before ++ [c] <+: calls → ¬ (after before).Collides c) := by
  refine ⟨tidy_after calls, ?_⟩
  induction calls using List.reverseRecOn with
  | nil => simp [after, Distinct]
  | append_singleton calls c ih =>
    rw [distinct_after_concat_iff, ih]
    simp only [List.prefix_concat_iff]
    constructor
    · rintro ⟨hbefore, hc⟩ before c' (heq | hprefix)
      · obtain ⟨rfl, hlast⟩ := List.append_inj' heq rfl
        cases hlast
        exact hc
      · exact hbefore before c' hprefix
    · intro h
      exact ⟨fun before c' hprefix => h before c' (.inr hprefix), h calls c (.inl rfl)⟩

/-- A variable gets its kind; then a typedef, whose place was not known, is found by its name and put there. -/
def typedefLast (l : Location) (variableName typeName : Text) : List VoidCall :=
  [.add l variableName, .setKind l .local variableName, .add {} typeName, .setKind l .typedef typeName]

theorem sharedPlace_typedefLast :
    let t := after (typedefLast ⟨"a.c", 3, 1, 4⟩ "x" "t")
    ¬ t.Distinct ∧
    t.map (fun d => (d.name, d.location)) = [(("x" : Text), ⟨"a.c", 3, 1, 4⟩), ("t", ⟨"a.c", 3, 1, 4⟩)] :=
  ⟨by decide, by decide⟩

end VoidTable

namespace Snapshot

/-! ### The void declarations of a snapshot -/

/-- The calls by which a record of a void declaration is taken over. -/
def VoidRecord.calls (r : VoidRecord) : List VoidCall :=
  .add r.location r.name :: ((r.kind.map fun kind => .setKind r.location kind r.name).toList ++
    (r.generic.map fun generic => .setGeneric r.location generic).toList)

theorem applyVoid_eq (t : VoidTable) (r : VoidRecord) : applyVoid t r = r.calls.foldl VoidTable.perform t := by
  obtain ⟨l, name, kind, generic⟩ := r
  cases kind <;> cases generic <;> rfl

theorem Document.voidTable_eq_after (d : Document) :
    d.voidTable = VoidTable.after (d.voids.records.flatMap VoidRecord.calls) := by
  rw [voidTable, VoidTable.after, List.foldl_flatMap]
  exact congrArg (fun step => d.voids.records.foldl step []) (funext₂ applyVoid_eq)

theorem Document.tidy_voidTable (d : Document) : d.voidTable.Tidy := by
  rw [d.voidTable_eq_after]
  exact VoidTable.tidy_after _

end Snapshot

end Blame
