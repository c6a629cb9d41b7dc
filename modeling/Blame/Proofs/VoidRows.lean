import Blame.Proofs.VoidPlaces

/-!
# Rows of void declarations

A declaration keeps its row in the table, for new ones are put behind all others. What a call can make of a row is
little (`VoidDecl.Becomes`): an unknown kind is found out, a typedef is put where it stands, a flag is set. So a row
keeps its name, a kind and a valid location for good (`VoidDecl.Grown`), and its location changes at most once: the
typedef that is put somewhere has its kind and a valid location from then on.
-/

namespace Blame

namespace VoidDecl

/-- What a call makes of a declaration that it finds in the table. -/
inductive Becomes (d : VoidDecl) : VoidCall → VoidDecl → Prop
  | same (c : VoidCall) : Becomes d c d
  | kind {l : Location} {kind : VoidKind} {name : Text} (hplace : d.location = l) (hvalid : l.valid = true)
      (hunknown : d.kind = .unknown) : Becomes d (.setKind l kind name) { d with kind }
  | typedef {l : Location} {name : Text} (hd : d.Unplaced name) :
      Becomes d (.setKind l .typedef name)
        { d with kind := .typedef, location := if l.valid then l else d.location }
  | generic {l : Location} {generic : Bool} (hplace : d.location = l) :
      Becomes d (.setGeneric l generic) { d with generic }

/-- The first declaration has become the second, and nothing that was known of it is lost. -/
structure Grown (d d' : VoidDecl) : Prop where
  name : d'.name = d.name
  kind : d.kind ≠ .unknown → d'.kind = d.kind
  moved : d'.location ≠ d.location →
    d.location.valid = false ∧ d'.location.valid = true ∧ d.kind = .unknown ∧ d'.kind = .typedef

variable {d d' d'' : VoidDecl} {c : VoidCall}

theorem Grown.refl (d : VoidDecl) : d.Grown d := ⟨rfl, fun _ => rfl, fun h => absurd rfl h⟩

theorem Grown.place (h : d.Grown d') (hvalid : d.location.valid = true) : d'.location = d.location := by
  by_contra hne
  have hinvalid : d.location.valid = false := (h.moved hne).1
  rw [hvalid] at hinvalid
  cases hinvalid

theorem Grown.location_of_invalid (h : d.Grown d') (hplace : d'.location.valid = false) :
    d'.location = d.location := by
  by_contra hne
  have hvalid : d'.location.valid = true := (h.moved hne).2.1
  rw [hplace] at hvalid
  cases hvalid

theorem Grown.trans (h : d.Grown d') (k : d'.Grown d'') : d.Grown d'' where
  name := k.name.trans h.name
  kind hkind := by
    have hkind' : d'.kind = d.kind := h.kind hkind
    rw [← hkind']
    exact k.kind (hkind' ▸ hkind)
  moved hne := by
    by_cases hfirst : d'.location = d.location
    · rw [← hfirst] at hne ⊢
      obtain ⟨hplace, hplace', hkind, hkind'⟩ := k.moved hne
      refine ⟨hplace, hplace', ?_, hkind'⟩
      by_contra hknown
      exact hknown (h.kind hknown ▸ hkind)
    · obtain ⟨hplace, hplace', hkind, hkind'⟩ := h.moved hfirst
      have hknown : d'.kind ≠ .unknown := by simp [hkind']
      exact ⟨hplace, k.place hplace' ▸ hplace', hkind, (k.kind hknown).trans hkind'⟩

theorem Becomes.grown (h : d.Becomes c d') : d.Grown d' := by
  cases h with
  | same => exact .refl d
  | kind hplace hvalid hunknown => exact ⟨rfl, fun hk => absurd hunknown hk, fun h => absurd rfl h⟩
  | generic hplace => exact ⟨rfl, fun _ => rfl, fun h => absurd rfl h⟩
  | @typedef l name hd =>
    refine ⟨rfl, fun hk => absurd hd.kind hk, fun hne => ?_⟩
    cases hl : l.valid with
    | true => exact ⟨hd.place, by simp [hl], hd.kind, rfl⟩
    | false => simp [hl] at hne

end VoidDecl

namespace VoidTable
variable {t t' t'' : VoidTable} {i : Nat} {d : VoidDecl}

/-- Every declaration of the first table has grown into that of the second in the same row. -/
def Grows (t t' : VoidTable) : Prop :=
  ∀ (i : Nat) (d : VoidDecl), t[i]? = some d → ∃ d', t'[i]? = some d' ∧ d.Grown d'

/-- The call changes the location of the declaration in a row. -/
def Moves (t : VoidTable) (c : VoidCall) (i : Nat) : Prop :=
  ∃ d d' : VoidDecl, t[i]? = some d ∧ (t.perform c)[i]? = some d' ∧ d'.location ≠ d.location

/-! ### One call -/

theorem row_add (l : Location) (name : Text) (h : t[i]? = some d) : (add l name t)[i]? = some d := by
  rw [add]
  split
  · exact h
  · obtain ⟨hi, -⟩ := List.getElem?_eq_some_iff.1 h
    rw [List.getElem?_append_left hi]
    exact h

theorem row_nameTypedef (l : Location) (name : Text) (h : t[i]? = some d) :
    ∃ d', (nameTypedef l name t)[i]? = some d' ∧ d.Becomes (.setKind l .typedef name) d' := by
  obtain ⟨-, ho⟩ | ⟨before, e, rest, rfl, he, ho⟩ := nameTypedef_cases l name t
  · exact ⟨d, by rw [ho]; exact h, .same _⟩
  rw [ho]
  -- Only the row behind `before` is another one.
  rcases Nat.lt_trichotomy i before.length with hi | rfl | hi
  · rw [List.getElem?_append_left hi] at h ⊢
    exact ⟨d, h, .same _⟩
  · rw [List.getElem?_append_right (Nat.le_refl _), Nat.sub_self] at h ⊢
    cases h
    exact ⟨_, rfl, .typedef he⟩
  · have hrest : i - before.length = i - before.length - 1 + 1 := by omega
    rw [List.getElem?_append_right (Nat.le_of_lt hi), hrest, List.getElem?_cons_succ] at h ⊢
    exact ⟨d, h, .same _⟩

theorem row_setKind (l : Location) (kind : VoidKind) (name : Text) (h : t[i]? = some d) :
    ∃ d', (setKind l kind name t)[i]? = some d' ∧ d.Becomes (.setKind l kind name) d' := by
  rw [setKind]
  split
  · refine ⟨if awaitsKind l d then { d with kind } else d, by rw [List.getElem?_map, h]; rfl, ?_⟩
    split
    · obtain ⟨hplace, hunknown, hvalid⟩ := awaitsKind_iff.1 ‹_›
      exact .kind hplace hvalid hunknown
    · exact .same _
  · split
    · rename_i hkind
      subst hkind
      exact row_nameTypedef l name h
    · exact ⟨d, h, .same _⟩

theorem row_setGeneric (l : Location) (generic : Bool) (h : t[i]? = some d) :
    ∃ d', (setGeneric l generic t)[i]? = some d' ∧ d.Becomes (.setGeneric l generic) d' := by
  induction t generalizing i with
  | nil => cases h
  | cons e rest ih =>
    rw [setGeneric]
    split
    · rename_i hplace
      cases i with
      | zero =>
        cases h
        exact ⟨_, rfl, .generic hplace⟩
      | succ i => exact ⟨d, h, .same _⟩
    · cases i with
      | zero => exact ⟨d, h, .same _⟩
      | succ i => exact ih h

theorem row_perform (c : VoidCall) (h : t[i]? = some d) :
    ∃ d', (t.perform c)[i]? = some d' ∧ d.Becomes c d' := by
  cases c with
  | add l name => exact ⟨d, row_add l name h, .same _⟩
  | setKind l kind name => exact row_setKind l kind name h
  | setGeneric l generic => exact row_setGeneric l generic h

/-! ### Runs -/

theorem Grows.refl (t : VoidTable) : t.Grows t := fun _ d h => ⟨d, h, .refl d⟩

theorem Grows.trans (h : t.Grows t') (k : t'.Grows t'') : t.Grows t'' := by
  intro i d hd
  obtain ⟨d', hd', hgrown⟩ := h i d hd
  obtain ⟨d'', hd'', hgrown'⟩ := k i d' hd'
  exact ⟨d'', hd'', hgrown.trans hgrown'⟩

theorem grows_perform (t : VoidTable) (c : VoidCall) : t.Grows (t.perform c) := by
  intro i d hd
  obtain ⟨d', hd', hbecomes⟩ := row_perform c hd
  exact ⟨d', hd', hbecomes.grown⟩

theorem grows_foldl (calls : List VoidCall) (t : VoidTable) : t.Grows (calls.foldl perform t) := by
  induction calls generalizing t with
  | nil => exact .refl t
  | cons c rest ih => exact (grows_perform t c).trans (ih _)

theorem after_append (earlier later : List VoidCall) : after (earlier ++ later) = later.foldl perform (after earlier) :=
  List.foldl_append ..

theorem grows_after (earlier later : List VoidCall) : (after earlier).Grows (after (earlier ++ later)) := by
  rw [after_append]
  exact grows_foldl later _

theorem Grows.names (h : t.Grows t') : t.map VoidDecl.name <+: t'.map VoidDecl.name := by
  refine List.prefix_iff_getElem?.2 fun i hi => ?_
  rw [List.length_map] at hi
  obtain ⟨d', hd', hgrown⟩ := h i t[i] (List.getElem?_eq_getElem hi)
  rw [List.getElem?_map, hd', List.getElem_map, Option.map_some, hgrown.name]

theorem Moves.settles {c : VoidCall} (h : t.Moves c i) :
    ∃ d', (t.perform c)[i]? = some d' ∧ d'.location.valid = true := by
  obtain ⟨d, d', hd, hd', hne⟩ := h
  obtain ⟨e, he, hbecomes⟩ := row_perform c hd
  obtain rfl : e = d' := Option.some.inj (he.symm.trans hd')
  exact ⟨e, he, (hbecomes.grown.moved hne).2.1⟩

/-- A row that has been moved has a valid location and is moved no more. -/
theorem Moves.not_again {c c' : VoidCall} (h : t.Moves c i) (between : List VoidCall) :
    ¬ (between.foldl perform (t.perform c)).Moves c' i := by
  rintro ⟨e, e', he, he', hne⟩
  obtain ⟨d', hd', hvalid⟩ := h.settles
  obtain ⟨_, hlater, hgrown⟩ := grows_foldl between _ i d' hd'
  cases he.symm.trans hlater
  obtain ⟨_, hlast, hbecomes⟩ := row_perform c' he
  cases he'.symm.trans hlast
  have hplace : e.location.valid = true := by
    rw [hgrown.place hvalid]
    exact hvalid
  exact hne (hbecomes.grown.place hplace)

/-- Whatever is called after a run of calls, the declarations stay in their rows under their names, a known kind and
a valid location are kept, and a call that changes a location finds a declaration without a valid one whose kind is
unknown and leaves a typedef with a valid one. No row is moved twice. -/
theorem rows_only_gain (earlier later : List VoidCall) :
    let t := after earlier
    let t' := after (earlier ++ later)
    t.map VoidDecl.name <+: t'.map VoidDecl.name ∧
    (∀ (i : Nat) (d : VoidDecl), t[i]? = some d → ∃ d', t'[i]? = some d' ∧ d'.name = d.name ∧
      (d.kind ≠ .unknown → d'.kind = d.kind) ∧ (d.location.valid = true → d'.location = d.location)) ∧
    (∀ c (i : Nat) (d d' : VoidDecl), t[i]? = some d → (t.perform c)[i]? = some d' → d'.location ≠ d.location →
      d.location.valid = false ∧ d'.location.valid = true ∧ d.kind = .unknown ∧ d'.kind = .typedef) ∧
    ∀ c between c' i, t.Moves c i → ¬ (after (earlier ++ c :: between)).Moves c' i := by
  intro t t'
  have hgrows : t.Grows t' := grows_after earlier later
  refine ⟨hgrows.names, fun i d hd => ?_, fun c i d d' hd hd' hne => ?_, fun c between c' i hmoves => ?_⟩
  · obtain ⟨d', hd', hgrown⟩ := hgrows i d hd
    exact ⟨d', hd', hgrown.name, hgrown.kind, hgrown.place⟩
  · obtain ⟨_, he, hbecomes⟩ := row_perform c hd
    cases hd'.symm.trans he
    exact hbecomes.grown.moved hne
  · rw [after_append, List.foldl_cons]
    exact hmoves.not_again between

end VoidTable

end Blame
