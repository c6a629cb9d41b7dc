import Blame.Proofs.NormalPaths
import Mathlib.Data.List.Infix

/-!
# Routes of paths

The route of a path is the names on the way to it from the root, the same for each of its spellings. A directory
covers a path if its route comes first in that of the path, and this is what the comparison of normal forms finds out
(`isUnder_normalise`), but for a directory that is spelled with two slashes at its front: they are kept in its normal
form, but not in the directory that two paths share. A file in a directory is on its route (`route_within`), however
the directory is spelled. A path has a route unless it asks for the home of a user whose name the system cannot be
given.
-/

namespace Blame

namespace Path

open Text

/-- Why the system cannot be asked for the user that a path names, if it cannot. -/
def userFault? (p : Text) : Option NameFault := nameFault? (userName p.toList)

/-- The names on the way from the root to what a path stands for. -/
def route (ctx : Context) (p : Text) : Except NameFault (List (List CodePoint)) :=
  (normalise ctx p).map fun q => components q.toList

/-- There are two routes, and the second goes on from where the first ends. -/
def GoesThrough : Except NameFault (List (List CodePoint)) → Except NameFault (List (List CodePoint)) → Prop
  | .ok names, .ok names' => names <+: names'
  | _, _ => False

/-- A directory is on the way to a path, or is where the path leads. -/
def Covers (ctx : Context) (dir p : Text) : Prop := GoesThrough (route ctx dir) (route ctx p)

/-- A path starts with two slashes, not with one and not with more, once it has its home directory and is taken
from the current one. -/
def HasTwoSlashes (ctx : Context) (p : Text) : Prop :=
  (expandUser ctx p.toList).map (fun q => leadingSlashes (joinPath ctx.cwd.toList q)) = .ok 2

instance : (r r' : Except NameFault (List (List CodePoint))) → Decidable (GoesThrough r r')
  | .ok names, .ok names' => inferInstanceAs (Decidable (names <+: names'))
  | .ok _, .error _ => .isFalse id
  | .error _, _ => .isFalse id

instance (ctx : Context) (dir p : Text) : Decidable (Covers ctx dir p) :=
  inferInstanceAs (Decidable (GoesThrough _ _))

instance (ctx : Context) (p : Text) : Decidable (HasTwoSlashes ctx p) :=
  inferInstanceAs (Decidable (_ = _))

/-- The path of a file in a directory. -/
def within (dir file : Text) : Text := Text.ofList (joinPath dir.toList file.toList)

section
variable {ctx : Context} {p dir p' dir' : Text} {q d : List CodePoint}

/-! ### What two paths share -/

theorem commonStart_eq_right_iff {xs ys : List (List CodePoint)} : commonStart xs ys = ys ↔ ys <+: xs := by
  induction xs generalizing ys with
  | nil => cases ys <;> simp [commonStart]
  | cons x xs ih =>
    cases ys with
    | nil => simp [commonStart]
    | cons y ys =>
      rw [commonStart, List.cons_prefix_cons]
      split
      · rename_i h
        rw [h, List.cons.injEq, ih, eq_self, true_and]
      · rename_i h
        simp [Ne.symm h]

theorem commonStart_subset {xs ys : List (List CodePoint)} : ∀ c ∈ commonStart xs ys, c ∈ ys := by
  induction xs generalizing ys with
  | nil => cases ys <;> simp [commonStart]
  | cons x xs ih =>
    cases ys with
    | nil => simp [commonStart]
    | cons y ys =>
      rw [commonStart]
      split
      · rename_i h
        intro c hc
        rcases List.mem_cons.1 hc with rfl | hc
        · exact h ▸ List.mem_cons_self
        · exact List.mem_cons_of_mem y (ih c hc)
      · exact fun c hc => absurd hc List.not_mem_nil

theorem normalise_eq_ok (hcwd : isAbsolute ctx.cwd.toList = true) (h : expandUser ctx p.toList = .ok q) :
    normalise ctx p = .ok (Text.ofList (normalPath (joinPath ctx.cwd.toList q))) := by
  rw [normalise, h, Except.map, absolutePath, normalPath_normalPath (isAbsolute_joinPath hcwd)]

theorem exists_expandUser (h : normalise ctx p = .ok p') : ∃ q, expandUser ctx p.toList = .ok q := by
  cases hq : expandUser ctx p.toList with
  | ok q => exact ⟨q, rfl⟩
  | error f =>
    rw [normalise, hq] at h
    cases h

theorem normalise_eq_error_iff (ctx : Context) {f : NameFault} : normalise ctx p = .error f ↔ userFault? p = some f := by
  rw [userFault?, ← expandUser_eq_error_iff ctx, normalise]
  cases expandUser ctx p.toList with
  | ok q => exact iff_of_false nofun nofun
  | error f' => simp only [Except.map, Except.error.injEq]

theorem exists_normalise_iff (ctx : Context) : (∃ q, normalise ctx p = .ok q) ↔ userFault? p = none := by
  rw [Option.eq_none_iff_forall_ne_some]
  constructor
  · rintro ⟨q, hq⟩ f hf
    rw [(normalise_eq_error_iff ctx).2 hf] at hq
    cases hq
  · intro h
    cases hform : normalise ctx p with
    | ok q => exact ⟨q, rfl⟩
    | error f => exact absurd ((normalise_eq_error_iff ctx).1 hform) (h f)

theorem route_eq_ok (hcwd : isAbsolute ctx.cwd.toList = true) (h : expandUser ctx p.toList = .ok q) :
    route ctx p = .ok (normalComponents (joinPath ctx.cwd.toList q)) := by
  rw [route, normalise_eq_ok hcwd h, Except.map, Text.toList_ofList, components_normalPath]

theorem hasTwoSlashes_iff (h : expandUser ctx p.toList = .ok q) :
    HasTwoSlashes ctx p ↔ leadingSlashes (joinPath ctx.cwd.toList q) = 2 := by
  rw [HasTwoSlashes, h]
  exact ⟨Except.ok.inj, congrArg Except.ok⟩

theorem commonPath_eq (p q : List CodePoint) :
    commonPath p q = ofComponents (List.replicate 1 (.char '/')) (commonStart (components p) (components q)) := rfl

/-- What is shared has a single slash at its front, so it is never a directory with two. -/
theorem isUnder_normalise (hcwd : isAbsolute ctx.cwd.toList = true) (hp : normalise ctx p = .ok p')
    (hdir : normalise ctx dir = .ok dir') :
    isUnder p' dir' = true ↔ Covers ctx dir p ∧ ¬ HasTwoSlashes ctx dir := by
  obtain ⟨q, hq⟩ := exists_expandUser hp
  obtain ⟨d, hd⟩ := exists_expandUser hdir
  cases hp.symm.trans (normalise_eq_ok hcwd hq)
  cases hdir.symm.trans (normalise_eq_ok hcwd hd)
  have hcomponents : ∀ c ∈ normalComponents (joinPath ctx.cwd.toList d), IsComponent c := fun _ =>
    isComponent_of_mem_normalComponents
  have hshared : ∀ c ∈ commonStart (normalComponents (joinPath ctx.cwd.toList q))
      (normalComponents (joinPath ctx.cwd.toList d)), IsComponent c := fun c hc =>
    hcomponents c (commonStart_subset c hc)
  have habsolute := isAbsolute_joinPath (p := d) hcwd
  rw [isAbsolute_iff_leadingSlashes, decide_eq_true_eq] at habsolute
  have hle := leadingSlashes_le_two (joinPath ctx.cwd.toList d)
  rw [hasTwoSlashes_iff hd, Covers, route_eq_ok hcwd hq, route_eq_ok hcwd hd, isUnder, beq_iff_eq]
  show commonPath (normalPath _) (normalPath _) = normalPath _ ↔ _ <+: _ ∧ _
  rw [commonPath_eq, components_normalPath, components_normalPath, normalPath_eq (joinPath ctx.cwd.toList d), rootSlashes,
    ofComponents_inj hshared hcomponents (Nat.le_succ 1) hle, commonStart_eq_right_iff, and_comm]
  refine and_congr_right fun _ => ?_
  omega

/-! ### Files in a directory -/

theorem pieces_append_slash (a b : List CodePoint) : pieces (a ++ .char '/' :: b) = pieces a ++ pieces b := by
  rw [pieces, pieces, pieces]
  induction a with
  | nil => rfl
  | cons c a ih =>
    rw [List.cons_append, splitChar, ih, splitChar]
    split
    · rfl
    · obtain ⟨piece, others, ha⟩ := List.exists_cons_of_ne_nil (splitChar_ne_nil (.char '/') a)
      rw [ha]
      rfl

theorem components_append_slash (a b : List CodePoint) :
    components (a ++ .char '/' :: b) = components a ++ components b := by
  rw [components, pieces_append_slash, List.filter_append]
  rfl

theorem takeWhile_append_slash (a b : List CodePoint) :
    (a ++ .char '/' :: b).takeWhile (· ≠ .char '/') = a.takeWhile (· ≠ .char '/') := by
  induction a with
  | nil => rfl
  | cons c a ih => rw [List.cons_append, List.takeWhile_cons, List.takeWhile_cons, ih]

theorem dropWhile_append_slash (a b : List CodePoint) :
    (a ++ .char '/' :: b).dropWhile (· ≠ .char '/') = a.dropWhile (· ≠ .char '/') ++ .char '/' :: b := by
  induction a with
  | nil => rfl
  | cons c a ih =>
    rw [List.cons_append, List.dropWhile_cons, List.dropWhile_cons, ih]
    split <;> rfl

theorem expandUser_of_head? {p : List CodePoint} (h : p.head? ≠ some (.char '~')) : expandUser ctx p = .ok p := by
  unfold expandUser
  split
  · exact absurd rfl h
  · rfl

/-- The second path is the first one and goes on behind a slash with the third. -/
def GoesOn (d q rest : List CodePoint) : Prop := ∃ a, q = a ++ .char '/' :: rest ∧ (d = a ∨ d = a ++ [.char '/'])

namespace GoesOn
variable {ctx : Context} {d d' q rest : List CodePoint}

theorem components_eq (h : GoesOn d q rest) : components q = components d ++ components rest := by
  obtain ⟨a, rfl, rfl | rfl⟩ := h
  · exact components_append_slash d rest
  · rw [components_append_slash, components_append_slash]
    exact congrArg (· ++ components rest) (List.append_nil _).symm

theorem head?_eq (h : GoesOn d q rest) (hd : d ≠ []) : q.head? = d.head? := by
  obtain ⟨a, rfl, ha⟩ := h
  cases a with
  | nil => rcases ha with rfl | rfl <;> simp_all
  | cons c a => rcases ha with rfl | rfl <;> rfl

theorem isAbsolute_eq (h : GoesOn d q rest) (hd : d ≠ []) : isAbsolute q = isAbsolute d := by
  rw [isAbsolute, h.head?_eq hd, isAbsolute]

theorem takeWhile_eq (h : GoesOn d q rest) : q.takeWhile (· ≠ .char '/') = d.takeWhile (· ≠ .char '/') := by
  obtain ⟨a, rfl, rfl | rfl⟩ := h
  · exact takeWhile_append_slash d rest
  · rw [takeWhile_append_slash, takeWhile_append_slash]

theorem append_left (h : GoesOn d q rest) (s : List CodePoint) : GoesOn (s ++ d) (s ++ q) rest := by
  obtain ⟨a, rfl, rfl | rfl⟩ := h
  · exact ⟨s ++ d, by simp, .inl rfl⟩
  · exact ⟨s ++ a, by simp, .inr (by simp)⟩

theorem of_nil (h : GoesOn [] q rest) : q = .char '/' :: rest := by
  obtain ⟨a, rfl, ha | ha⟩ := h <;> simp_all

theorem of_tilde (h : GoesOn (.char '~' :: d) q rest) : ∃ q', q = .char '~' :: q' ∧ GoesOn d q' rest := by
  obtain ⟨a, rfl, ha | ha⟩ := h
  · subst ha
    exact ⟨_, rfl, d, rfl, .inl rfl⟩
  · cases a with
    | nil => cases ha
    | cons c a =>
      obtain ⟨rfl, rfl⟩ := List.cons.inj ha
      exact ⟨_, rfl, a, rfl, .inr rfl⟩

theorem joinPath (hd : d ≠ []) (hrest : isAbsolute rest = false) : GoesOn d (joinPath d rest) rest := by
  rw [Path.joinPath, hrest, if_neg Bool.false_ne_true]
  split
  · rename_i hlast
    rw [List.isEmpty_eq_false_iff.2 hd, Bool.false_or, decide_eq_true_eq] at hlast
    obtain ⟨a, rfl⟩ := List.getLast?_eq_some_iff.1 hlast
    exact ⟨a, by simp, .inr rfl⟩
  · exact ⟨d, rfl, .inl rfl⟩

theorem dropWhile (h : GoesOn d q rest) : GoesOn (d.dropWhile (· ≠ .char '/')) (q.dropWhile (· ≠ .char '/')) rest := by
  obtain ⟨a, rfl, rfl | rfl⟩ := h
  · exact ⟨_, dropWhile_append_slash d rest, .inl rfl⟩
  · exact ⟨_, dropWhile_append_slash a rest, .inr (dropWhile_append_slash a [])⟩

theorem fromHome (h : GoesOn d q rest) (dir : Text) : GoesOn (fromHome dir d) (fromHome dir q) rest := by
  have hgoes := h.append_left (dir.toList.reverse.dropWhile (· = .char '/')).reverse
  have hne : q ≠ [] := by
    obtain ⟨a, rfl, -⟩ := h
    simp
  unfold Path.fromHome
  dsimp only
  rw [List.isEmpty_eq_false_iff.2 (List.append_ne_nil_of_right_ne_nil _ hne), if_neg Bool.false_ne_true]
  split
  · rename_i hempty
    rw [List.isEmpty_iff] at hempty
    rw [hempty] at hgoes
    exact ⟨[], hgoes.of_nil, .inr rfl⟩
  · exact hgoes

/-- The name of the user, if there is one, ends at the first slash and so is the same in both paths. -/
theorem expandUser (h : GoesOn d q rest) (hd : d ≠ []) (he : expandUser ctx d = .ok d') :
    ∃ q', expandUser ctx q = .ok q' ∧ GoesOn d' q' rest := by
  obtain ⟨c, d, rfl⟩ := List.exists_cons_of_ne_nil hd
  by_cases hc : c = .char '~'
  · subst hc
    obtain ⟨q, rfl, hq⟩ := h.of_tilde
    have hname : userName (.char '~' :: q) = userName (.char '~' :: d) := hq.takeWhile_eq
    rw [Path.expandUser] at he ⊢
    rw [hname]
    cases hhome : ctx.homeOf (userName (.char '~' :: d)) with
    | error f =>
      rw [hhome] at he
      cases he
    | ok home =>
      rw [hhome] at he
      cases home with
      | none =>
        cases he
        exact ⟨_, rfl, h⟩
      | some dir =>
        cases he
        exact ⟨_, rfl, hq.dropWhile.fromHome dir⟩
  · have hhead : (c :: d).head? ≠ some (.char '~') := fun hh => hc (Option.some.inj hh)
    rw [expandUser_of_head? hhead] at he
    cases he
    exact ⟨q, expandUser_of_head? (h.head?_eq hd ▸ hhead), h⟩

end GoesOn

theorem expandUser_ne_nil (hd : d ≠ []) (h : expandUser ctx d = .ok q) : q ≠ [] := by
  unfold expandUser at h
  split at h
  · rename_i rest
    cases hhome : ctx.homeOf (userName (.char '~' :: rest)) with
    | error f =>
      rw [hhome] at h
      cases h
    | ok home =>
      rw [hhome] at h
      cases home with
      | none =>
        cases h
        exact hd
      | some dir =>
        cases h
        unfold fromHome
        dsimp only
        split
        · exact List.cons_ne_nil _ _
        · rename_i hne
          simpa using hne
  · cases h
    exact hd

theorem joinPath_of_isAbsolute {d : List CodePoint} (hq : isAbsolute q = true) : joinPath d q = q := if_pos hq

theorem components_joinPath {d : List CodePoint} (hrest : isAbsolute q = false) :
    components (joinPath d q) = components d ++ components q := by
  by_cases hd : d = []
  · subst hd
    rw [joinPath, hrest]
    rfl
  · exact (GoesOn.joinPath hd hrest).components_eq

/-- A file in the empty path is one by its own path, which must not lead to a home directory. -/
theorem exists_expandUser_within {file : Text} (hfile : isAbsolute file.toList = false)
    (hempty : dir = "" → file.toList.head? ≠ some (.char '~')) (hd : expandUser ctx dir.toList = .ok d) :
    ∃ q, expandUser ctx (within dir file).toList = .ok q ∧
      components (joinPath ctx.cwd.toList q) = components (joinPath ctx.cwd.toList d) ++ components file.toList := by
  rw [within, Text.toList_ofList]
  by_cases hdir : dir.toList = []
  · have hjoined : joinPath [] file.toList = file.toList := by
      rw [joinPath, hfile]
      rfl
    rw [hdir] at hd ⊢
    cases hd
    rw [hjoined, expandUser_of_head? (hempty (Text.toList_eq_nil_iff.1 hdir))]
    refine ⟨_, rfl, ?_⟩
    rw [components_joinPath hfile, components_joinPath (q := []) rfl]
    exact congrArg (· ++ _) (List.append_nil _).symm
  · obtain ⟨q, hq, hgoes⟩ := (GoesOn.joinPath hdir hfile).expandUser hdir hd
    refine ⟨q, hq, ?_⟩
    have habsolute := hgoes.isAbsolute_eq (expandUser_ne_nil hdir hd)
    cases hdirAbsolute : isAbsolute d with
    | true =>
      rw [joinPath_of_isAbsolute (habsolute.trans hdirAbsolute), joinPath_of_isAbsolute hdirAbsolute]
      exact hgoes.components_eq
    | false =>
      rw [components_joinPath (habsolute.trans hdirAbsolute), components_joinPath hdirAbsolute, hgoes.components_eq,
        List.append_assoc]

theorem covers_within (hcwd : isAbsolute ctx.cwd.toList = true) {file : Text}
    (hfile : isAbsolute file.toList = false) (hup : up ∉ components file.toList)
    (hempty : dir = "" → file.toList.head? ≠ some (.char '~')) (hd : expandUser ctx dir.toList = .ok d) :
    Covers ctx dir (within dir file) := by
  obtain ⟨q, hq, hcomponents⟩ := exists_expandUser_within hfile hempty hd
  have hroute : normalComponents (joinPath ctx.cwd.toList q) =
      normalComponents (joinPath ctx.cwd.toList d) ++ components file.toList := by
    rw [normalComponents_eq_foldl, normalComponents_eq_foldl, isAbsolute_joinPath hcwd, isAbsolute_joinPath hcwd,
      hcomponents, List.foldl_append, foldl_pushComponent_of_names (fun _ => isComponent_of_mem) hup, List.reverse_append,
      List.reverse_reverse]
  rw [Covers, route_eq_ok hcwd hd, route_eq_ok hcwd hq, hroute]
  exact List.prefix_append _ _

end

end Path

end Blame
