import Blame.Proofs.ProjectFiles
import Blame.Proofs.Transpose
import Mathlib.Data.List.TakeWhile

/-!
# Canonical paths

Normalisation ends in a canonical path, whatever the home directories are, and the canonical paths are those it leaves
alone (`normalise_reaches_canonical`). A canonical path is nothing else than one or two slashes and names put together
(`isCanonical_ofComponents`, `IsCanonical.exists_components`), so all that is needed of the components of an absolute
path is that no `..` stays among them. A path has no normal form if it asks for the home of a user in whose name there is
a zero character, or a code point that has no bytes.
-/

namespace Blame

namespace Path

open Text

/-- A path without the slashes at its front. -/
def afterSlashes (p : List CodePoint) : List CodePoint := p.dropWhile (· = .char '/')

/-- One or two slashes at the front, and behind them, if there is anything, names with a single slash between each
two; none of them is a step to the same directory or to the one above, and no slash follows the last. -/
structure IsCanonical (p : List CodePoint) : Prop where
  slashes : (p.takeWhile (· = .char '/')).length = 1 ∨ (p.takeWhile (· = .char '/')).length = 2
  names : afterSlashes p ≠ [] → ∀ c ∈ pieces (afterSlashes p), c ≠ [] ∧ c ≠ [.char '.'] ∧ c ≠ up
  ending : afterSlashes p ≠ [] → p.getLast? ≠ some (.char '/')

instance (p : List CodePoint) : Decidable (IsCanonical p) :=
  decidable_of_iff
    (((p.takeWhile (· = .char '/')).length = 1 ∨ (p.takeWhile (· = .char '/')).length = 2) ∧
      (afterSlashes p ≠ [] → ∀ c ∈ pieces (afterSlashes p), c ≠ [] ∧ c ≠ [.char '.'] ∧ c ≠ up) ∧
      (afterSlashes p ≠ [] → p.getLast? ≠ some (.char '/')))
    ⟨fun h => ⟨h.1, h.2.1, h.2.2⟩, fun h => ⟨h.slashes, h.names, h.ending⟩⟩

section
variable {p body : List CodePoint} {cs : List (List CodePoint)} {n : Nat}

/-! ### Slashes and names -/

theorem takeWhile_slashes (p : List CodePoint) :
    p.takeWhile (· = .char '/') = List.replicate (p.takeWhile (· = .char '/')).length (.char '/') :=
  List.eq_replicate_length.2 fun _ hx => of_decide_eq_true (List.mem_takeWhile_imp (p := (· = CodePoint.char '/')) hx)

theorem takeWhile_slashes_append (n : Nat) (hbody : body.head? ≠ some (.char '/')) :
    (List.replicate n (CodePoint.char '/') ++ body).takeWhile (· = .char '/') = List.replicate n (.char '/') := by
  rw [List.takeWhile_append_of_pos fun x hx => decide_eq_true (List.eq_of_mem_replicate hx)]
  cases body with
  | nil => exact List.append_nil _
  | cons c body =>
    have hc : c ≠ .char '/' := fun h => hbody (congrArg some h)
    simp [hc]

theorem afterSlashes_append (n : Nat) (hbody : body.head? ≠ some (.char '/')) :
    afterSlashes (List.replicate n (.char '/') ++ body) = body := by
  have hparts := List.takeWhile_append_dropWhile (p := (· = .char '/')) (l := List.replicate n (.char '/') ++ body)
  rw [takeWhile_slashes_append n hbody] at hparts
  exact List.append_cancel_left hparts

/-- A slash at the end leaves an empty piece behind it. -/
theorem getLast?_ne_slash (h : ∀ c ∈ pieces p, c ≠ []) : p.getLast? ≠ some (.char '/') := by
  intro hlast
  obtain ⟨a, rfl⟩ := List.getLast?_eq_some_iff.1 hlast
  rw [pieces_append_slash] at h
  exact h [] (List.mem_append_right _ List.mem_cons_self) rfl

theorem ofComponents_slashes (hn : n = 1 ∨ n = 2) (cs : List (List CodePoint)) :
    ofComponents (List.replicate n (.char '/')) cs = List.replicate n (.char '/') ++ joinChar (.char '/') cs := by
  rcases hn with rfl | rfl <;> rfl

theorem isCanonical_ofComponents (hcs : ∀ c ∈ cs, IsComponent c) (hup : up ∉ cs) (hn : n = 1 ∨ n = 2) :
    IsCanonical (ofComponents (List.replicate n (.char '/')) cs) := by
  have hhead := head?_joinChar_ne_slash hcs
  have hnames : joinChar (.char '/') cs ≠ [] →
      ∀ c ∈ pieces (joinChar (.char '/') cs), c ≠ [] ∧ c ≠ [.char '.'] ∧ c ≠ up := by
    intro hne c hc
    have hcs_ne : cs ≠ [] := fun h => hne (congrArg (joinChar (.char '/')) h)
    rw [pieces, splitChar_joinChar hcs_ne fun c hc => (hcs c hc).1] at hc
    exact ⟨(hcs c hc).2.1, (hcs c hc).2.2, fun h => hup (h ▸ hc)⟩
  rw [ofComponents_slashes hn]
  refine ⟨?_, ?_, ?_⟩
  · rwa [takeWhile_slashes_append n hhead, List.length_replicate]
  · rwa [afterSlashes_append n hhead]
  · rw [afterSlashes_append n hhead]
    intro hne
    rw [List.getLast?_append_of_ne_nil _ hne]
    exact getLast?_ne_slash fun c hc => (hnames hne c hc).1

namespace IsCanonical

theorem exists_components (h : IsCanonical p) :
    ∃ n cs, (n = 1 ∨ n = 2) ∧ (∀ c ∈ cs, IsComponent c) ∧ up ∉ cs ∧
      p = ofComponents (List.replicate n (.char '/')) cs := by
  have hp : List.replicate (p.takeWhile (· = .char '/')).length (.char '/') ++ afterSlashes p = p := by
    rw [← takeWhile_slashes, afterSlashes, List.takeWhile_append_dropWhile]
  -- the pieces of an empty text are no names: there is one, and it is empty
  by_cases hbody : afterSlashes p = []
  · refine ⟨_, [], h.slashes, nofun, List.not_mem_nil, ?_⟩
    rw [ofComponents_slashes h.slashes, joinChar, ← hbody, hp]
  · have hnames := h.names hbody
    refine ⟨_, pieces (afterSlashes p), h.slashes, fun c hc => ?_, fun hup => (hnames up hup).2.2 rfl, ?_⟩
    · exact ⟨(mem_of_mem_splitChar hc).1, (hnames c hc).1, (hnames c hc).2.1⟩
    · rw [ofComponents_slashes h.slashes, pieces, joinChar_splitChar, hp]

theorem absolute (h : IsCanonical p) : isAbsolute p = true := by
  obtain ⟨n, cs, hn, hcs, -, rfl⟩ := h.exists_components
  rw [isAbsolute_ofComponents hcs, decide_eq_true_eq]
  omega

theorem head?_ne_tilde (h : IsCanonical p) : p.head? ≠ some (.char '~') := by
  have hslash : p.head? = some (.char '/') := of_decide_eq_true h.absolute
  rw [hslash]
  decide

theorem normalPath_eq_self (h : IsCanonical p) : normalPath p = p := by
  obtain ⟨n, cs, hn, hcs, hup, hp⟩ := h.exists_components
  have hcomponents : components p = cs := by rw [hp, components_ofComponents hcs]
  have hslashes : leadingSlashes p = n := by rw [hp, leadingSlashes_ofComponents hcs (by omega)]
  rw [normalPath_eq, rootSlashes, hslashes, normalComponents_of_noUp (hcomponents ▸ hup), hcomponents, ← hp]

end IsCanonical

theorem isCanonical_normalPath (hp : isAbsolute p = true) : IsCanonical (normalPath p) := by
  have hle := leadingSlashes_le_two p
  rw [normalPath_eq, rootSlashes]
  refine isCanonical_ofComponents (fun _ => isComponent_of_mem_normalComponents) (up_notMem_normalComponents hp) ?_
  rw [isAbsolute_iff_leadingSlashes, decide_eq_true_eq] at hp
  omega

end

section
variable {ctx : Context} {p q : Text}

theorem isCanonical_of_normalise (hcwd : isAbsolute ctx.cwd.toList = true) (h : normalise ctx p = .ok q) :
    IsCanonical q.toList := by
  obtain ⟨expanded, hexpanded⟩ := exists_expandUser h
  cases h.symm.trans (normalise_eq_ok hcwd hexpanded)
  exact isCanonical_normalPath (isAbsolute_joinPath hcwd)

theorem IsCanonical.normalise_eq_self (hcwd : isAbsolute ctx.cwd.toList = true) (h : IsCanonical p.toList) :
    normalise ctx p = .ok p := by
  rw [normalise_eq_ok hcwd (expandUser_of_head? h.head?_ne_tilde), joinPath_of_isAbsolute h.absolute,
    h.normalPath_eq_self, Text.ofList_toList]

/-- A path has a normal form unless it asks for the home of a user in whose name some code point has no bytes or, if all
have, is a zero character. The normal form is canonical and its own normal form, and so is every canonical path. -/
theorem normalise_reaches_canonical (hcwd : isAbsolute ctx.cwd.toList = true) (p : Text) :
    ((∃ e, normalise ctx p = .error (.unencodable e)) ↔ ∃ c ∈ userName p.toList, Utf8.nameBytes? c = none) ∧
    (normalise ctx p = .error .zeroCharacter ↔
      .char '\x00' ∈ userName p.toList ∧ ∀ c ∈ userName p.toList, Utf8.nameBytes? c ≠ none) ∧
    ((∀ c ∈ userName p.toList, c ≠ .char '\x00' ∧ Utf8.nameBytes? c ≠ none) →
      ∃ q, normalise ctx p = .ok q ∧ IsCanonical q.toList ∧ normalise ctx q = .ok q) ∧
    (normalise ctx p = .ok p ↔ IsCanonical p.toList) := by
  refine ⟨?_, ?_, fun hname => ?_, isCanonical_of_normalise hcwd, IsCanonical.normalise_eq_self hcwd⟩
  · simp only [normalise_eq_error_iff, userFault?, nameFault?_unencodable_iff]
  · rw [normalise_eq_error_iff, userFault?, nameFault?_zeroCharacter_iff]
  · have hnone : userFault? p = none := by
      rw [Option.eq_none_iff_forall_ne_some]
      intro f hf
      cases f with
      | unencodable e =>
        obtain ⟨c, hc, hno⟩ := nameFault?_unencodable_iff.1 ⟨e, hf⟩
        exact (hname c hc).2 hno
      | zeroCharacter => exact (hname _ (nameFault?_zeroCharacter_iff.1 hf).1).1 rfl
    obtain ⟨q, hform⟩ := (exists_normalise_iff ctx).2 hnone
    have hcanonical := isCanonical_of_normalise hcwd hform
    exact ⟨q, hform, hcanonical, hcanonical.normalise_eq_self hcwd⟩

end

/-- The home directory that was set is no absolute path, and the only user has one with two slashes at its front. -/
def oddHomes : Context := ⟨"/w", some "h", ⟨none, [([97, 110, 110], "//srv/ann/")]⟩⟩

theorem normalise_reaches_canonical_oddHomes :
    isAbsolute oddHomes.cwd.toList = true ∧ normalise oddHomes "~/../.." = .ok "/" ∧
    (∀ c ∈ userName (Text.toList "~ann/.././/x/"), c ≠ .char '\x00' ∧ Utf8.nameBytes? c ≠ none) ∧
    normalise oddHomes "~ann/.././/x/" = .ok "//srv/x" ∧
    IsCanonical (Text.toList "//srv/x") ∧ normalise oddHomes "//srv/x" = .ok "//srv/x" := by
  have hcwd : isAbsolute oddHomes.cwd.toList = true := by decide
  have hname : ∀ c ∈ userName (Text.toList "~ann/.././/x/"), c ≠ .char '\x00' ∧ Utf8.nameBytes? c ≠ none := by
    decide +kernel
  have hvalue : normalise oddHomes "~ann/.././/x/" = .ok "//srv/x" := by decide +kernel
  obtain ⟨q, hq, hcanonical, hagain⟩ := (normalise_reaches_canonical hcwd "~ann/.././/x/").2.2.1 hname
  obtain rfl : q = "//srv/x" := Except.ok.inj (hq.symm.trans hvalue)
  exact ⟨hcwd, by decide +kernel, hname, hvalue, hcanonical, hagain⟩

/-- The current directory is absolute and normal, and still the paths have no normal form. -/
theorem normalise_refused :
    IsCanonical (Text.toList "/work/proj") ∧
    normalise ⟨"/work/proj", some "/home/dev", {}⟩ "~\x00" = .error .zeroCharacter ∧
    normalise ⟨"/work/proj", some "/home/dev", {}⟩ (.ofList [.char '~', .half 0, .char '/', .char 'x']) =
      .error (.unencodable ⟨"utf-8", 0, 1, .half 0, "surrogates not allowed"⟩) := by
  decide +kernel

end Path

/-! ### Directories of the rules -/

namespace FileRules

open Blame.Path

variable {ctx : Context} {baseDirs systemDirs dirs dirs' : List Text} {globs : List (Option Text)} {r : FileRules}

theorem isCanonical_of_forall₂ (hcwd : isAbsolute ctx.cwd.toList = true)
    (h : List.Forall₂ (fun d d' => normalise ctx d = .ok d') dirs dirs') : ∀ d ∈ dirs', IsCanonical d.toList := by
  induction h with
  | nil => exact nofun
  | cons hd _ ih =>
    intro d hmem
    rcases List.mem_cons.1 hmem with rfl | hmem
    · exact isCanonical_of_normalise hcwd hd
    · exact ih d hmem

theorem mapM_normal_of_canonical (hcwd : isAbsolute ctx.cwd.toList = true) (h : ∀ d ∈ dirs, IsCanonical d.toList) :
    dirs.mapM (normal ctx) = .ok dirs := by
  have hself := mapM_eq_ok (g := id) fun d hd => normal_eq_ok_iff.2 ((h d hd).normalise_eq_self hcwd)
  rwa [List.map_id] at hself

/-- The directories of rules may be given again: they make the same rules. -/
theorem make_again (hcwd : isAbsolute ctx.cwd.toList = true) (hr : make ctx baseDirs systemDirs globs = .ok r) :
    make ctx r.baseDirs r.systemDirs globs = .ok r := by
  have hmade := madeFor_of_make hr
  rw [make, mapM_normal_of_canonical hcwd (isCanonical_of_forall₂ hcwd hmade.baseDirs),
    mapM_normal_of_canonical hcwd (isCanonical_of_forall₂ hcwd hmade.systemDirs), ← hmade.context, ← hmade.globs]
  rfl

end FileRules

end Blame
