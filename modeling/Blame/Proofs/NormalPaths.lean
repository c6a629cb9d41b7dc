import Blame.Proofs.PathTexts

/-!
# Normal forms of paths

The normal form of a path is made of its slashes at the front and of the components that are left when each `..`
has taken one away. Both are read off it again (`leadingSlashes_normalPath`, `components_normalPath`), so the normal
form of an absolute path is its own normal form (`normalPath_normalPath`).
-/

namespace Blame.Path

open Text

/-- The step to the directory above. -/
def up : List CodePoint := [.char '.', .char '.']

variable {absolute : Bool} {before cs cs' : List (List CodePoint)} {p q : List CodePoint}

/-! ### What is left of the components -/

theorem pushComponent_of_name {c : List CodePoint} (hc : IsComponent c) (hup : c ≠ up) :
    pushComponent absolute before c = c :: before := by
  unfold pushComponent
  rw [if_neg (not_or.2 hc.2)]
  exact if_neg hup

theorem foldl_pushComponent_pieces (p : List CodePoint) :
    (pieces p).foldl (pushComponent absolute) before = (components p).foldl (pushComponent absolute) before := by
  rw [components, List.foldl_filter]
  congr 1
  funext before c
  by_cases hc : c = [] ∨ c = [.char '.']
  · rcases hc with rfl | rfl <;> rfl
  · have hkept : (!c.isEmpty && c != [.char '.']) = true := by simpa [not_or] using hc
    rw [if_pos hkept]

theorem normalComponents_eq_foldl (p : List CodePoint) :
    normalComponents p = ((components p).foldl (pushComponent (isAbsolute p)) []).reverse := by
  rw [normalComponents, foldl_pushComponent_pieces]

theorem foldl_pushComponent_of_names (hcs : ∀ c ∈ cs, IsComponent c) (hup : up ∉ cs) :
    cs.foldl (pushComponent absolute) before = cs.reverse ++ before := by
  induction cs generalizing before with
  | nil => rfl
  | cons c rest ih =>
    have hc : c ≠ up := fun h => hup (h ▸ List.mem_cons_self)
    rw [List.foldl_cons, pushComponent_of_name (hcs c List.mem_cons_self) hc,
      ih (fun d hd => hcs d (List.mem_cons_of_mem c hd)) fun h => hup (List.mem_cons_of_mem c h),
      List.reverse_cons, List.append_assoc]
    rfl

/-- Below the root a `..` is never kept. -/
theorem up_notMem_pushComponent (h : up ∉ before) (c : List CodePoint) : up ∉ pushComponent true before c := by
  unfold pushComponent
  split
  · exact h
  · split
    · cases before with
      | nil => exact List.not_mem_nil
      | cons last others =>
        have hlast : ¬ last = [.char '.', .char '.'] := fun hl => h (hl ▸ List.mem_cons_self)
        dsimp only
        rw [if_neg hlast]
        exact fun ho => h (List.mem_cons_of_mem last ho)
    · rename_i hc
      rw [List.mem_cons, not_or]
      exact ⟨fun hu => hc hu.symm, h⟩

theorem up_notMem_pushComponents (h : up ∉ before) : up ∉ cs.foldl (pushComponent true) before := by
  induction cs generalizing before with
  | nil => exact h
  | cons c rest ih => exact ih (up_notMem_pushComponent h c)

theorem isComponent_of_mem_normalComponents {c : List CodePoint} (h : c ∈ normalComponents p) : IsComponent c := by
  rw [normalComponents_eq_foldl, List.mem_reverse] at h
  exact isComponent_of_mem ((mem_of_mem_pushComponents h).resolve_left List.not_mem_nil)

theorem up_notMem_normalComponents (hp : isAbsolute p = true) : up ∉ normalComponents p := by
  rw [normalComponents, hp, List.mem_reverse]
  exact up_notMem_pushComponents List.not_mem_nil

theorem normalComponents_of_noUp (h : up ∉ components p) : normalComponents p = components p := by
  rw [normalComponents_eq_foldl, foldl_pushComponent_of_names (fun c hc => isComponent_of_mem hc) h,
    List.append_nil, List.reverse_reverse]

/-! ### Slashes at the front -/

theorem leadingSlashes_le_two (p : List CodePoint) : leadingSlashes p ≤ 2 := by
  unfold leadingSlashes
  split <;> decide

theorem head?_joinChar_ne_slash (h : ∀ c ∈ cs, IsComponent c) : (joinChar (.char '/') cs).head? ≠ some (.char '/') := by
  cases cs with
  | nil => exact nofun
  | cons c rest =>
    obtain ⟨hslash, hne, -⟩ := h c List.mem_cons_self
    obtain ⟨x, tail, rfl⟩ := List.exists_cons_of_ne_nil hne
    have hx : x ≠ .char '/' := fun hx => hslash (hx ▸ List.mem_cons_self)
    cases rest <;> simpa [joinChar] using hx

theorem leadingSlashes_eq_zero (h : p.head? ≠ some (.char '/')) : leadingSlashes p = 0 := by
  have hp : isAbsolute p = false := decide_eq_false h
  rw [isAbsolute_iff_leadingSlashes, decide_eq_false_iff_not] at hp
  omega

theorem leadingSlashes_slash (h : p.head? ≠ some (.char '/')) : leadingSlashes (.char '/' :: p) = 1 := by
  cases p with
  | nil => rfl
  | cons c rest =>
    have hc : c ≠ .char '/' := fun hc => h (hc ▸ rfl)
    unfold leadingSlashes
    split <;> simp_all

theorem leadingSlashes_twoSlashes (h : p.head? ≠ some (.char '/')) : leadingSlashes (.char '/' :: .char '/' :: p) = 2 := by
  cases p with
  | nil => rfl
  | cons c rest =>
    have hc : c ≠ .char '/' := fun hc => h (hc ▸ rfl)
    unfold leadingSlashes
    split <;> grind

theorem leadingSlashes_ofComponents (h : ∀ c ∈ cs, IsComponent c) {n : Nat} (hn : n ≤ 2) :
    leadingSlashes (ofComponents (List.replicate n (.char '/')) cs) = n := by
  have hhead := head?_joinChar_ne_slash h
  match n with
  | 0 =>
    unfold ofComponents
    dsimp only
    split
    · rfl
    · exact leadingSlashes_eq_zero hhead
  | 1 => exact leadingSlashes_slash hhead
  | 2 => exact leadingSlashes_twoSlashes hhead

theorem ofComponents_inj (h : ∀ c ∈ cs, IsComponent c) (h' : ∀ c ∈ cs', IsComponent c) {m n : Nat} (hm : m ≤ 2)
    (hn : n ≤ 2) :
    ofComponents (List.replicate m (.char '/')) cs = ofComponents (List.replicate n (.char '/')) cs' ↔ m = n ∧ cs = cs' := by
  refine ⟨fun he => ⟨?_, ?_⟩, fun ⟨hmn, hcs⟩ => by rw [hmn, hcs]⟩
  · rw [← leadingSlashes_ofComponents h hm, he, leadingSlashes_ofComponents h' hn]
  · rw [← components_ofComponents h m, he, components_ofComponents h' n]

/-! ### The normal form -/

theorem normalPath_eq (p : List CodePoint) : normalPath p = ofComponents (rootSlashes p) (normalComponents p) := rfl

theorem components_normalPath (p : List CodePoint) : components (normalPath p) = normalComponents p :=
  components_ofComponents (fun _ => isComponent_of_mem_normalComponents) (leadingSlashes p)

theorem leadingSlashes_normalPath (p : List CodePoint) : leadingSlashes (normalPath p) = leadingSlashes p :=
  leadingSlashes_ofComponents (fun _ => isComponent_of_mem_normalComponents) (leadingSlashes_le_two p)

theorem normalComponents_normalPath (hp : isAbsolute p = true) :
    normalComponents (normalPath p) = normalComponents p := by
  rw [normalComponents_of_noUp, components_normalPath]
  rw [components_normalPath]
  exact up_notMem_normalComponents hp

theorem normalPath_normalPath (hp : isAbsolute p = true) : normalPath (normalPath p) = normalPath p := by
  rw [normalPath_eq (normalPath p), rootSlashes, leadingSlashes_normalPath, normalComponents_normalPath hp]
  rfl

theorem isAbsolute_joinPath {dir : List CodePoint} (hdir : isAbsolute dir = true) : isAbsolute (joinPath dir p) = true := by
  unfold joinPath
  split
  · assumption
  · cases dir with
    | nil => cases hdir
    | cons c rest =>
      have hc : c = .char '/' := by simpa [isAbsolute] using hdir
      split <;> simp [isAbsolute, hc]

end Blame.Path
