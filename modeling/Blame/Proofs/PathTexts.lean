import Blame.Path.Plain

/-!
# Paths put together and taken apart

A plain path is what its components are joined to, so they are read off it again, and its directory has all
of them but the last. No path that is made of others holds a code point that none of them holds, slashes and
dots apart; so what is wrong with the path of a target is due to a path or a directory that it is made of
(`exists_of_target`).
-/

namespace Blame.Text

variable {sep : CodePoint}

theorem splitChar_of_notMem {piece : List CodePoint} (h : sep ∉ piece) : splitChar sep piece = [piece] := by
  induction piece with
  | nil => rfl
  | cons c rest ih =>
    have hc : c ≠ sep := fun hc => h (hc ▸ List.mem_cons_self)
    rw [splitChar, if_neg hc, ih fun hr => h (List.mem_cons_of_mem c hr)]

theorem splitChar_append_cons {piece : List CodePoint} (h : sep ∉ piece) (rest : List CodePoint) :
    splitChar sep (piece ++ sep :: rest) = piece :: splitChar sep rest := by
  induction piece with
  | nil => rw [List.nil_append, splitChar, if_pos rfl]
  | cons c piece ih =>
    have hc : c ≠ sep := fun hc => h (hc ▸ List.mem_cons_self)
    rw [List.cons_append, splitChar, if_neg hc, ih fun hr => h (List.mem_cons_of_mem c hr)]

theorem splitChar_ne_nil (sep : CodePoint) (cs : List CodePoint) : splitChar sep cs ≠ [] := by
  cases cs with
  | nil => exact List.cons_ne_nil _ _
  | cons c rest =>
    rw [splitChar]
    split
    · exact List.cons_ne_nil _ _
    · split <;> exact List.cons_ne_nil _ _

theorem joinChar_cons {piece : List CodePoint} {pieces : List (List CodePoint)} (hne : pieces ≠ []) :
    joinChar sep (piece :: pieces) = piece ++ sep :: joinChar sep pieces := by
  cases pieces with
  | nil => exact absurd rfl hne
  | cons next pieces => rfl

theorem joinChar_splitChar (sep : CodePoint) (cs : List CodePoint) : joinChar sep (splitChar sep cs) = cs := by
  induction cs with
  | nil => rfl
  | cons c rest ih =>
    rw [splitChar]
    split
    · rename_i hc
      rw [joinChar_cons (splitChar_ne_nil sep rest), ih, hc, List.nil_append]
    · obtain ⟨piece, pieces, hrest⟩ := List.exists_cons_of_ne_nil (splitChar_ne_nil sep rest)
      rw [hrest] at ih ⊢
      cases pieces <;> exact congrArg (c :: ·) ih

theorem splitChar_joinChar {pieces : List (List CodePoint)} (hne : pieces ≠ []) (h : ∀ c ∈ pieces, sep ∉ c) :
    splitChar sep (joinChar sep pieces) = pieces := by
  induction pieces with
  | nil => exact absurd rfl hne
  | cons piece pieces ih =>
    have hpiece := h piece List.mem_cons_self
    cases pieces with
    | nil => exact splitChar_of_notMem hpiece
    | cons next pieces =>
      have hrest := ih (List.cons_ne_nil next pieces) fun c hc => h c (List.mem_cons_of_mem piece hc)
      rw [joinChar, splitChar_append_cons hpiece, hrest]
      exact List.cons_ne_nil next pieces

theorem mem_of_mem_splitChar {cs piece : List CodePoint} (h : piece ∈ splitChar sep cs) :
    sep ∉ piece ∧ ∀ x ∈ piece, x ∈ cs := by
  induction cs generalizing piece with
  | nil =>
    obtain rfl := List.mem_singleton.1 h
    exact ⟨List.not_mem_nil, fun x hx => hx⟩
  | cons c rest ih =>
    rw [splitChar] at h
    split at h
    · rcases List.mem_cons.1 h with rfl | h
      · exact ⟨List.not_mem_nil, fun x hx => absurd hx List.not_mem_nil⟩
      · exact ⟨(ih h).1, fun x hx => List.mem_cons_of_mem c ((ih h).2 x hx)⟩
    · rename_i hc
      cases hs : splitChar sep rest with
      | nil =>
        rw [hs] at h
        obtain rfl := List.mem_singleton.1 h
        exact ⟨fun hm => hc (List.mem_singleton.1 hm).symm,
          fun x hx => List.mem_singleton.1 hx ▸ List.mem_cons_self⟩
      | cons first others =>
        rw [hs] at h ih
        rcases List.mem_cons.1 h with rfl | h
        · have hfirst := ih List.mem_cons_self
          refine ⟨fun hm => ?_, fun x hx => ?_⟩
          · rcases List.mem_cons.1 hm with rfl | hm
            · exact hc rfl
            · exact hfirst.1 hm
          · rcases List.mem_cons.1 hx with rfl | hx
            · exact List.mem_cons_self
            · exact List.mem_cons_of_mem c (hfirst.2 x hx)
        · have hothers := ih (List.mem_cons_of_mem first h)
          exact ⟨hothers.1, fun x hx => List.mem_cons_of_mem c (hothers.2 x hx)⟩

theorem mem_of_mem_joinChar {pieces : List (List CodePoint)} {x : CodePoint} (h : x ∈ joinChar sep pieces) :
    x = sep ∨ ∃ piece ∈ pieces, x ∈ piece := by
  induction pieces with
  | nil => cases h
  | cons piece pieces ih =>
    cases pieces with
    | nil => exact .inr ⟨piece, List.mem_cons_self, h⟩
    | cons next pieces =>
      rw [joinChar, List.mem_append, List.mem_cons] at h
      · rcases h with h | rfl | h
        · exact .inr ⟨piece, List.mem_cons_self, h⟩
        · exact .inl rfl
        · rcases ih h with rfl | ⟨c, hc, hx⟩
          · exact .inl rfl
          · exact .inr ⟨c, List.mem_cons_of_mem piece hc, hx⟩
      · exact List.cons_ne_nil next pieces

end Blame.Text

namespace Blame.Path

open Text

/-- What a path goes through: a name, or the step to the directory above. -/
def IsComponent (c : List CodePoint) : Prop := .char '/' ∉ c ∧ c ≠ [] ∧ c ≠ [.char '.']

theorem isComponent_of_mem {p c : List CodePoint} (h : c ∈ components p) : IsComponent c := by
  rw [components, List.mem_filter] at h
  obtain ⟨hc, hkept⟩ := h
  simp only [Bool.and_eq_true, Bool.not_eq_true', List.isEmpty_eq_false_iff, bne_iff_ne] at hkept
  exact ⟨(mem_of_mem_splitChar hc).1, hkept⟩

theorem components_joinChar {cs : List (List CodePoint)} (h : ∀ c ∈ cs, IsComponent c) :
    components (joinChar (.char '/') cs) = cs := by
  by_cases hne : cs = []
  · subst hne
    rfl
  · rw [components, pieces, splitChar_joinChar hne fun c hc => (h c hc).1, List.filter_eq_self]
    intro c hc
    simp only [Bool.and_eq_true, Bool.not_eq_true', List.isEmpty_eq_false_iff, bne_iff_ne]
    exact (h c hc).2

theorem components_slashes (n : Nat) (p : List CodePoint) :
    components (List.replicate n (.char '/') ++ p) = components p := by
  induction n with
  | zero => rfl
  | succ n ih =>
    rw [List.replicate_succ, List.cons_append, ← ih]
    simp only [components, pieces, splitChar, if_pos, List.filter_cons, List.isEmpty_nil, Bool.not_true,
      Bool.false_and, Bool.false_eq_true, if_false]

theorem joinChar_eq_nil {cs : List (List CodePoint)} (h : ∀ c ∈ cs, IsComponent c) (hj : joinChar (.char '/') cs = []) :
    cs = [] := by
  rw [← components_joinChar h, hj]
  rfl

theorem components_ofComponents {cs : List (List CodePoint)} (h : ∀ c ∈ cs, IsComponent c) (n : Nat) :
    components (ofComponents (List.replicate n (.char '/')) cs) = cs := by
  unfold ofComponents
  dsimp only
  split
  · rename_i hempty
    rw [List.isEmpty_iff, List.append_eq_nil_iff] at hempty
    rw [joinChar_eq_nil h hempty.2]
    decide
  · rw [components_slashes, components_joinChar h]

theorem isAbsolute_ofComponents {cs : List (List CodePoint)} (h : ∀ c ∈ cs, IsComponent c) (n : Nat) :
    isAbsolute (ofComponents (List.replicate n (.char '/')) cs) = decide (0 < n) := by
  unfold ofComponents
  dsimp only
  cases n with
  | succ n => rfl
  | zero =>
    cases cs with
    | nil => rfl
    | cons c rest =>
      obtain ⟨hslash, hne, -⟩ := h c List.mem_cons_self
      cases c with
      | nil => exact absurd rfl hne
      | cons x c =>
        have hx : x ≠ .char '/' := fun hx => hslash (hx ▸ List.mem_cons_self)
        cases rest <;> simpa [joinChar, isAbsolute] using hx

theorem isAbsolute_iff_leadingSlashes (p : List CodePoint) : isAbsolute p = decide (0 < leadingSlashes p) := by
  unfold leadingSlashes isAbsolute
  split
  · rfl
  · rfl
  · rfl
  · rename_i h
    cases p with
    | nil => rfl
    | cons c rest =>
      have hc : c ≠ .char '/' := fun hc => h rest (hc ▸ rfl)
      simpa using hc

theorem components_parent (p : Text) : components (parent p).toList = (components p.toList).dropLast := by
  rw [parent, Text.toList_ofList, rootSlashes]
  exact components_ofComponents (fun c hc => isComponent_of_mem (List.dropLast_subset _ hc)) _

/-! ### Characters -/

theorem mem_of_mem_components {p c : List CodePoint} (h : c ∈ components p) : ∀ x ∈ c, x ∈ p :=
  (mem_of_mem_splitChar (List.mem_filter.1 h).1).2

theorem mem_of_mem_joinPath {dir p : List CodePoint} {x : CodePoint} (h : x ∈ joinPath dir p) :
    x ∈ dir ∨ x ∈ p ∨ x = .char '/' := by
  unfold joinPath at h
  split at h
  · exact .inr (.inl h)
  · split at h
    · exact (List.mem_append.1 h).imp_right .inl
    · rcases List.mem_append.1 h with h | h
      · exact .inl h
      · exact .inr ((List.mem_cons.1 h).symm)

theorem mem_of_mem_pushComponents {absolute : Bool} {before l : List (List CodePoint)} {c : List CodePoint}
    (h : c ∈ l.foldl (pushComponent absolute) before) : c ∈ before ∨ c ∈ l := by
  induction l generalizing before with
  | nil => exact .inl h
  | cons d rest ih =>
    rcases ih h with hd | hd
    · have hpush : c ∈ before ∨ c = d := by
        unfold pushComponent at hd
        split at hd
        · exact .inl hd
        · split at hd
          · cases before with
            | nil =>
              cases absolute with
              | true => cases hd
              | false => exact .inr (List.mem_singleton.1 hd)
            | cons last others =>
              dsimp only at hd
              split at hd
              · exact (List.mem_cons.1 hd).symm
              · exact .inl (List.mem_cons_of_mem last hd)
          · exact (List.mem_cons.1 hd).symm
      rcases hpush with hc | rfl
      · exact .inl hc
      · exact .inr List.mem_cons_self
    · exact .inr (List.mem_cons_of_mem d hd)

/-- The fault is due to none of the code points. -/
def NameFault.Spares (f : NameFault) (cs : List CodePoint) : Prop := ∀ c ∈ cs, ¬ f.DueTo c

/-- What `~` can stand for. -/
def Context.IsHome (ctx : Context) (dir : Text) : Prop :=
  ctx.home = some dir ∨ ctx.users.own = some dir ∨ ∃ name, (name, dir) ∈ ctx.users.named

section
variable {f : NameFault} {ctx : Context} {cwd p q : Text} {cs ds : List CodePoint} {absolute : Bool}
  {before names : List (List CodePoint)}

theorem not_dueTo_slash (f : NameFault) : ¬ f.DueTo (.char '/') := by
  cases f with
  | unencodable e => exact nofun
  | zeroCharacter => exact (by decide : CodePoint.char '/' ≠ .char '\x00')

theorem not_dueTo_dot (f : NameFault) : ¬ f.DueTo (.char '.') := by
  cases f with
  | unencodable e => exact nofun
  | zeroCharacter => exact (by decide : CodePoint.char '.' ≠ .char '\x00')

theorem not_spares_of_nameFault? (h : nameFault? cs = some f) : ¬ f.Spares cs := by
  obtain ⟨c, hc, hdue⟩ := exists_of_nameFault? h
  exact fun hs => hs c hc hdue

theorem not_spares_iff : ¬ f.Spares cs ↔ ∃ c ∈ cs, f.DueTo c := by simp [NameFault.Spares]

namespace NameFault.Spares

theorem append (h : f.Spares cs) (h' : f.Spares ds) : f.Spares (cs ++ ds) := fun c hc =>
  (List.mem_append.1 hc).elim (h c) (h' c)

theorem of_sublist (h : f.Spares ds) (hs : cs.Sublist ds) : f.Spares cs := fun c hc => h c (hs.mem hc)

theorem slashes (f : NameFault) (n : Nat) : f.Spares (List.replicate n (.char '/')) := fun _ hc =>
  List.eq_of_mem_replicate hc ▸ not_dueTo_slash f

theorem joinChar (h : ∀ c ∈ names, f.Spares c) : f.Spares (Text.joinChar (.char '/') names) := by
  intro x hx
  obtain rfl | ⟨c, hc, hx⟩ := mem_of_mem_joinChar hx
  · exact not_dueTo_slash f
  · exact h c hc x hx

theorem ofComponents {n : Nat} (h : ∀ c ∈ names, f.Spares c) :
    f.Spares (ofComponents (List.replicate n (.char '/')) names) := by
  unfold Path.ofComponents
  dsimp only
  split
  · exact fun c hc => List.mem_singleton.1 hc ▸ not_dueTo_dot f
  · exact (slashes f n).append (joinChar h)

theorem components (h : f.Spares cs) : ∀ c ∈ Path.components cs, f.Spares c := fun _ hc x hx =>
  h x (mem_of_mem_components hc x hx)

theorem plain (h : f.Spares p.toList) : f.Spares (plain p).toList := ofComponents h.components

theorem parent (h : f.Spares p.toList) : f.Spares (parent p).toList :=
  ofComponents fun c hc => h.components c (List.dropLast_subset _ hc)

theorem joinPath (h : f.Spares cs) (h' : f.Spares ds) : f.Spares (joinPath cs ds) := by
  intro x hx
  rcases mem_of_mem_joinPath hx with hx | hx | rfl
  · exact h x hx
  · exact h' x hx
  · exact not_dueTo_slash f

theorem resolved (hcwd : f.Spares cwd.toList) (h : f.Spares p.toList) : f.Spares (resolved cwd p).toList := by
  have hnames : ∀ c ∈ normalComponents (Path.joinPath cwd.toList p.toList), f.Spares c := by
    intro c hc x hx
    rw [normalComponents, List.mem_reverse] at hc
    have hpiece := (mem_of_mem_pushComponents hc).resolve_left List.not_mem_nil
    exact (hcwd.joinPath h) x ((mem_of_mem_splitChar hpiece).2 x hx)
  exact (slashes f 1).append (joinChar hnames)

theorem fromHome (h : f.Spares q.toList) (h' : f.Spares cs) : f.Spares (fromHome q cs) := by
  unfold Path.fromHome
  dsimp only
  split
  · exact slashes f 1
  · refine append (fun c hc => h c ?_) h'
    rw [List.mem_reverse] at hc
    exact List.mem_reverse.1 ((List.dropWhile_sublist _).mem hc)

end NameFault.Spares

theorem isHome_of_homeOf {name : List CodePoint} {dir : Text} (h : ctx.homeOf name = .ok (some dir)) :
    ctx.IsHome dir := by
  unfold Context.homeOf at h
  split at h
  · obtain hhome | ⟨-, hown⟩ := Option.or_eq_some_iff.1 (Except.ok.inj h)
    · exact .inl hhome
    · exact .inr (.inl hown)
  · cases hbytes : nameBytes name with
    | error f =>
      rw [hbytes] at h
      cases h
    | ok bytes =>
      rw [hbytes] at h
      obtain ⟨l, l', hnamed, -⟩ := List.lookup_eq_some_iff.1 (Except.ok.inj h)
      exact .inr (.inr ⟨bytes, by simp [hnamed]⟩)

theorem homeOf_eq_error_iff (ctx : Context) {name : List CodePoint} :
    ctx.homeOf name = .error f ↔ nameFault? name = some f := by
  rw [Context.homeOf, nameFault?_eq_some]
  cases name with
  | nil =>
    rw [List.isEmpty_nil, if_pos rfl]
    exact iff_of_false nofun nofun
  | cons c rest =>
    rw [List.isEmpty_cons, if_neg Bool.false_ne_true]
    cases nameBytes (c :: rest) with
    | error f' => simp only [Except.map, Except.error.injEq]
    | ok bytes => exact iff_of_false nofun nofun

theorem userName_sublist (cs : List CodePoint) : (userName cs).Sublist cs := by
  unfold userName
  split
  · exact (List.takeWhile_sublist _).cons _
  · exact List.nil_sublist _

theorem expandUser_eq_error_iff (ctx : Context) : expandUser ctx cs = .error f ↔ nameFault? (userName cs) = some f := by
  unfold expandUser
  split
  · rename_i rest
    rw [← homeOf_eq_error_iff ctx]
    cases ctx.homeOf (userName (.char '~' :: rest)) with
    | error f' => simp only [Except.map, Except.error.injEq]
    | ok home => exact iff_of_false nofun nofun
  · rename_i h
    have hname : userName cs = [] := by
      unfold userName
      split
      · exact absurd rfl (h _)
      · rfl
    rw [hname]
    exact iff_of_false nofun nofun

/-- A code point stands in a path or in a directory that the path may be taken from. -/
def Context.Mentions (ctx : Context) (p : Text) (c : CodePoint) : Prop :=
  c ∈ p.toList ∨ c ∈ ctx.cwd.toList ∨ ∃ dir, ctx.IsHome dir ∧ c ∈ dir.toList

namespace NameFault.Spares

theorem expandUser (hcs : f.Spares cs) (hhomes : ∀ dir, ctx.IsHome dir → f.Spares dir.toList)
    (h : expandUser ctx cs = .ok ds) : f.Spares ds := by
  unfold Path.expandUser at h
  split at h
  · rename_i rest
    cases hhome : ctx.homeOf (userName (.char '~' :: rest)) with
    | error f' =>
      rw [hhome] at h
      cases h
    | ok home =>
      rw [hhome] at h
      cases home with
      | none =>
        cases h
        exact hcs
      | some dir =>
        cases h
        exact (hhomes dir (isHome_of_homeOf hhome)).fromHome
          (hcs.of_sublist ((List.dropWhile_sublist _).cons _))
  · cases h
    exact hcs

theorem expanded (hp : f.Spares p.toList) (hhomes : ∀ dir, ctx.IsHome dir → f.Spares dir.toList)
    (h : expanded ctx p = .ok q) : f.Spares q.toList := by
  unfold Path.expanded at h
  split at h
  · rename_i c rest hcs
    have hpieces : ∀ d ∈ c :: rest, f.Spares d := hcs ▸ hp.components
    split at h
    · split at h
      · cases h
      · rename_i dir hdir
        split at h
        · cases h
        · cases h
          have hbase := ((hpieces c List.mem_cons_self).expandUser hhomes hdir)
          exact plain (hbase.plain.joinPath (joinChar fun d hd => hpieces d (List.mem_cons_of_mem c hd)))
    · cases h
      exact hp.plain
  · cases h
    exact hp.plain

end NameFault.Spares

theorem not_spares_of_expanded_error (h : expanded ctx p = .error (.name f)) : ¬ f.Spares p.toList := by
  unfold expanded at h
  split at h
  · rename_i c rest hcs
    split at h
    · split at h
      · rename_i f' hdir
        cases h
        intro hp
        have hc : f.Spares c := hp.components c (hcs ▸ List.mem_cons_self)
        exact not_spares_of_nameFault? ((expandUser_eq_error_iff ctx).1 hdir) (hc.of_sublist (userName_sublist c))
      · split at h <;> cases h
    · cases h
  · cases h

theorem not_spares_of_wayFault? (hbefore : ∀ c ∈ before, f.Spares c) (h : wayFault? absolute before names = some f) :
    ¬ ∀ c ∈ names, f.Spares c := by
  intro hnames
  induction names generalizing before with
  | nil => cases h
  | cons c rest ih =>
    have hhere : ∀ d ∈ pushComponent absolute before c, f.Spares d := by
      intro d hd
      have hsource : d ∈ before ∨ d ∈ [c] := mem_of_mem_pushComponents (l := [c]) hd
      rcases hsource with hd | hd
      · exact hbefore d hd
      · exact hnames d (List.mem_singleton.1 hd ▸ List.mem_cons_self)
    have hasked : f.Spares (Text.joinChar (.char '/') (pushComponent absolute before c).reverse) :=
      .joinChar fun d hd => hhere d (List.mem_reverse.1 hd)
    rw [wayFault?] at h
    split at h
    · rename_i f' hfault
      cases h
      split at hfault
      · cases hfault
      · split at hfault
        · exact not_spares_of_nameFault? hfault ((NameFault.Spares.slashes f 1).append hasked)
        · exact not_spares_of_nameFault? hfault hasked
    · exact ih hhere h fun d hd => hnames d (List.mem_cons_of_mem c hd)

/-- A fault on the way to a target is due to something that the path of the target is made of, and so is one of the
path itself. -/
theorem exists_of_target (h : target ctx p = .error (.name f) ∨ ∃ q, target ctx p = .ok q ∧ ¬ f.Spares q.toList) :
    ∃ c, ctx.Mentions p c ∧ f.DueTo c := by
  refine Classical.byContradiction fun hno => ?_
  have hp : f.Spares p.toList := fun c hc hdue => hno ⟨c, .inl hc, hdue⟩
  have hcwd : f.Spares ctx.cwd.toList := fun c hc hdue => hno ⟨c, .inr (.inl hc), hdue⟩
  have hhomes : ∀ dir, ctx.IsHome dir → f.Spares dir.toList := fun dir hdir c hc hdue =>
    hno ⟨c, .inr (.inr ⟨dir, hdir, hc⟩), hdue⟩
  unfold target at h
  cases hexpanded : expanded ctx (plain p) with
  | error way =>
    rw [hexpanded] at h
    obtain h | ⟨q, h, -⟩ := h <;> cases h
    exact not_spares_of_expanded_error hexpanded hp.plain
  | ok path =>
    have hpath := hp.plain.expanded hhomes hexpanded
    rw [hexpanded] at h
    dsimp only at h
    split at h
    · rename_i f' hway
      obtain h | ⟨q, h, -⟩ := h <;> cases h
      exact not_spares_of_wayFault? (fun _ hc => absurd hc List.not_mem_nil) hway hpath.components
    · split at h
      · rename_i f' hname
        obtain h | ⟨q, h, -⟩ := h <;> cases h
        exact not_spares_of_nameFault? hname (hcwd.resolved hpath)
      · obtain h | ⟨q, h, hq⟩ := h <;> cases h
        exact hq (hcwd.resolved hpath)

end

end Blame.Path
