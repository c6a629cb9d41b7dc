import Blame.FileTree
import Blame.Proofs.PathTexts

/-!
# Places in a file tree

If a path leads anywhere then to a place that the path and the working directory determine by themselves
(`destination`): the tree only decides whether it does. Making directories puts them where nothing was, and a
write changes at most what stands at the destination of its path, so that everything else stays (`Keeps`).
-/

namespace Blame.FileTree

open Blame.Path Text

variable {t t' : FileTree} {d q at_ here : Place} {cwd p : Text} {e : Entry} {c : List CodePoint}
  {cs rest : List (List CodePoint)} {depth : Nat} {f : FileError} {bytes : List UInt8}

/-- Where one component leads from a place, if it leads anywhere. -/
def stepTo (here : Place) (c : List CodePoint) : Place :=
  if c = [] ∨ c = [.char '.'] then here
  else if c = [.char '.', .char '.'] then here.dropLast
  else here ++ [c]

/-- Where a path leads, if it leads anywhere. -/
def destination (cwd p : Text) : Place :=
  if isAbsolute p.toList then ((pieces p.toList).drop 1).foldl stepTo []
  else (pieces p.toList).foldl stepTo (components cwd.toList)

/-- A component can be followed from a place. -/
structure Enters (t : FileTree) (here : Place) (c : List CodePoint) : Prop where
  dir : t.get? here = some .dir
  search : c ≠ [] → t.permits here .search = true
  short : c ≠ [] → c ≠ [.char '.'] → c ≠ [.char '.', .char '.'] → byteLength c ≤ longestName

theorem follow_cons_eq_ok :
    t.follow here (c :: rest) = .ok at_ ↔ t.Enters here c ∧ t.follow (stepTo here c) rest = .ok at_ := by
  rw [follow, stepTo]
  cases hhere : t.get? here with
  | none => exact iff_of_false nofun fun h => by simp [h.1.dir] at hhere
  | some entry =>
    cases entry with
    | file bytes => exact iff_of_false nofun fun h => by simp [h.1.dir] at hhere
    | dir =>
      dsimp only
      by_cases hempty : c = []
      · rw [if_pos hempty, if_pos (.inl hempty)]
        exact ⟨fun h => ⟨⟨hhere, absurd hempty, absurd hempty⟩, h⟩, And.right⟩
      rw [if_neg hempty]
      cases hsearch : t.permits here .search with
      | false => exact iff_of_false nofun fun h => by simp [h.1.search hempty] at hsearch
      | true =>
        rw [Bool.not_true, if_neg Bool.false_ne_true]
        by_cases hdot : c = [.char '.']
        · rw [if_pos hdot, if_pos (.inr hdot)]
          exact ⟨fun h => ⟨⟨hhere, fun _ => hsearch, fun _ => absurd hdot⟩, h⟩, And.right⟩
        rw [if_neg hdot, if_neg (not_or.2 ⟨hempty, hdot⟩)]
        by_cases hup : c = [.char '.', .char '.']
        · rw [if_pos hup, if_pos hup]
          exact ⟨fun h => ⟨⟨hhere, fun _ => hsearch, fun _ _ => absurd hup⟩, h⟩, And.right⟩
        rw [if_neg hup, if_neg hup]
        split
        · rename_i hlong
          exact iff_of_false nofun fun h => absurd (h.1.short hempty hdot hup) (Nat.not_le.2 hlong)
        · rename_i hshort
          exact ⟨fun h => ⟨⟨hhere, fun _ => hsearch, fun _ _ _ => Nat.not_lt.1 hshort⟩, h⟩, And.right⟩

theorem eq_foldl_of_follow (h : t.follow here cs = .ok at_) : at_ = cs.foldl stepTo here := by
  induction cs generalizing here with
  | nil => exact (Except.ok.inj h).symm
  | cons c rest ih => exact ih (follow_cons_eq_ok.1 h).2

theorem eq_destination_of_locate (h : t.locate cwd p = .ok at_) : at_ = destination cwd p := by
  unfold locate at h
  unfold destination
  split at h
  · cases h
  · split at h
    · cases h
    · split at h <;> rename_i habs
      · rw [if_pos habs]
        exact eq_foldl_of_follow h
      · rw [if_neg habs]
        exact eq_foldl_of_follow h

/-! ### Entries -/

theorem lookup_setEntry_self (l : List (Place × Entry)) : (setEntry at_ e l).lookup at_ = some e := by
  induction l with
  | nil => simp [setEntry]
  | cons x rest ih =>
    unfold setEntry
    split
    · simp
    · rename_i hx
      rw [List.lookup_cons, beq_eq_false_iff_ne.2 fun h => hx h.symm]
      exact ih

theorem lookup_setEntry_of_ne (h : q ≠ at_) (l : List (Place × Entry)) :
    (setEntry at_ e l).lookup q = l.lookup q := by
  have hq : (q == at_) = false := beq_eq_false_iff_ne.2 h
  induction l with
  | nil => rw [setEntry, List.lookup_cons, hq]
  | cons x rest ih =>
    unfold setEntry
    split
    · rename_i hx
      rw [List.lookup_cons, List.lookup_cons, hx, hq]
    · rw [List.lookup_cons, List.lookup_cons, ih]

theorem get?_put_self (h : at_ ≠ []) : (t.put at_ e).get? at_ = some e := by
  rw [get?, if_neg (mt List.isEmpty_iff.1 h)]
  exact lookup_setEntry_self _

theorem get?_put_of_ne (h : q ≠ at_) : (t.put at_ e).get? q = t.get? q := by
  unfold get? put
  rw [lookup_setEntry_of_ne h]

theorem get?_root (t : FileTree) : t.get? [] = some .dir := rfl

/-! ### What stays -/

/-- What stands in `t` stands in `t'`, but if there is a file at `d` it may have become another; and `t'` permits what
`t` does. -/
structure Keeps (d : Place) (t t' : FileTree) : Prop where
  entries : ∀ q e, t.get? q = some e → e = .dir ∨ q ≠ d → t'.get? q = some e
  denied : t'.denied = t.denied

theorem Keeps.refl (d : Place) (t : FileTree) : Keeps d t t := ⟨fun _ _ h _ => h, rfl⟩

theorem Keeps.trans {t'' : FileTree} (h : Keeps d t t') (h' : Keeps d t' t'') : Keeps d t t'' :=
  ⟨fun q e hq hd => h'.entries q e (h.entries q e hq hd) hd, h'.denied.trans h.denied⟩

theorem Keeps.dir (h : Keeps d t t') (hq : t.get? q = some .dir) : t'.get? q = some .dir :=
  h.entries q .dir hq (.inl rfl)

theorem Keeps.permits (h : Keeps d t t') (access : Access) : t'.permits q access = t.permits q access := by
  rw [FileTree.permits, h.denied, FileTree.permits]

theorem keeps_put_new (h : t.get? at_ = none) (e : Entry) : Keeps d t (t.put at_ e) := by
  refine ⟨fun q e' hq _ => ?_, rfl⟩
  rw [get?_put_of_ne, hq]
  rintro rfl
  rw [h] at hq
  cases hq

theorem keeps_put_file {bytes' : List UInt8} (h : t.get? d = some (.file bytes)) :
    Keeps d t (t.put d (.file bytes')) := by
  refine ⟨fun q e' hq he => ?_, rfl⟩
  rw [get?_put_of_ne, hq]
  rintro rfl
  rcases he with rfl | he
  · rw [h] at hq
    cases hq
  · exact he rfl

theorem eq_put_of_putNew (h : t.putNew at_ e = .ok t') : t' = t.put at_ e := by
  unfold putNew at h
  split at h
  · cases h
  · cases h
  · split at h
    · exact (Except.ok.inj h).symm
    · cases h

theorem keeps_makeDir (h : t.makeDir cwd p = .ok t') : Keeps d t t' := by
  unfold makeDir at h
  split at h
  · cases h
  · split at h
    · cases h
    · rename_i hnew
      exact eq_put_of_putNew h ▸ keeps_put_new hnew .dir

/-- A directory that is made with those above it: it is there, or its parent is made first. -/
theorem keeps_makeDirs (depth : Nat) (p : Text) : Keeps d t (t.makeDirs cwd depth p).1 := by
  induction depth generalizing p with
  | zero =>
    rw [makeDirs.eq_def]
    split
    · rename_i made hmake
      exact keeps_makeDir hmake
    · dsimp only
      split <;> exact .refl d t
    · split <;> exact .refl d t
  | succ depth ih =>
    have hparent := ih (Path.parent p)
    rw [makeDirs.eq_def]
    split
    · rename_i made hmake
      exact keeps_makeDir hmake
    · dsimp only
      split
      · exact .refl d t
      · split
        · rename_i above failure hdirs
          rwa [hdirs] at hparent
        · rename_i above hdirs
          rw [hdirs] at hparent
          split
          · rename_i made hagain
            exact hparent.trans (keeps_makeDir hagain)
          · split <;> exact hparent
    · split <;> exact .refl d t

theorem keeps_makeParent : Keeps d t (t.makeParent cwd depth p).1 := by
  unfold makeParent
  split
  · exact .refl d t
  · exact keeps_makeDirs _ _

theorem write_spec (h : t.write cwd p bytes = .ok t') :
    Keeps (destination cwd p) t t' ∧ t'.get? (destination cwd p) = some (.file bytes) := by
  unfold write at h
  split at h
  · cases h
  · split at h
    · cases h
    · rename_i at_ hat
      rw [eq_destination_of_locate hat] at h
      have hroot : t.get? (destination cwd p) ≠ some .dir → destination cwd p ≠ [] := by
        intro hne hnil
        rw [hnil] at hne
        exact hne (get?_root t)
      split at h
      · cases h
      · rename_i old hold
        split at h
        · cases h
          exact ⟨keeps_put_file hold, get?_put_self (hroot fun hd => by rw [hold] at hd; cases hd)⟩
        · cases h
      · rename_i hnew
        cases hput : t.putNew (destination cwd p) (.file bytes) with
        | error r =>
          rw [hput] at h
          cases h
        | ok made =>
          rw [hput] at h
          cases h
          rw [eq_put_of_putNew hput]
          exact ⟨keeps_put_new hnew _, get?_put_self (hroot fun hd => by rw [hnew] at hd; cases hd)⟩

theorem keeps_writeText (text : Text) : Keeps (destination cwd p) t (t.writeText cwd depth p text).1 := by
  unfold writeText
  have hparent : Keeps (destination cwd p) t (t.makeParent cwd depth p).1 := keeps_makeParent
  rcases hmake : t.makeParent cwd depth p with ⟨above, _ | failure⟩
  · rw [hmake] at hparent
    dsimp only
    split
    · rename_i written hwrite
      exact hparent.trans (write_spec hwrite).1
    · exact hparent
  · rw [hmake] at hparent
    exact hparent

/-! ### Reading what was written -/

theorem Keeps.enters (h : Keeps d t t') (he : t.Enters here c) : t'.Enters here c :=
  ⟨h.dir he.dir, fun hc => (h.permits .search).trans (he.search hc), he.short⟩

theorem Keeps.follow (h : Keeps d t t') (hf : t.follow here cs = .ok at_) : t'.follow here cs = .ok at_ := by
  induction cs generalizing here with
  | nil => exact hf
  | cons c rest ih =>
    obtain ⟨henters, hrest⟩ := follow_cons_eq_ok.1 hf
    exact follow_cons_eq_ok.2 ⟨h.enters henters, ih hrest⟩

theorem Keeps.locate (h : Keeps d t t') (hl : t.locate cwd p = .ok at_) : t'.locate cwd p = .ok at_ := by
  unfold FileTree.locate at hl ⊢
  split
  · rename_i hempty
    rw [if_pos hempty] at hl
    cases hl
  · rename_i hempty
    rw [if_neg hempty] at hl
    split
    · rename_i hlong
      rw [if_pos hlong] at hl
      cases hl
    · rename_i hlong
      rw [if_neg hlong] at hl
      split
      · rename_i habs
        rw [if_pos habs] at hl
        exact h.follow hl
      · rename_i habs
        rw [if_neg habs] at hl
        exact h.follow hl

theorem stat_eq_ok :
    t.stat cwd p = .ok e ↔ nameFault? p.toList = none ∧ ∃ at_, t.locate cwd p = .ok at_ ∧ t.get? at_ = some e := by
  unfold stat
  split
  · rename_i n hfault
    exact iff_of_false nofun fun h => by simp [h.1] at hfault
  · rename_i hname
    split
    · rename_i r hat
      exact iff_of_false nofun fun ⟨_, _, h, _⟩ => by simp [h] at hat
    · rename_i at_ hat
      split
      · rename_i e' he
        constructor
        · intro h
          exact ⟨hname, at_, hat, by rw [he, Except.ok.inj h]⟩
        · rintro ⟨-, _, hat', hentry⟩
          rw [← Except.ok.inj (hat.symm.trans hat'), he] at hentry
          exact congrArg Except.ok (Option.some.inj hentry)
      · rename_i hnone
        refine iff_of_false nofun fun ⟨_, _, hat', hentry⟩ => ?_
        rw [← Except.ok.inj (hat.symm.trans hat'), hnone] at hentry
        cases hentry

theorem content?_eq_some_iff : t.content? cwd p = some bytes ↔
    nameFault? p.toList = none ∧ ∃ at_, t.locate cwd p = .ok at_ ∧ t.get? at_ = some (.file bytes) := by
  rw [← stat_eq_ok, content?]
  split
  · rename_i bytes' hfile
    rw [hfile, Option.some.injEq, Except.ok.injEq, Entry.file.injEq]
  · rename_i hno
    exact iff_of_false nofun fun h => hno bytes h

/-- A file holds what it held, unless it is the one that may have changed. -/
theorem Keeps.content? (h : Keeps d t t') (hd : destination cwd p ≠ d) (hfile : t.content? cwd p = some bytes) :
    t'.content? cwd p = some bytes := by
  obtain ⟨hname, at_, hat, hentry⟩ := content?_eq_some_iff.1 hfile
  have hne : at_ ≠ d := eq_destination_of_locate hat ▸ hd
  exact content?_eq_some_iff.2 ⟨hname, at_, h.locate hat, h.entries at_ _ hentry (.inr hne)⟩

theorem content?_write (h : t.write cwd p bytes = .ok t') : t'.content? cwd p = some bytes := by
  obtain ⟨hkeeps, hfile⟩ := write_spec h
  unfold write at h
  split at h
  · cases h
  · rename_i hname
    split at h
    · cases h
    · rename_i at_ hat
      rw [← eq_destination_of_locate hat] at hfile
      exact content?_eq_some_iff.2 ⟨hname, at_, hkeeps.locate hat, hfile⟩

theorem content?_writeText {text : Text} (h : (t.writeText cwd depth p text).2 = none) :
    ∃ bytes, Utf8.encode text = .ok bytes ∧ (t.writeText cwd depth p text).1.content? cwd p = some bytes := by
  unfold writeText bytesOf at h ⊢
  rcases hmake : t.makeParent cwd depth p with ⟨above, _ | failure⟩
  · rw [hmake] at h
    dsimp only at h ⊢
    cases hbytes : Utf8.encode text with
    | error e =>
      rw [hbytes] at h
      dsimp only at h
      split at h <;> cases h
    | ok bytes =>
      rw [hbytes] at h
      dsimp only at h ⊢
      split at h
      · rename_i written hwrite
        exact ⟨bytes, rfl, content?_write hwrite⟩
      · cases h
  · rw [hmake] at h
    cases h

/-! ### What fails -/

theorem read_error (h : t.read cwd p = .error f) :
    (∃ r, f = .refused r p) ∨ ∃ n, nameFault? p.toList = some n ∧ f = .ofName n := by
  unfold read at h
  split at h
  · rename_i n hfault
    cases h
    exact .inr ⟨n, hfault, rfl⟩
  · refine .inl ?_
    split at h
    · exact ⟨_, (Except.error.inj h).symm⟩
    · split at h
      · exact ⟨_, (Except.error.inj h).symm⟩
      · split at h
        · exact ⟨_, (Except.error.inj h).symm⟩
        · split at h
          · cases h
          · exact ⟨_, (Except.error.inj h).symm⟩

theorem write_error (h : t.write cwd p bytes = .error f) :
    (∃ r, f = .refused r p) ∨ ∃ n, nameFault? p.toList = some n ∧ f = .ofName n := by
  unfold write at h
  split at h
  · rename_i n hfault
    cases h
    exact .inr ⟨n, hfault, rfl⟩
  · refine .inl ?_
    split at h
    · exact ⟨_, (Except.error.inj h).symm⟩
    · rename_i at_ hat
      split at h
      · exact ⟨_, (Except.error.inj h).symm⟩
      · split at h
        · cases h
        · exact ⟨_, (Except.error.inj h).symm⟩
      · cases hput : t.putNew at_ (.file bytes) with
        | ok made =>
          rw [hput] at h
          cases h
        | error r =>
          rw [hput] at h
          exact ⟨r, (Except.error.inj h).symm⟩

/-- Directories are refused, or there are more of them to be made than may be. -/
theorem makeDirs_error (h : (t.makeDirs cwd depth p).2 = some f) :
    (∃ r q, f = .refused r q) ∨ f = .tooDeep ∧ depth < (components p.toList).length := by
  induction depth generalizing p with
  | zero =>
    rw [makeDirs.eq_def] at h
    split at h
    · cases h
    · dsimp only at h
      split at h
      · exact .inl ⟨_, _, (Option.some.inj h).symm⟩
      · rename_i hcs
        exact .inr ⟨(Option.some.inj h).symm, List.length_pos_iff.2 (mt List.isEmpty_iff.2 hcs)⟩
    · split at h
      · cases h
      · exact .inl ⟨_, _, (Option.some.inj h).symm⟩
  | succ depth ih =>
    rw [makeDirs.eq_def] at h
    split at h
    · cases h
    · dsimp only at h
      split at h
      · exact .inl ⟨_, _, (Option.some.inj h).symm⟩
      · split at h
        · rename_i above failure hdirs
          -- what is above was too deep already, and the path has a component more
          refine (ih (p := Path.parent p) (by rw [hdirs]; exact h)).imp_right fun ⟨hf, hdeep⟩ => ⟨hf, ?_⟩
          rw [components_parent, List.length_dropLast] at hdeep
          omega
        · split at h
          · cases h
          · split at h
            · cases h
            · exact .inl ⟨_, _, (Option.some.inj h).symm⟩
    · split at h
      · cases h
      · exact .inl ⟨_, _, (Option.some.inj h).symm⟩

/-- A write is refused, or its path cannot be given to the system or lies too deep, or its text has no bytes. -/
theorem writeText_error {text : Text} (h : (t.writeText cwd depth p text).2 = some f) :
    (∃ r q, f = .refused r q) ∨ (∃ n, f = .ofName n ∧ ¬ n.Spares p.toList) ∨
      f = .tooDeep ∧ depth + 1 < (components p.toList).length ∨
      ∃ e, f = .unencodable e ∧ Utf8.encode text = .error e := by
  unfold writeText at h
  rcases hmake : t.makeParent cwd depth p with ⟨above, _ | failure⟩
  · rw [hmake] at h
    dsimp only at h
    split at h
    · unfold bytesOf at h
      split at h
      · cases h
      · rename_i e he
        exact .inr (.inr (.inr ⟨e, (Option.some.inj h).symm, he⟩))
    · rename_i g hwrite
      cases h
      rcases write_error hwrite with ⟨r, hr⟩ | ⟨n, hfault, hn⟩
      · exact .inl ⟨r, p, hr⟩
      · exact .inr (.inl ⟨n, hn, not_spares_of_nameFault? hfault⟩)
  · rw [hmake] at h
    cases h
    unfold makeParent at hmake
    split at hmake
    · rename_i n hfault
      cases hmake
      exact .inr (.inl ⟨n, rfl, mt NameFault.Spares.parent (not_spares_of_nameFault? hfault)⟩)
    · rcases makeDirs_error (by rw [hmake]) with hr | ⟨hf, hdeep⟩
      · exact .inl hr
      · rw [components_parent, List.length_dropLast] at hdeep
        exact .inr (.inr (.inl ⟨hf, by omega⟩))

end Blame.FileTree
