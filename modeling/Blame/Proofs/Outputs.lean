import Blame.Proofs.Places
import Blame.Proofs.Prepared

/-!
# What an output does

An output goes to standard output or writes under one path, and whatever stood elsewhere in the tree stays
(`Output.Touches`). What each output preserves, all of them preserve in turn (`emitAll_preserves`).
-/

namespace Blame.Command

open FileTree Number Text

variable {w : World} {st : State} {p text : Text}

theorem emitFile_of_error {f : Path.WayFault} (st : State) (text : Text) (h : Path.target w.context p = .error f) :
    emitFile w st p text = (st, some (.ofWay f)) := by
  unfold emitFile
  rw [h]

/-- A file that a user names is written under its absolute path. -/
theorem emitFile_of_ok {path : Text} (st : State) (text : Text) (h : Path.target w.context p = .ok path) :
    emitFile w st p text = ({ st with tree := (st.tree.writeText w.cwd w.directories path text).1 },
      (st.tree.writeText w.cwd w.directories path text).2.map .file) := by
  unfold emitFile
  rw [h]

theorem dump_spec (w : World) (st : State) (records : List Json) (p : Text) :
    let written := st.tree.writeText w.cwd w.directories (Path.plain p) ((Json.list records).write (.indented 2))
    (dump w st records p).1.tree = written.1 ∧ (dump w st records p).1.stdout = st.stdout ∧
      (dump w st records p).2 = written.2.map .file := by
  unfold dump
  dsimp only
  generalize st.tree.writeText w.cwd w.directories (Path.plain p) ((Json.list records).write (.indented 2)) = written
  rcases written with ⟨tree, _ | e⟩
  · exact ⟨rfl, rfl, rfl⟩
  · exact ⟨rfl, rfl, rfl⟩

/-! ### One output -/

/-- Where a file that a user names is written, if it can be. -/
def World.place (w : World) (p : Text) : Place :=
  match Path.target w.context p with
  | .error _ => []
  | .ok path => destination w.cwd path

/-- The output leaves standard output and all of the tree but one file as they are. -/
structure Output.Touches (o : Output) (d : Place) : Prop where
  keeps : ∀ st, Keeps d st.tree (o st).1.tree
  stdout : ∀ st, (o st).1.stdout = st.stdout

theorem touches_emitFile (w : World) (p text : Text) :
    Output.Touches (fun st => emitFile w st p text) (w.place p) := by
  have hspec (st : State) : Keeps (w.place p) st.tree (emitFile w st p text).1.tree ∧
      (emitFile w st p text).1.stdout = st.stdout := by
    unfold World.place
    cases htarget : Path.target w.context p with
    | error f =>
      rw [emitFile_of_error st text htarget]
      exact ⟨.refl _ _, rfl⟩
    | ok path =>
      rw [emitFile_of_ok st text htarget]
      exact ⟨keeps_writeText text, rfl⟩
  exact ⟨fun st => (hspec st).1, fun st => (hspec st).2⟩

theorem touches_dump (w : World) (records : List Json) (p : Text) :
    Output.Touches (fun st => dump w st records p) (destination w.cwd (Path.plain p)) := by
  refine ⟨fun st => ?_, fun st => (dump_spec w st records p).2.1⟩
  rw [(dump_spec w st records p).1]
  exact keeps_writeText _

/-- A file holds a text. -/
def HoldsText (w : World) (tree : FileTree) (path text : Text) : Prop :=
  ∃ bytes, Utf8.encode text = .ok bytes ∧ tree.content? w.cwd path = some bytes

theorem holdsText_dump {records : List Json} (h : (dump w st records p).2 = none) :
    HoldsText w (dump w st records p).1.tree (Path.plain p) ((Json.list records).write (.indented 2)) := by
  obtain ⟨htree, -, herror⟩ := dump_spec w st records p
  rw [htree]
  exact content?_writeText (Option.map_eq_none_iff.1 (herror.symm.trans h))

theorem emit_value (hp : p ≠ "-") : emit w st (some (.value p)) text = emitFile w st p text := by
  unfold emit
  split
  · rename_i h
    cases h
  · rename_i h
    cases h
    exact absurd rfl hp
  · rename_i h
    cases h
  · rename_i h
    cases h
    rfl

/-- The log has no part in an output. -/
theorem emit_congr (w : World) (st st' : State) (dest : Option (Given Text)) (text : Text)
    (htree : st.tree = st'.tree) (hstdout : st.stdout = st'.stdout) :
    (emit w st dest text).1.tree = (emit w st' dest text).1.tree ∧
      (emit w st dest text).1.stdout = (emit w st' dest text).1.stdout ∧
      (emit w st dest text).2 = (emit w st' dest text).2 := by
  obtain ⟨tree, stdout, log⟩ := st
  obtain ⟨tree', stdout', log'⟩ := st'
  cases htree
  cases hstdout
  have hout : (emitStdout w ⟨tree, stdout, log⟩ text).1.tree = (emitStdout w ⟨tree, stdout, log'⟩ text).1.tree ∧
      (emitStdout w ⟨tree, stdout, log⟩ text).1.stdout = (emitStdout w ⟨tree, stdout, log'⟩ text).1.stdout ∧
      (emitStdout w ⟨tree, stdout, log⟩ text).2 = (emitStdout w ⟨tree, stdout, log'⟩ text).2 := by
    unfold emitStdout
    split <;> exact ⟨rfl, rfl, rfl⟩
  unfold emit
  split
  · exact hout
  · exact hout
  · exact ⟨rfl, rfl, rfl⟩
  · rename_i p _
    cases htarget : Path.target w.context p with
    | error f =>
      rw [emitFile_of_error _ text htarget, emitFile_of_error _ text htarget]
      exact ⟨rfl, rfl, rfl⟩
    | ok path =>
      rw [emitFile_of_ok _ text htarget, emitFile_of_ok _ text htarget]
      exact ⟨rfl, rfl, rfl⟩

theorem holdsText_emitFile {path : Text} (hpath : Path.target w.context p = .ok path)
    (h : (emitFile w st p text).2 = none) : HoldsText w (emitFile w st p text).1.tree path text := by
  rw [emitFile_of_ok st text hpath] at h ⊢
  exact content?_writeText (Option.map_eq_none_iff.1 h)

/-- The statistics are written, or, if one of the counts is too long, an empty file is and that fails. -/
theorem emitStats_cases (w : World) (stats : RunStats Double) (p : Text) (st : State) :
    (∃ asJson text, stats.text asJson = .ok text ∧ emitStats w stats p st = emit w st (some (.value p)) text) ∨
    ∃ c, stats.tooLong? = some c ∧ (emitStats w stats p st).1 = (emit w st (some (.value p)) "").1 ∧
      ((emitStats w stats p st).2 = (emit w st (some (.value p)) "").2 ∨
        (emitStats w stats p st).2 = some (.longCount ⟨c⟩)) := by
  unfold emitStats
  generalize (Text.toList ".json").isSuffixOf p.toList = asJson
  cases htext : stats.text asJson with
  | ok text => exact .inl ⟨asJson, text, htext, rfl⟩
  | error e =>
    obtain ⟨c, hc, rfl⟩ : ∃ c, stats.tooLong? = some c ∧ e = ⟨c⟩ := by
      unfold RunStats.text at htext
      split at htext
      · rename_i c hc
        exact ⟨c, hc, (Except.error.inj htext).symm⟩
      · cases htext
    refine .inr ⟨c, hc, ?_⟩
    dsimp only
    rcases emit w st (some (.value p)) "" with ⟨st', _ | e⟩
    · exact ⟨rfl, .inr rfl⟩
    · exact ⟨rfl, .inl rfl⟩

theorem touches_emitStats (w : World) (stats : RunStats Double) (hp : p ≠ "-") :
    Output.Touches (emitStats w stats p) (w.place p) := by
  have hfile (st : State) : ∃ text, (emitStats w stats p st).1 = (emitFile w st p text).1 := by
    obtain ⟨-, text, -, h⟩ | ⟨c, -, h, -⟩ := emitStats_cases w stats p st
    · exact ⟨text, by rw [h, emit_value hp]⟩
    · exact ⟨"", by rw [h, emit_value hp]⟩
  refine ⟨fun st => ?_, fun st => ?_⟩
  · obtain ⟨text, h⟩ := hfile st
    rw [h]
    exact (touches_emitFile w p text).keeps st
  · obtain ⟨text, h⟩ := hfile st
    rw [h]
    exact (touches_emitFile w p text).stdout st

/-! ### All outputs -/

/-- What each output preserves all of them preserve. -/
theorem emitAll_preserves {l : List Output} {inv : State → Prop} (h : ∀ o ∈ l, ∀ st, inv st → inv (o st).1)
    (hst : inv st) : inv (emitAll l st).1 := by
  induction l generalizing st with
  | nil => exact hst
  | cons o rest ih =>
    have ho := h o List.mem_cons_self st hst
    rw [emitAll]
    rcases hout : o st with ⟨st', _ | e⟩ <;> rw [hout] at ho
    · exact ih (fun o' ho' => h o' (List.mem_cons_of_mem o ho')) ho
    · exact ho

/-- If they fail, one of them does. -/
theorem exists_of_emitAll_error {l : List Output} {e : OutputError} (h : (emitAll l st).2 = some e) :
    ∃ o ∈ l, ∃ st', (o st').2 = some e := by
  induction l generalizing st with
  | nil => cases h
  | cons o rest ih =>
    rw [emitAll] at h
    rcases hout : o st with ⟨st', _ | e'⟩ <;> rw [hout] at h
    · obtain ⟨o', ho', hfails⟩ := ih h
      exact ⟨o', List.mem_cons_of_mem o ho', hfails⟩
    · exact ⟨o, List.mem_cons_self, st, hout ▸ h⟩

theorem emitAll_singleton (o : Output) (st : State) : emitAll [o] st = o st := by
  rw [emitAll]
  rcases o st with ⟨st', _ | e⟩ <;> rfl

theorem emitAll_append (l l' : List Output) (st : State) :
    emitAll (l ++ l') st =
      match emitAll l st with
      | (st, none) => emitAll l' st
      | (st, some e) => (st, some e) := by
  induction l generalizing st with
  | nil => rfl
  | cons o rest ih =>
    rw [List.cons_append, emitAll, emitAll]
    rcases o st with ⟨st', _ | e⟩
    · exact ih st'
    · rfl

/-- What escapes when an output fails; a refusal is told instead. -/
def OutputError.escaping? : OutputError → Option Uncaught
  | .file (.refused _ _) => none
  | .file (.unencodable e) => some (.unencodable e)
  | .file e => some (.file e)
  | .stdout e => some (.unencodable e)
  | .longCount c => some (.longCount c)
  | .noFile => some (.noValue .output)
  | .noHome => some .noHome

/-- How a run ends at an output that fails. -/
def OutputError.ending (e : OutputError) : Ending := (e.escaping?.map .uncaught).getD unusable

theorem Prepared.finish_spec (y : Prepared) (w : World) (c : Choices) (st : State) :
    let written := emitAll (outputs w y.settings c y.text y.findings y.loaded.document) st
    (y.finish w c st).state.tree = written.1.tree ∧ (y.finish w c st).state.stdout = written.1.stdout ∧
      (y.finish w c st).ending = (written.2.map OutputError.ending).getD success := by
  unfold Prepared.finish
  generalize emitAll (outputs w y.settings c y.text y.findings y.loaded.document) st = written
  rcases written with ⟨st', _ | e⟩
  · exact ⟨rfl, rfl, rfl⟩
  · cases e with
    | file f => cases f <;> exact ⟨rfl, rfl, rfl⟩
    | _ => exact ⟨rfl, rfl, rfl⟩

end Blame.Command
