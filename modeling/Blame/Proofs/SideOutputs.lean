import Blame.Proofs.Outputs
import Blame.Proofs.TableRecords

/-!
# Side outputs

Beside its page a run can be asked for the macro locations, the casts, the voids and its statistics, each in a
file. They are written after the page and into files of their own, so that the page, and how the run ends, are
the same with them and without, and what they hold does not depend on what the page shows. A table that was
written is found again by a JSON reader (`HoldsRecords`).
-/

namespace Blame.Command

open FileTree Number Snapshot Text

/-- The side outputs that a run is asked for, each by a path. -/
structure SideOutputs where
  macroOut : Option Text := none
  castOut : Option Text := none
  voidOut : Option Text := none
  perfStats : Option Text := none

/-- The same run with other side outputs. -/
def Arguments.withSides (a : Arguments) (s : SideOutputs) : Arguments :=
  { a with choices := { a.choices with
      macroOut := s.macroOut
      castOut := s.castOut
      voidOut := s.voidOut
      perfStats := s.perfStats } }

/-- The path that an option gives; an empty one is none. -/
def given (p? : Option Text) : Option Text := p?.filter fun t => !t.isEmpty

/-- Where a table is written, if it is asked for. -/
def tablePlaces (w : World) (p? : Option Text) : List Place :=
  (given p?).toList.map fun p => destination w.cwd (Path.plain p)

/-- Where the statistics are written, if they are asked for. -/
def statsPlaces (w : World) (p? : Option Text) : List Place := (given p?).toList.map w.place

namespace SideOutputs

def places (w : World) (s : SideOutputs) : List Place :=
  tablePlaces w s.macroOut ++ (tablePlaces w s.castOut ++ (tablePlaces w s.voidOut ++ statsPlaces w s.perfStats))

/-- The side outputs of a run, in their order. -/
def outputs (w : World) (s : SideOutputs) (f : Findings) (d : Snapshot.Document) : List Output :=
  optionalDump w (macroRecords f.report) s.macroOut ++ (optionalDump w d.castTable.toJson s.castOut ++
    (optionalDump w d.voidTable.toJson s.voidOut ++
      (given s.perfStats).toList.map fun p => emitStats w (runStats w d) p))

end SideOutputs

/-- The path under which the page of a run is written, unless it goes to standard output. -/
inductive PagePath (w : World) (a : Arguments) : Text → Prop
  | intro {p path : Text} (houtput : a.choices.output = some (.value p)) (hstdout : p ≠ "-")
      (hpath : Path.target w.context p = .ok path) : PagePath w a path

/-- All files of the side outputs are different, and different from the page. -/
structure SideOutputs.Apart (s : SideOutputs) (w : World) (a : Arguments) : Prop where
  stdout : s.perfStats ≠ some "-"
  places : (s.places w).Nodup
  page : ∀ path, PagePath w a path → destination w.cwd path ∉ s.places w

/-- Once the page is written, all side outputs can be. -/
def SideOutputs.Succeed (s : SideOutputs) (w : World) (a : Arguments) : Prop :=
  ∀ y log st, Prepares w (a.withSides s) y →
    emit w { tree := w.tree, log } a.choices.output y.text = (st, none) →
      (emitAll (s.outputs w y.findings y.loaded.document) st).2 = none

/-- Two runs end alike, with the same on standard output and with the same page. -/
structure SamePage (w : World) (a : Arguments) (r r' : Outcome) : Prop where
  ending : r.ending = r'.ending
  stdout : r.stdout = r'.stdout
  page : ∀ path, PagePath w a path → r.tree.content? w.cwd path = r'.tree.content? w.cwd path

/-- Whoever reads the file as JSON, and follows lists and objects at least four deep, gets the list of the records. -/
def HoldsRecords (w : World) (tree : FileTree) (p : Text) (records : List Json) : Prop :=
  ∃ bytes cs, tree.content? w.cwd (Path.plain p) = some bytes ∧ Utf8.decode bytes = .ok cs ∧
    ∀ nesting, 4 ≤ nesting → Json.read nesting (unixLines cs) = .ok (.list records)

/-- A file holds what is written of the records. -/
def HoldsTable (w : World) (tree : FileTree) (p : Text) (records : List Json) : Prop :=
  HoldsText w tree (Path.plain p) ((Json.list records).write (.indented 2))

variable {w : World} {a : Arguments} {s s' : SideOutputs} {y y' : Prepared} {st st' : State}

/-! ### What a run has in hand -/

/-- The report that is shown depends on the verb alone, and so do the other parts of a page. -/
theorem findings_spec {ix : Index} {v : Verb} {wantsMacros : Bool} {f : Findings}
    (h : findings ix v wantsMacros = .ok f) :
    f.report = (if v.showsReport || wantsMacros then some (ix.rootReport ix.nameOf) else none) ∧
    f.parts.summary = (if v.showsSummary then some ix.summary else none) ∧
    f.parts.report = (if v.showsReport then some (ix.rootReport ix.nameOf) else none) ∧
    Except.ok f.parts.causes = (if v.showsCauses then (ix.causeMap ix.nameOf).map some else .ok none) := by
  have hshown : (if v.showsReport then
      if v.showsReport || wantsMacros then some (ix.rootReport ix.nameOf) else none else none) =
      if v.showsReport then some (ix.rootReport ix.nameOf) else none := by
    cases v.showsReport <;> rfl
  unfold findings at h
  cases hv : v.showsCauses with
  | false =>
    rw [hv] at h
    cases h
    exact ⟨rfl, rfl, hshown, rfl⟩
  | true =>
    rw [hv] at h
    cases hcauses : ix.causeMap ix.nameOf with
    | error i =>
      rw [hcauses] at h
      cases h
    | ok causes =>
      rw [hcauses] at h
      cases h
      exact ⟨rfl, rfl, hshown, rfl⟩

theorem parts_eq {ix : Index} {v : Verb} {b b' : Bool} {f f' : Findings} (h : findings ix v b = .ok f)
    (h' : findings ix v b' = .ok f') : f.parts = f'.parts := by
  obtain ⟨-, hsummary, hreport, hcauses⟩ := findings_spec h
  obtain ⟨-, hsummary', hreport', hcauses'⟩ := findings_spec h'
  have hsame := Except.ok.inj (hcauses.trans hcauses'.symm)
  rcases hparts : f.parts with ⟨summary, report, causes⟩
  rcases hparts' : f'.parts with ⟨summary', report', causes'⟩
  rw [hparts] at hsummary hreport hsame
  rw [hparts'] at hsummary' hreport' hsame
  rw [Page.Parts.mk.injEq]
  exact ⟨hsummary.trans hsummary'.symm, hreport.trans hreport'.symm, hsame⟩

theorem Meets.withSides {o : Obstacle} (h : Meets w (a.withSides s) o) (s' : SideOutputs) :
    Meets w (a.withSides s') o := by
  cases h with
  | format h => exact .format h
  | noBaseDir h => exact .noBaseDir h
  | rules h => exact .rules h
  | snapshot h => exact .snapshot ⟨h.exists_rules⟩
  | violations hl hstrict h => exact .violations ⟨hl.exists_rules⟩ hstrict h
  | page hl hformat hf h =>
    obtain ⟨f', hf'⟩ := exists_findings hl.sound a.verb (settings w.env (a.withSides s').choices).macroOut.isSome
    rw [parts_eq hf hf'] at h
    exact .page ⟨hl.exists_rules⟩ hformat hf' h

/-- What is shown does not depend on the side outputs. -/
theorem Prepares.withSides (h : Prepares w (a.withSides s) y) (h' : Prepares w (a.withSides s') y') :
    y'.text = y.text := by
  have hl : Loads w (a.withSides s) (.ok y'.loaded) := ⟨h'.loads.exists_rules⟩
  have hloaded : y'.loaded = y.loaded := Except.ok.inj (hl.unique h.loads)
  have hfindings' := h'.findings_eq
  rw [hloaded] at hfindings'
  have hparts := parts_eq h.findings_eq hfindings'
  obtain ⟨format, warnings, hvalid, hpage⟩ := h.page_eq
  obtain ⟨format', warnings', hvalid', hpage'⟩ := h'.page_eq
  rw [h.settings_eq] at hvalid hpage
  rw [h'.settings_eq, ← hparts] at hpage'
  rw [h'.settings_eq] at hvalid'
  cases hvalid.symm.trans hvalid'
  exact (Except.ok.inj (hpage.symm.trans hpage')).symm

/-! ### What a run writes -/

theorem given_given (p? : Option Text) : given (given p?) = given p? := by
  unfold given
  rw [Option.filter_filter]
  congr
  funext t
  exact Bool.and_self _

theorem optionalDump_eq (records : List Json) (p? : Option Text) :
    optionalDump w records p? = (given p?).toList.map fun p => fun st => dump w st records p := by
  unfold optionalDump given
  split <;> rename_i h <;> rw [h] <;> rfl

/-- The outputs of a run are its page and then its side outputs. -/
theorem outputs_withSides (text : Text) (f : Findings) (d : Snapshot.Document) :
    outputs w (settings w.env (a.withSides s).choices) (a.withSides s).choices text f d =
      (fun st => emit w st a.choices.output text) :: s.outputs w f d := by
  have hmacros : optionalDump w (macroRecords f.report) (settings w.env (a.withSides s).choices).macroOut =
      optionalDump w (macroRecords f.report) s.macroOut := by
    rw [optionalDump_eq, optionalDump_eq]
    exact congrArg (fun p => (Option.toList p).map _) (given_given s.macroOut)
  have hgiven : ((a.withSides s).choices.perfStats.filter fun t => !t.isEmpty) = given s.perfStats := rfl
  unfold outputs SideOutputs.outputs
  rw [hmacros, hgiven]
  simp only [List.append_assoc, List.cons_append, List.nil_append]
  cases given s.perfStats with
  | none => rfl
  | some p => rfl

theorem touches_of_mem_table {records : List Json} {p? : Option Text} {o : Output}
    (h : o ∈ optionalDump w records p?) : ∃ d ∈ tablePlaces w p?, o.Touches d := by
  rw [optionalDump_eq] at h
  obtain ⟨p, hp, rfl⟩ := List.mem_map.1 h
  exact ⟨_, List.mem_map_of_mem hp, touches_dump w records p⟩

theorem touches_of_mem_stats {stats : RunStats Double} {p? : Option Text} (hp? : p? ≠ some "-") {o : Output}
    (h : o ∈ (given p?).toList.map fun p => emitStats w stats p) : ∃ d ∈ statsPlaces w p?, o.Touches d := by
  obtain ⟨p, hp, rfl⟩ := List.mem_map.1 h
  have hstdout : p ≠ "-" := by
    rintro rfl
    exact hp? (Option.filter_eq_some_iff.1 (Option.mem_toList.1 hp)).1
  exact ⟨_, List.mem_map_of_mem hp, touches_emitStats w stats hstdout⟩

/-- Between two states nothing came to standard output, and all files stayed but those at some places. -/
structure State.Spares (w : World) (ds : List Place) (st st' : State) : Prop where
  stdout : st'.stdout = st.stdout
  holds : ∀ path text, destination w.cwd path ∉ ds → HoldsText w st.tree path text → HoldsText w st'.tree path text

theorem spares_emitAll {l : List Output} {ds : List Place} (hl : ∀ o ∈ l, ∃ d ∈ ds, o.Touches d) (st : State) :
    st.Spares w ds (emitAll l st).1 := by
  have hstep : ∀ o ∈ l, ∀ st', st.Spares w ds st' → st.Spares w ds (o st').1 := by
    intro o ho st' hst'
    obtain ⟨d, hd, htouches⟩ := hl o ho
    refine ⟨(htouches.stdout st').trans hst'.stdout, fun path text hpath hholds => ?_⟩
    obtain ⟨bytes, hbytes, hfile⟩ := hst'.holds path text hpath hholds
    exact ⟨bytes, hbytes, (htouches.keeps st').content? (fun h => hpath (h ▸ hd)) hfile⟩
  exact emitAll_preserves hstep ⟨rfl, fun _ _ _ h => h⟩

theorem touches_of_mem_append {l l' : List Output} {ds ds' : List Place} (h : ∀ o ∈ l, ∃ d ∈ ds, o.Touches d)
    (h' : ∀ o ∈ l', ∃ d ∈ ds', o.Touches d) : ∀ o ∈ l ++ l', ∃ d ∈ ds ++ ds', o.Touches d := by
  intro o ho
  rcases List.mem_append.1 ho with ho | ho
  · obtain ⟨d, hd, htouches⟩ := h o ho
    exact ⟨d, List.mem_append_left ds' hd, htouches⟩
  · obtain ⟨d, hd, htouches⟩ := h' o ho
    exact ⟨d, List.mem_append_right ds hd, htouches⟩

theorem touches_of_mem_sides (hs : s.Apart w a) {f : Findings} {d : Snapshot.Document} :
    ∀ o ∈ s.outputs w f d, ∃ place ∈ s.places w, o.Touches place :=
  touches_of_mem_append (fun _ => touches_of_mem_table) <|
    touches_of_mem_append (fun _ => touches_of_mem_table) <|
    touches_of_mem_append (fun _ => touches_of_mem_table) fun _ => touches_of_mem_stats hs.stdout

namespace Prepares
variable {log : List LogLine}

/-- The written outputs of a prepared run. -/
theorem emitAll_eq (hy : Prepares w (a.withSides s) y) (st : State) :
    emitAll (outputs w y.settings (a.withSides s).choices y.text y.findings y.loaded.document) st =
      match emit w st a.choices.output y.text with
      | (st, none) => emitAll (s.outputs w y.findings y.loaded.document) st
      | (st, some e) => (st, some e) := by
  rw [hy.settings_eq, outputs_withSides]
  rfl

theorem finish_of_pageError (hy : Prepares w (a.withSides s) y) {e : OutputError}
    (hpage : emit w { tree := w.tree, log } a.choices.output y.text = (st, some e)) :
    let r := y.finish w (a.withSides s).choices { tree := w.tree, log }
    r.state.tree = st.tree ∧ r.state.stdout = st.stdout ∧ r.ending = e.ending := by
  have hspec := y.finish_spec w (a.withSides s).choices { tree := w.tree, log }
  rw [hy.emitAll_eq, hpage] at hspec
  exact hspec

theorem finish_of_page (hy : Prepares w (a.withSides s) y) (hs : s.Apart w a) (hsucceed : s.Succeed w a)
    (hpage : emit w { tree := w.tree, log } a.choices.output y.text = (st, none)) :
    let r := y.finish w (a.withSides s).choices { tree := w.tree, log }
    r.ending = success ∧ r.state.stdout = st.stdout ∧
      ∀ path, PagePath w a path → HoldsText w r.state.tree path y.text := by
  intro r
  obtain ⟨htree, hstdout, hending⟩ := y.finish_spec w (a.withSides s).choices { tree := w.tree, log }
  rw [hy.emitAll_eq, hpage] at htree hstdout hending
  obtain ⟨hout, hkeeps⟩ := spares_emitAll (w := w) (touches_of_mem_sides hs) st
  refine ⟨?_, hstdout.trans hout, fun path hpath => ?_⟩
  · rw [hending]
    dsimp only
    rw [hsucceed y log st hy hpage]
    rfl
  · rw [htree]
    refine hkeeps path _ (hs.page path hpath) ?_
    obtain ⟨houtput, hne, htarget⟩ := hpath
    rw [houtput, emit_value hne] at hpage
    have hholds := holdsText_emitFile htarget (congrArg Prod.snd hpage)
    rw [hpage] at hholds
    exact hholds

end Prepares

/-! ### What the tables hold -/

/-- A table that was written holds its records also after the outputs that follow it. -/
theorem holdsTable_emitAll {l pre post : List Output} {records : List Json} {p? : Option Text}
    {ds : List Place} (hl : l = pre ++ (optionalDump w records p? ++ post)) (hpost : ∀ o ∈ post, ∃ d ∈ ds, o.Touches d)
    (hplaces : ∀ d ∈ tablePlaces w p?, d ∉ ds) (h : (emitAll l st).2 = none) :
    ∀ p, given p? = some p → HoldsTable w (emitAll l st).1.tree p records := by
  intro p hp
  have hplace : destination w.cwd (Path.plain p) ∉ ds := by
    refine hplaces _ ?_
    rw [tablePlaces, hp]
    exact List.mem_singleton.2 rfl
  rw [optionalDump_eq, hp, Option.toList_some, List.map_singleton, List.singleton_append] at hl
  rw [hl, emitAll_append] at h ⊢
  rcases hpre : emitAll pre st with ⟨before, _ | e⟩
  · rw [hpre] at h
    dsimp only at h ⊢
    rw [emitAll] at h ⊢
    have hholds : (dump w before records p).2 = none →
        HoldsTable w (dump w before records p).1.tree p records := holdsText_dump
    rcases hdump : dump w before records p with ⟨after, _ | e⟩
    · rw [hdump] at hholds
      exact (spares_emitAll hpost after).holds _ _ hplace (hholds rfl)
    · rw [hdump] at h
      cases h
  · rw [hpre] at h
    cases h

theorem sides_hold (hs : s.Apart w a) {f : Findings} {d : Snapshot.Document}
    (h : (emitAll (s.outputs w f d) st).2 = none) :
    let tree := (emitAll (s.outputs w f d) st).1.tree
    (∀ p, given s.macroOut = some p → HoldsTable w tree p (macroRecords f.report)) ∧
    (∀ p, given s.castOut = some p → HoldsTable w tree p d.castTable.toJson) ∧
    ∀ p, given s.voidOut = some p → HoldsTable w tree p d.voidTable.toJson := by
  intro tree
  have hplaces := hs.places
  rw [SideOutputs.places, List.nodup_append, List.nodup_append, List.nodup_append] at hplaces
  obtain ⟨-, ⟨-, ⟨-, -, hvoids⟩, hcasts⟩, hmacros⟩ := hplaces
  have hstats (o : Output) (ho : o ∈ (given s.perfStats).toList.map fun p => emitStats w (runStats w d) p) :
      ∃ place ∈ statsPlaces w s.perfStats, o.Touches place := touches_of_mem_stats hs.stdout ho
  have hvoid (o : Output) (ho : o ∈ optionalDump w d.voidTable.toJson s.voidOut) := touches_of_mem_table ho
  have hcast (o : Output) (ho : o ∈ optionalDump w d.castTable.toJson s.castOut) := touches_of_mem_table ho
  have hafterCasts := touches_of_mem_append hvoid hstats
  have hafterMacros := touches_of_mem_append hcast hafterCasts
  refine ⟨?_, ?_, ?_⟩
  · refine holdsTable_emitAll (List.nil_append _).symm hafterMacros (fun place hm hrest => ?_) h
    exact hmacros place hm place hrest rfl
  · refine holdsTable_emitAll rfl hafterCasts (fun place hm hrest => ?_) h
    exact hcasts place hm place hrest rfl
  · refine holdsTable_emitAll (List.append_assoc _ _ _).symm hstats (fun place hm hrest => ?_) h
    exact hvoids place hm place hrest rfl

/-- The three tables of a loaded snapshot are read back as they are. -/
theorem Loads.restorable {l : LoadedFile} (h : Loads w a (.ok l)) (room : Nat) :
    Json.Restorable (room + 4)
        (.list ((l.index.rootReport l.index.nameOf).macroLocations.map fun m => .obj m.toMembers)) ∧
      Json.Restorable (room + 4) (.list l.document.castTable.toJson) ∧
      Json.Restorable (room + 4) (.list l.document.voidTable.toJson) := by
  obtain ⟨rules, -, hl⟩ := h
  unfold loadFile at hl
  split at hl
  · cases hl
  · rename_i members hmembers
    have hread := asRead_of_readDocument hmembers
    dsimp only at hl
    split at hl
    · cases hl
    · rename_i hload
      cases hl
      refine ⟨.list fun v hv => ?_, .list (CastTable.restorable_toJson (restorable_castTable hread) room),
        .list (VoidTable.restorable_toJson (restorable_voidTable hread) (room + 2))⟩
      obtain ⟨m, hm, rfl⟩ := List.mem_map.1 hv
      exact (restorable_macroLocations hread (situates_of_load hload) m hm).toMembers (room + 2)

theorem HoldsRecords.unique {tree : FileTree} {p : Text} {records records' : List Json}
    (h : HoldsRecords w tree p records) (h' : HoldsRecords w tree p records') : records = records' := by
  obtain ⟨bytes, cs, hfile, hcs, hread⟩ := h
  obtain ⟨bytes', cs', hfile', hcs', hread'⟩ := h'
  obtain rfl := Option.some.inj (hfile.symm.trans hfile')
  obtain rfl := Except.ok.inj (hcs.symm.trans hcs')
  exact Json.list.inj (Except.ok.inj ((hread 4 le_rfl).symm.trans (hread' 4 le_rfl)))

/-- A text of records that can be read back is read back. -/
theorem HoldsTable.holdsRecords {tree : FileTree} {p : Text} {records : List Json} (h : HoldsTable w tree p records)
    (hrecords : ∀ room, Json.Restorable (room + 4) (.list records)) : HoldsRecords w tree p records := by
  obtain ⟨bytes, hbytes, hfile⟩ := h
  have hplain := Json.isPlain_write (.indented 2) (.list records)
  rw [Utf8.encode_of_plain hplain] at hbytes
  obtain rfl := Except.ok.inj hbytes
  refine ⟨_, _, hfile, Utf8.decode_of_plain hplain, fun nesting hnesting => ?_⟩
  obtain ⟨room, rfl⟩ := Nat.exists_eq_add_of_le' hnesting
  rw [unixLines_of_plain hplain]
  exact Json.read_write (hrecords room) (.indented 2)

theorem OutputError.ending_ne_success (e : OutputError) : e.ending ≠ success := by
  unfold OutputError.ending
  cases e.escaping? with
  | none => exact fun h => by cases h
  | some u => exact fun h => by cases h

theorem Prepares.finish_holds {log : List LogLine} (hy : Prepares w (a.withSides s) y) (hs : s.Apart w a)
    (h : (y.finish w (a.withSides s).choices { tree := w.tree, log }).ending = success) :
    let tree := (y.finish w (a.withSides s).choices { tree := w.tree, log }).state.tree
    (∀ p, given s.macroOut = some p → HoldsTable w tree p
      ((y.loaded.index.rootReport y.loaded.index.nameOf).macroLocations.map fun l => .obj l.toMembers)) ∧
    (∀ p, given s.castOut = some p → HoldsTable w tree p y.loaded.document.castTable.toJson) ∧
    ∀ p, given s.voidOut = some p → HoldsTable w tree p y.loaded.document.voidTable.toJson := by
  intro tree
  obtain ⟨htree, -, hending⟩ := y.finish_spec w (a.withSides s).choices { tree := w.tree, log }
  rw [hending, hy.emitAll_eq] at h
  rw [hy.emitAll_eq] at htree
  rcases hpage : emit w { tree := w.tree, log } a.choices.output y.text with ⟨st, _ | e⟩
  · rw [hpage] at h htree
    dsimp only at h htree
    cases herror : (emitAll (s.outputs w y.findings y.loaded.document) st).2 with
    | some e =>
      rw [herror] at h
      exact absurd h e.ending_ne_success
    | none =>
      obtain ⟨hmacros, hcasts, hvoids⟩ := sides_hold hs herror
      rw [← htree] at hmacros hcasts hvoids
      refine ⟨fun p hp => ?_, hcasts, hvoids⟩
      have hfindings := hy.findings_eq
      have hwanted : y.settings.macroOut.isSome = true := by
        rw [hy.settings_eq]
        exact congrArg Option.isSome hp
      rw [hwanted] at hfindings
      have hreport := (findings_spec hfindings).1
      rw [Bool.or_true, if_pos rfl] at hreport
      have hholds := hmacros p hp
      rw [hreport] at hholds
      exact hholds
  · rw [hpage] at h
    exact absurd h e.ending_ne_success

/-! ### Two runs -/

/-- The same of two finished runs, from which the outcomes are made. -/
structure SameFinish (w : World) (a : Arguments) (r r' : Finished) : Prop where
  ending : r.ending = r'.ending
  stdout : r.state.stdout = r'.state.stdout
  page : ∀ path, PagePath w a path → r.state.tree.content? w.cwd path = r'.state.tree.content? w.cwd path

theorem Obstacle.sameFinish (o : Obstacle) (log log' : List LogLine) :
    SameFinish w a (o.finish { tree := w.tree, log }) (o.finish { tree := w.tree, log := log' }) := by
  have hfails := o.failsAt { tree := w.tree, log }
  have hfails' := o.failsAt { tree := w.tree, log := log' }
  exact ⟨o.ending_finish _ _, hfails.stdout.trans hfails'.stdout.symm, fun path _ => by rw [hfails.tree, hfails'.tree]⟩

theorem Prepares.sameFinish (hy : Prepares w (a.withSides s) y) (hy' : Prepares w (a.withSides s') y')
    (hs : s.Apart w a) (hs' : s'.Apart w a) (hsucceed : s.Succeed w a) (hsucceed' : s'.Succeed w a)
    (log log' : List LogLine) :
    SameFinish w a (y.finish w (a.withSides s).choices { tree := w.tree, log })
      (y'.finish w (a.withSides s').choices { tree := w.tree, log := log' }) := by
  have htext := hy.withSides hy'
  obtain ⟨hsameTree, hsameOut, hsameError⟩ :=
    emit_congr w { tree := w.tree, log } { tree := w.tree, log := log' } a.choices.output y.text rfl rfl
  rcases hpage : emit w { tree := w.tree, log } a.choices.output y.text with ⟨st, _ | e⟩ <;>
    rcases hpage' : emit w { tree := w.tree, log := log' } a.choices.output y.text with ⟨st', _ | e'⟩ <;>
    rw [hpage, hpage'] at hsameTree hsameOut hsameError
  · rw [← htext] at hpage'
    obtain ⟨he, hstdout, hholds⟩ := hy.finish_of_page hs hsucceed hpage
    obtain ⟨he', hstdout', hholds'⟩ := hy'.finish_of_page hs' hsucceed' hpage'
    refine ⟨he.trans he'.symm, ?_, fun path hpath => ?_⟩
    · rw [hstdout, hstdout', hsameOut]
    · obtain ⟨bytes, hbytes, hfile⟩ := hholds path hpath
      obtain ⟨bytes', hbytes', hfile'⟩ := hholds' path hpath
      rw [htext, hbytes] at hbytes'
      rw [hfile, hfile', Except.ok.inj hbytes']
  · cases hsameError
  · cases hsameError
  · cases hsameError
    rw [← htext] at hpage'
    obtain ⟨htr, hstdout, he⟩ := hy.finish_of_pageError hpage
    obtain ⟨htr', hstdout', he'⟩ := hy'.finish_of_pageError hpage'
    refine ⟨he.trans he'.symm, ?_, fun path _ => ?_⟩
    · rw [hstdout, hstdout', hsameOut]
    · rw [htr, htr', hsameTree]

theorem sameFinish_runArguments (hs : s.Apart w a) (hs' : s'.Apart w a) (hsucceed : s.Succeed w a)
    (hsucceed' : s'.Succeed w a) :
    SameFinish w a (runArguments w (a.withSides s)) (runArguments w (a.withSides s')) := by
  obtain ⟨log, ⟨o, ho, hfirst, hr⟩ | ⟨y, hy, hr⟩⟩ := runArguments_cases w (a.withSides s) <;>
    obtain ⟨log', ⟨o', ho', hfirst', hr'⟩ | ⟨y', hy', hr'⟩⟩ := runArguments_cases w (a.withSides s')
  · obtain rfl := ho.unique (ho'.withSides s)
      (Nat.le_antisymm (hfirst o' (ho'.withSides s)) (hfirst' o (ho.withSides s')))
    rw [hr, hr']
    exact o.sameFinish log log'
  · exact absurd (ho.withSides s') (hy'.not_meets o)
  · exact absurd (ho'.withSides s) (hy.not_meets o')
  · rw [hr, hr']
    exact hy.sameFinish hy' hs hs' hsucceed hsucceed' log log'

theorem samePage_of_withSides {args args' : List Text} (hargs : parse w.dashes args = .run (a.withSides s))
    (hargs' : parse w.dashes args' = .run (a.withSides s')) (hs : s.Apart w a) (hs' : s'.Apart w a)
    (hsucceed : s.Succeed w a) (hsucceed' : s'.Succeed w a) : SamePage w a (run w args) (run w args') := by
  obtain ⟨htree, hout, hend⟩ := run_eq (w := w) hargs
  obtain ⟨htree', hout', hend'⟩ := run_eq (w := w) hargs'
  obtain ⟨hending, hstdout, hpage⟩ := sameFinish_runArguments hs hs' hsucceed hsucceed'
  refine ⟨?_, ?_, fun path hpath => ?_⟩
  · rw [hend, hend', hending]
  · rw [hout, hout', hstdout]
  · rw [htree, htree', hpage path hpath]

/-- A snapshot with one root, a macro. -/
def macroRoot : World where
  toHost := Host.plain
  tree := { entries := [([[.char 's']], .file (bytesOf ("\x7b\"roots\": [\x7b\"atom\": 1, \"reason\": \"Macro\", "
    ++ "\"location\": \x7b\"file\": \"m.h\", \"line\": 3\x7d\x7d]\x7d")).1)] }
  env := []
  cwd := "/"
  clock := []
  stdoutIsTerminal := false

def summarizeMacros : Arguments := ⟨0, .summary, "s", { output := some (.value "o") }⟩

/-- What a run on it writes for its macro locations. -/
def macroRootText : Text :=
  ("[\n  \x7b\n    \"file\": \"m.h\",\n    \"line\": 3,\n    \"colstart\": 0,\n"
    ++ "    \"colend\": 0\n  \x7d\n]")

end Blame.Command
