import Blame.Proofs.Calls
import Blame.Proofs.Transpose

/-!
# Before a run writes

A run reads, computes and renders, and only then writes. Either it meets an obstacle (`Obstacle`), says so and
ends, or its page and all that goes into the side outputs is there (`Prepared`) and the writing begins; the
files and standard output are until then as they were. `runArguments_cases` says once what a run can come to.
-/

namespace Blame.Command

/-- What keeps a run from writing anything. -/
inductive Obstacle where
  | format (e : UnknownFormat)
  | noBaseDir
  | rules (u : Unclassifiable)
  | snapshot (f : Snapshot.Failure)
  | violations (found : List Violation)
  | page (e : PageError)

/-- How a run ends at an obstacle. -/
def Obstacle.finish (st : State) : Obstacle → Finished
  | format e => ⟨st.complain e.message, unusable⟩
  | noBaseDir => st.giveUp (.noValue .baseDir)
  | rules u => st.giveUp (.unclassifiable u)
  | snapshot f => endOfLoad st f
  | violations found =>
    ⟨st.say (found.map fun x => commandLine .error ("Invariant violated: " ++ x.message)), contradictory⟩
  | page (.template (.file e)) => st.endAtFile "Cannot read HTML template" e
  | page (.template (.encoding e)) => st.giveUp (.encoding e)
  | page (.rendering (.refused message)) => ⟨st.complain ("Cannot read HTML template: " ++ message), unusable⟩
  | page (.rendering (.failed message)) => st.giveUp (.template message)
  | page .noLimit => st.giveUp (.noValue .limit)

/-- The obstacles in the order in which a run comes to them. -/
def Obstacle.stage : Obstacle → Nat
  | format _ => 0
  | noBaseDir => 1
  | rules _ => 2
  | snapshot _ => 3
  | violations _ => 4
  | page _ => 5

/-- What a run has in hand when it begins to write. -/
structure Prepared where
  settings : Settings
  loaded : LoadedFile
  findings : Findings
  text : Text

/-- The outputs of a prepared run, and how it ends. -/
def Prepared.finish (y : Prepared) (w : World) (c : Choices) (st : State) : Finished :=
  match emitAll (outputs w y.settings c y.text y.findings y.loaded.document) st with
  | (st, none) => ⟨st, success⟩
  | (st, some (.file e)) => st.endAtFile "Cannot write output" e
  | (st, some (.stdout e)) => st.giveUp (.unencodable e)
  | (st, some (.longCount c)) => st.giveUp (.longCount c)
  | (st, some .noFile) => st.giveUp (.noValue .output)
  | (st, some .noHome) => st.giveUp .noHome

/-- The snapshot of a run and what it loads to, under the file rules that its settings make. -/
structure Loads (w : World) (a : Arguments) (r : Except Snapshot.Failure LoadedFile) : Prop where
  exists_rules : ∃ rules, (settings w.env a.choices).rules w.context = .ok rules ∧
    (loadFile w rules a.snapshot).2 = r

/-- There is such an obstacle on the way of a run, be it that another one comes before it. -/
inductive Meets (w : World) (a : Arguments) : Obstacle → Prop
  | format {e : UnknownFormat} (h : (settings w.env a.choices).validate w.tree w.cwd = .error e) :
      Meets w a (.format e)
  | noBaseDir (h : Given.nothing ∈ a.choices.baseDirs) : Meets w a .noBaseDir
  | rules {u : Unclassifiable} (h : (settings w.env a.choices).rules w.context = .error u) :
      Meets w a (.rules u)
  | snapshot {f : Snapshot.Failure} (h : Loads w a (.error f)) : Meets w a (.snapshot f)
  | violations {l : LoadedFile} (hl : Loads w a (.ok l)) (hstrict : (settings w.env a.choices).strict = true)
      (h : l.index.violations ≠ []) : Meets w a (.violations l.index.violations)
  | page {l : LoadedFile} {format : Format} {warnings : List SettingWarning} {f : Findings} {e : PageError}
      (hl : Loads w a (.ok l))
      (hformat : (settings w.env a.choices).validate w.tree w.cwd = .ok (format, warnings))
      (hf : findings l.index a.verb (settings w.env a.choices).macroOut.isSome = .ok f)
      (h : page w w.tree (settings w.env a.choices) format a.choices f.parts = .error e) :
      Meets w a (.page e)

/-- Nothing is in the way of a run, and this is what it has in hand. -/
structure Prepares (w : World) (a : Arguments) (y : Prepared) : Prop where
  settings_eq : y.settings = settings w.env a.choices
  baseDirs : Given.nothing ∉ a.choices.baseDirs
  loads : Loads w a (.ok y.loaded)
  findings_eq : findings y.loaded.index a.verb y.settings.macroOut.isSome = .ok y.findings
  page_eq : ∃ format warnings, y.settings.validate w.tree w.cwd = .ok (format, warnings) ∧
    page w w.tree y.settings format a.choices y.findings.parts = .ok y.text

variable {w : World} {a : Arguments}

theorem Loads.unique {r r' : Except Snapshot.Failure LoadedFile} (h : Loads w a r) (h' : Loads w a r') :
    r = r' := by
  obtain ⟨rules, hr, rfl⟩ := h
  obtain ⟨rules', hr', rfl⟩ := h'
  cases hr.symm.trans hr'
  rfl

theorem Loads.rules_ne_error {r : Except Snapshot.Failure LoadedFile} (h : Loads w a r) (u : Unclassifiable) :
    (settings w.env a.choices).rules w.context ≠ .error u := by
  obtain ⟨rules, hr, -⟩ := h
  rw [hr]
  exact fun he => by cases he

theorem Loads.sound {l : LoadedFile} (h : Loads w a (.ok l)) : l.index.Sound := by
  obtain ⟨rules, -, hl⟩ := h
  have hload : loadFile w rules a.snapshot = ((loadFile w rules a.snapshot).1, .ok l) := by rw [← hl]
  obtain ⟨members, hm⟩ := index_of_loadFile hload
  rw [hm]
  exact Index.sound_after _

theorem Loads.violations_eq {l : LoadedFile} (h : Loads w a (.ok l)) : l.index.violations = [] :=
  Index.audited_iff.1 h.sound.consistent.toAudited

/-- The map of causes is the only part of a page that could be refused, and that of a sound index is not. -/
theorem exists_findings {ix : Index} (h : ix.Sound) (v : Verb) (wantsMacros : Bool) :
    ∃ f, findings ix v wantsMacros = .ok f := by
  unfold findings
  rw [h.causeMap_eq]
  cases v.showsCauses
  · exact ⟨_, rfl⟩
  · exact ⟨_, rfl⟩

theorem Prepares.unique {y y' : Prepared} (h : Prepares w a y) (h' : Prepares w a y') : y = y' := by
  obtain ⟨settings, loaded, findings, text⟩ := y
  obtain ⟨settings', loaded', findings', text'⟩ := y'
  obtain rfl : settings = settings' := h.settings_eq.trans h'.settings_eq.symm
  obtain rfl : loaded = loaded' := Except.ok.inj (h.loads.unique h'.loads)
  obtain rfl : findings = findings' := Except.ok.inj (h.findings_eq.symm.trans h'.findings_eq)
  obtain ⟨format, warnings, hvalid, hpage⟩ := h.page_eq
  obtain ⟨format', warnings', hvalid', hpage'⟩ := h'.page_eq
  cases hvalid.symm.trans hvalid'
  obtain rfl : text = text' := Except.ok.inj (hpage.symm.trans hpage')
  rfl

/-- No obstacle is in the way of a run that comes to its outputs. -/
theorem Prepares.not_meets {y : Prepared} (h : Prepares w a y) (o : Obstacle) : ¬ Meets w a o := by
  obtain ⟨format, warnings, hvalid, hpage⟩ := h.page_eq
  have hfindings := h.findings_eq
  rw [h.settings_eq] at hvalid hpage hfindings
  intro ho
  cases ho with
  | format he =>
    rw [he] at hvalid
    cases hvalid
  | noBaseDir hb => exact h.baseDirs hb
  | rules hr => exact h.loads.rules_ne_error _ hr
  | snapshot hl => cases h.loads.unique hl
  | violations hl _ hne => exact hne hl.violations_eq
  | page hl hformat hf he =>
    cases h.loads.unique hl
    cases hvalid.symm.trans hformat
    cases hfindings.symm.trans hf
    rw [he] at hpage
    cases hpage

/-- The settings of a run are good, and so the first thing it does is to read the snapshot. -/
structure GoodSettings (w : World) (a : Arguments) (format : Format) (warnings : List SettingWarning) : Prop where
  valid : (settings w.env a.choices).validate w.tree w.cwd = .ok (format, warnings)
  baseDirs : Given.nothing ∉ a.choices.baseDirs
  rules : ∃ rules, (settings w.env a.choices).rules w.context = .ok rules

/-! ### The first obstacle -/

namespace Meets
variable {o o' : Obstacle}

theorem unique (h : Meets w a o) (h' : Meets w a o') (hstage : o.stage = o'.stage) : o = o' := by
  cases h with
  | format he =>
    cases h' with
    | format he' =>
      cases he.symm.trans he'
      rfl
    | _ => cases hstage
  | noBaseDir =>
    cases h' with
    | noBaseDir => rfl
    | _ => cases hstage
  | rules hr =>
    cases h' with
    | rules hr' =>
      cases hr.symm.trans hr'
      rfl
    | _ => cases hstage
  | snapshot hl =>
    cases h' with
    | snapshot hl' =>
      cases hl.unique hl'
      rfl
    | _ => cases hstage
  | violations hl _ hne => exact absurd hl.violations_eq hne
  | page hl hformat hf he =>
    cases h' with
    | page hl' hformat' hf' he' =>
      cases hl.unique hl'
      cases hformat.symm.trans hformat'
      cases hf.symm.trans hf'
      cases he.symm.trans he'
      rfl
    | _ => cases hstage

theorem one_le {v : Format × List SettingWarning} (h : Meets w a o)
    (hvalid : (settings w.env a.choices).validate w.tree w.cwd = .ok v) : 1 ≤ o.stage := by
  cases h with
  | format he =>
    rw [he] at hvalid
    cases hvalid
  | _ => simp [Obstacle.stage]

theorem two_le {v : Format × List SettingWarning} (h : Meets w a o)
    (hvalid : (settings w.env a.choices).validate w.tree w.cwd = .ok v)
    (hbase : Given.nothing ∉ a.choices.baseDirs) : 2 ≤ o.stage := by
  have hone := h.one_le hvalid
  cases h with
  | format => simp [Obstacle.stage] at hone
  | noBaseDir hb => exact absurd hb hbase
  | _ => simp [Obstacle.stage]

theorem three_le {format : Format} {warnings : List SettingWarning} (h : Meets w a o)
    (hgood : GoodSettings w a format warnings) : 3 ≤ o.stage := by
  have htwo := h.two_le hgood.valid hgood.baseDirs
  cases h with
  | format => simp [Obstacle.stage] at htwo
  | noBaseDir => simp [Obstacle.stage] at htwo
  | rules hr =>
    obtain ⟨rules, hrules⟩ := hgood.rules
    rw [hr] at hrules
    cases hrules
  | _ => simp [Obstacle.stage]

/-- After a load only the page is left to fail: the index has no violations. -/
theorem five_le {format : Format} {warnings : List SettingWarning} {l : LoadedFile} (h : Meets w a o)
    (hgood : GoodSettings w a format warnings) (hl : Loads w a (.ok l)) : 5 ≤ o.stage := by
  have hthree := h.three_le hgood
  cases h with
  | format => simp [Obstacle.stage] at hthree
  | noBaseDir => simp [Obstacle.stage] at hthree
  | rules => simp [Obstacle.stage] at hthree
  | snapshot hl' => cases hl.unique hl'
  | violations hl' _ hne => exact absurd hl'.violations_eq hne
  | page => simp [Obstacle.stage]

end Meets

/-- A run ends at its first obstacle or comes to its outputs, and before that it only adds to the log. -/
theorem runArguments_cases (w : World) (a : Arguments) :
    ∃ log, (∃ o, Meets w a o ∧ (∀ o', Meets w a o' → o.stage ≤ o'.stage) ∧
        runArguments w a = o.finish { tree := w.tree, log }) ∨
      ∃ y, Prepares w a y ∧ runArguments w a = y.finish w a.choices { tree := w.tree, log } := by
  rw [runArguments]
  dsimp only
  cases hvalid : (settings w.env a.choices).validate w.tree w.cwd with
  | error e => exact ⟨_, .inl ⟨_, .format hvalid, fun _ _ => Nat.zero_le _, rfl⟩⟩
  | ok v =>
  obtain ⟨format, warnings⟩ := v
  dsimp only
  by_cases hb : Given.nothing ∈ a.choices.baseDirs
  · rw [if_pos (List.contains_iff_mem.2 hb)]
    exact ⟨_, .inl ⟨_, .noBaseDir hb, fun _ ho => ho.one_le hvalid, rfl⟩⟩
  rw [if_neg (mt List.contains_iff_mem.1 hb)]
  cases hr : (settings w.env a.choices).rules w.context with
  | error u => exact ⟨_, .inl ⟨_, .rules hr, fun _ ho => ho.two_le hvalid hb, rfl⟩⟩
  | ok rules =>
  dsimp only
  rw [runUnder_eq]
  have hgood : GoodSettings w a format warnings := ⟨hvalid, hb, rules, hr⟩
  rcases hl : loadFile w rules a.snapshot with ⟨log, f | l⟩
  · exact ⟨_, .inl ⟨_, .snapshot ⟨rules, hr, by rw [hl]⟩, fun _ ho => ho.three_le hgood, rfl⟩⟩
  have hloads : Loads w a (.ok l) := ⟨rules, hr, by rw [hl]⟩
  obtain ⟨f, hf⟩ := exists_findings hloads.sound a.verb (settings w.env a.choices).macroOut.isSome
  simp only [present, hf, State.say, List.nil_append]
  cases hpage : page w w.tree (settings w.env a.choices) format a.choices f.parts with
  | error e =>
    have hmeets : Meets w a (.page e) := .page hloads hvalid hf hpage
    rcases e with (e | e) | (message | message) | _ <;>
      exact ⟨_, .inl ⟨_, hmeets, fun _ ho => ho.five_le hgood hloads, rfl⟩⟩
  | ok text =>
    exact ⟨_, .inr ⟨⟨_, l, f, text⟩, ⟨rfl, hb, hloads, hf, format, warnings, hvalid, hpage⟩, rfl⟩⟩

/-- A run that comes to an obstacle before all others ends there. -/
theorem Meets.first {o : Obstacle} (h : Meets w a o) (hfirst : ∀ o', Meets w a o' → o.stage ≤ o'.stage) :
    ∃ st, runArguments w a = o.finish st := by
  obtain ⟨log, ⟨o', ho', hfirst', hend⟩ | ⟨y, hy, -⟩⟩ := runArguments_cases w a
  · cases h.unique ho' (Nat.le_antisymm (hfirst o' ho') (hfirst' o h))
    exact ⟨_, hend⟩
  · exact absurd h (hy.not_meets o)

/-! ### Obstacles -/

/-- The run has failed, and only its log differs from what it was. -/
structure Finished.FailsAt (r : Finished) (st : State) : Prop where
  tree : r.state.tree = st.tree
  stdout : r.state.stdout = st.stdout
  ending : r.ending = .exit 2 ∨ r.ending = .exit 3 ∨ ∃ u, r.ending = .uncaught u

theorem failsAt_giveUp (st : State) (u : Uncaught) : (st.giveUp u).FailsAt st := ⟨rfl, rfl, .inr (.inr ⟨u, rfl⟩)⟩

theorem failsAt_endAtFile (st : State) (task : Text) (e : FileError) : (st.endAtFile task e).FailsAt st := by
  cases e with
  | refused what path => exact ⟨rfl, rfl, .inl rfl⟩
  | zeroCharacter => exact failsAt_giveUp st _
  | unencodable e => exact failsAt_giveUp st _
  | tooDeep => exact failsAt_giveUp st _

theorem failsAt_endOfLoad (st : State) (f : Snapshot.Failure) : (endOfLoad st f).FailsAt st := by
  cases f with
  | file e => exact failsAt_endAtFile st _ e
  | complaint c => exact ⟨rfl, rfl, .inl rfl⟩
  | inconsistent i => exact ⟨rfl, rfl, .inr (.inl rfl)⟩
  | unhashable u => exact failsAt_giveUp st _
  | unclassifiable u => exact failsAt_giveUp st _
  | encoding e => exact failsAt_giveUp st _
  | excess e => exact failsAt_giveUp st _

theorem Obstacle.failsAt (o : Obstacle) (st : State) : (o.finish st).FailsAt st := by
  cases o with
  | format e => exact ⟨rfl, rfl, .inl rfl⟩
  | noBaseDir => exact failsAt_giveUp st _
  | rules u => exact failsAt_giveUp st _
  | snapshot f => exact failsAt_endOfLoad st f
  | violations found => exact ⟨rfl, rfl, .inr (.inl rfl)⟩
  | page e =>
    rcases e with (e | e) | (message | message) | _
    · exact failsAt_endAtFile st _ e
    · exact failsAt_giveUp st _
    · exact ⟨rfl, rfl, .inl rfl⟩
    · exact failsAt_giveUp st _
    · exact failsAt_giveUp st _

theorem Obstacle.ending_finish (o : Obstacle) (st st' : State) :
    (o.finish st).ending = (o.finish st').ending := by
  cases o with
  | snapshot f =>
    cases f with
    | file e => cases e <;> rfl
    | _ => rfl
  | page e =>
    rcases e with (e | e) | (message | message) | _
    · cases e <;> rfl
    · rfl
    · rfl
    · rfl
    · rfl
  | _ => rfl

theorem run_eq {args : List Text} (h : parse w.dashes args = .run a) :
    (run w args).tree = (runArguments w a).state.tree ∧ (run w args).stdout = (runArguments w a).state.stdout ∧
      (run w args).ending = (runArguments w a).ending := by
  unfold run
  rw [h]
  exact ⟨rfl, rfl, rfl⟩

/-- A run with an obstacle on its way fails, and all files and standard output are as if it had not been
started. Any other run has its whole page in hand when it begins to write. -/
theorem obstacle_touches_nothing (w : World) (args : List Text) (a : Arguments) (hargs : parse w.dashes args = .run a) :
    let r := run w args
    (∀ o, Meets w a o → r.tree = w.tree ∧ r.stdout = "" ∧
      (r.ending = .exit 2 ∨ r.ending = .exit 3 ∨ ∃ u, r.ending = .uncaught u)) ∧
    ((∀ o, ¬ Meets w a o) → ∃ y log, Prepares w a y ∧
      let written := y.finish w a.choices { tree := w.tree, log }
      r.tree = written.state.tree ∧ r.stdout = written.state.stdout ∧ r.ending = written.ending) := by
  intro r
  obtain ⟨htree, hstdout, hending⟩ := run_eq (w := w) hargs
  rw [htree, hstdout, hending]
  obtain ⟨log, ⟨o, ho, -, hend⟩ | ⟨y, hy, hend⟩⟩ := runArguments_cases w a <;> rw [hend]
  · have hfails := o.failsAt { tree := w.tree, log }
    exact ⟨fun _ _ => ⟨hfails.tree, hfails.stdout, hfails.ending⟩, fun hn => absurd ho (hn o)⟩
  · exact ⟨fun o ho => absurd ho (hy.not_meets o), fun _ => ⟨y, log, hy, rfl, rfl, rfl⟩⟩

/-- A snapshot and an earlier page, and no template. -/
def earlierPage : World :=
  { Host.plain with
    tree.entries := [
      ([[.char 's']], .file (FileTree.bytesOf "\x7b\"roots\": []\x7d").1), ([[.char 'o']], .file [60, 112, 62])]
    env := []
    cwd := "/"
    clock := []
    stdoutIsTerminal := false }

/-- A page over the earlier one, from the template that is not there. -/
def replacePage : Arguments :=
  ⟨0, .everything, "s", { output := some (.value "o"), format := some .html, htmlTemplate := some "t" }⟩

theorem obstacle_touches_nothing_earlierPage :
    let args : List Text := ["all", "s", "-f", "html", "-o", "o", "--html-template", "t"]
    parse earlierPage.dashes args = .run replacePage ∧
      Meets earlierPage replacePage (.page (.template (.file (.refused .missing "t")))) ∧
      (run earlierPage args).tree = earlierPage.tree ∧ (run earlierPage args).stdout = "" := by
  intro args
  have hargs : parse earlierPage.dashes args = .run replacePage := by decide +kernel
  have hok : (loadFile earlierPage ⟨earlierPage.context, [], systemHeaderDirs, []⟩ "s").2.isOk := by
    decide +kernel
  cases hload : (loadFile earlierPage ⟨earlierPage.context, [], systemHeaderDirs, []⟩ "s").2 with
  | error f =>
    rw [hload] at hok
    cases hok
  | ok l =>
    have hloads : Loads earlierPage replacePage (.ok l) := ⟨_, by decide +kernel, hload⟩
    obtain ⟨f, hf⟩ := exists_findings hloads.sound .everything false
    have ho : Meets earlierPage replacePage (.page (.template (.file (.refused .missing "t")))) :=
      .page hloads (by rfl) hf (by rfl)
    obtain ⟨htree, hout, -⟩ := (obstacle_touches_nothing earlierPage args replacePage hargs).1 _ ho
    exact ⟨hargs, ho, htree, hout⟩

end Blame.Command
