import Blame.Proofs.Faults
import Blame.Proofs.Outputs
import Blame.Proofs.PlainTexts
import Blame.Proofs.ProjectFiles

/-!
# How a run can end

Most of what can go wrong in a run is told with an exit code. What escapes instead is listed by `Escapes`, each
case with what has to hold of the command line, the environment, the snapshot or the template, and
`run_exits_unless` says that the list is complete. An inconsistent snapshot is always told, and so is every
fault of a record but a nested id; bytes that are not UTF-8, texts that have no bytes and documents beyond the limits
of the reader are not.
-/

namespace Blame

theorem Settings.generatedGlobs_of_rules {s : Settings} {context : Path.Context} {r : FileRules}
    (h : s.rules context = .ok r) : r.generatedGlobs = s.generatedGlobs :=
  (FileRules.madeFor_of_make h).globs

theorem Settings.rules_error {s : Settings} {context : Path.Context} {u : Unclassifiable}
    (h : s.rules context = .error u) :
    ∃ p ∈ s.baseDirs ++ s.systemDirs, ∃ f, Path.userFault? p = some f ∧ u = .ofName f := by
  have hdirs : ∃ p ∈ s.baseDirs ++ s.systemDirs, FileRules.normal context p = .error u := by
    unfold rules FileRules.make at h
    cases hbase : s.baseDirs.mapM (FileRules.normal context) with
    | error u' =>
      rw [hbase] at h
      cases h
      obtain ⟨p, hp, hu⟩ := Snapshot.exists_of_mapM_error hbase
      exact ⟨p, List.mem_append_left _ hp, hu⟩
    | ok baseDirs =>
      cases hsystem : s.systemDirs.mapM (FileRules.normal context) with
      | error u' =>
        rw [hbase, hsystem] at h
        cases h
        obtain ⟨p, hp, hu⟩ := Snapshot.exists_of_mapM_error hsystem
        exact ⟨p, List.mem_append_right _ hp, hu⟩
      | ok systemDirs =>
        rw [hbase, hsystem] at h
        cases h
  obtain ⟨p, hp, hu⟩ := hdirs
  exact ⟨p, hp, FileRules.normal_eq_error_iff.1 hu⟩

theorem error_or_of_bind_eq_error {ε α β : Type} {r : Except ε α} {k : α → Except ε β} {e : ε}
    (h : r >>= k = .error e) :
    r = .error e ∨ ∃ a, r = .ok a ∧ k a = .error e := by
  cases r with
  | error e' =>
    cases h
    exact .inl rfl
  | ok a => exact .inr ⟨a, rfl, h⟩

namespace FileRules

theorem anyGlobFits_error {file : Text} {globs : List (Option Text)} {u : Unclassifiable}
    (h : anyGlobFits file globs = .error u) : u = .noGlob ∧ none ∈ globs := by
  induction globs with
  | nil => cases h
  | cons glob rest ih =>
    cases glob with
    | none =>
      cases h
      exact ⟨rfl, List.mem_cons_self⟩
    | some glob =>
      rw [anyGlobFits] at h
      split at h
      · cases h
      · exact (ih h).imp_right (List.mem_cons_of_mem _)

theorem normal_error_of_map {r : FileRules} {file : Text} {u : Unclassifiable} {decides : Text → Bool}
    (h : (normal r.context file).map decides = .error u) : ∃ f, Path.userFault? file = some f ∧ u = .ofName f := by
  cases hnormal : normal r.context file with
  | error u' =>
    rw [hnormal] at h
    cases h
    exact normal_eq_error_iff.1 hnormal
  | ok p =>
    rw [hnormal] at h
    cases h

/-- The rules in order: the path has a normal form unless it asks for a user, and then only the globs can fail. -/
theorem find_error {r : FileRules} {file : Text} {u : Unclassifiable} (h : r.find file = .error u) :
    (∃ f, Path.userFault? file = some f ∧ u = .ofName f) ∨ u = .noGlob ∧ none ∈ r.generatedGlobs := by
  unfold find at h
  split at h
  · cases h
  · rcases error_or_of_bind_eq_error h with h | ⟨system, -, h⟩
    · exact .inl (normal_error_of_map h)
    · split at h
      · cases h
      · rcases error_or_of_bind_eq_error h with h | ⟨generated, -, h⟩
        · exact .inr (anyGlobFits_error h)
        · split at h
          · cases h
          · rcases error_or_of_bind_eq_error h with h | ⟨base, -, h⟩
            · unfold isInBase at h
              split at h
              · cases h
              · exact .inl (normal_error_of_map h)
            · cases h

/-- What is remembered has an answer, so only a file that is looked at can have none. -/
theorem find_of_ask_error {r : FileRules} {cache : VerdictCache} {file : Text} {u : Unclassifiable}
    (h : r.classifier.ask cache file = .error u) : r.find file = .error u := by
  unfold classifier at h
  dsimp only at h
  split at h
  · cases h
  · split at h
    · cases h
    · cases hfind : r.find file with
      | ok finding =>
        rw [hfind] at h
        cases h
      | error u' =>
        rw [hfind] at h
        cases h
        rfl

end FileRules

/-! ### Plain texts -/

theorem isPlain_intercalate {sep : Text} (hsep : sep.IsPlain) : (l : List Text) → (∀ s ∈ l, s.IsPlain) →
    (Text.intercalate sep l).IsPlain
  | [], _ => (nofun : Text.ArePlain [])
  | [s], h => h s (List.mem_singleton_self s)
  | s :: t :: rest, h => by
    rw [Text.intercalate]
    exact ((h s List.mem_cons_self).append hsep).append
      (isPlain_intercalate hsep (t :: rest) fun u hu => h u (List.mem_cons_of_mem s hu))

/-- Statistics are plain as text and as JSON. -/
theorem RunStats.isPlain_text {stats : RunStats Number.Double} {asJson : Bool} {text : Text}
    (h : stats.text asJson = .ok text) : text.IsPlain := by
  unfold RunStats.text at h
  split at h
  · cases h
  · cases h
    split
    · exact (Json.isPlain_write .oneLine stats.toJson).append (by decide)
    · refine (isPlain_intercalate (by decide) _ ?_).append (by decide)
      simp only [List.forall_mem_append, List.forall_mem_map, List.forall_mem_singleton]
      refine ⟨⟨⟨by decide, fun p _ => ?_⟩, by decide⟩, fun c _ => ?_⟩
      · have hkey : p.key.IsPlain := by cases p <;> decide
        exact (hkey.append (by decide)).append (Number.Double.isPlain_text _)
      · have hkey : c.key.IsPlain := by cases c <;> decide
        exact (hkey.append (by decide)).append (Number.arePlain_intChars _)

end Blame

namespace Blame.Command

open Blame.Path FileTree Number Snapshot Text

/-- What escapes if the system cannot be given a name. -/
def Uncaught.ofName : NameFault → Uncaught
  | .unencodable e => .unencodable e
  | .zeroCharacter => .file .zeroCharacter

/-- A file that a run is told to write, with the path it is opened under, if there is one. -/
inductive WritesTo (w : World) (a : Arguments) : Text → Except WayFault Text → Prop
  | output {p : Text} (h : a.choices.output = some (.value p)) : WritesTo w a p (target w.context p)
  | macroOut {p : Text} (h : a.choices.macroOut = some p) : WritesTo w a p (.ok (plain p))
  | castOut {p : Text} (h : a.choices.castOut = some p) : WritesTo w a p (.ok (plain p))
  | voidOut {p : Text} (h : a.choices.voidOut = some p) : WritesTo w a p (.ok (plain p))
  | perfStats {p : Text} (h : a.choices.perfStats = some p) : WritesTo w a p (target w.context p)

/-- A file that a run is told to read. -/
inductive Reads (w : World) (a : Arguments) : Text → Prop
  | snapshot : Reads w a a.snapshot
  | template {p : Text} (h : (settings w.env a.choices).htmlTemplate = some p) : Reads w a p

/-- What can escape from a run, and why: nothing was given where a value is needed, a name cannot be given to the
system, a text has no bytes, bytes are no text, or one of the limits on depth and length is exceeded. -/
inductive Escapes (w : World) (a : Arguments) : Uncaught → Prop
  | noBaseDir (h : Given.nothing ∈ a.choices.baseDirs) : Escapes w a (.noValue .baseDir)
  | noOutput (h : a.choices.output = some .nothing) : Escapes w a (.noValue .output)
  | noLimit (h : a.choices.limit = some .nothing) : Escapes w a (.noValue .limit)
  | noGlob (h : Given.nothing ∈ a.choices.generatedGlobs) : Escapes w a (.unclassifiable .noGlob)
  | noHome {p : Text} (h : WritesTo w a p (.error .noHome)) : Escapes w a .noHome
  | userDir {p : Text} {f : NameFault} (hp : p ∈ (settings w.env a.choices).baseDirs) (h : userFault? p = some f) :
      Escapes w a (.unclassifiable (.ofName f))
  | userPlace {members : Members} {x : Atom} {l : Location} {f : NameFault}
      (hread : readDocument w.nesting w.tree w.cwd a.snapshot = .ok members)
      (hplace : (Document.ofMembers members).places.find? x = some (some l))
      (h : userFault? l.file = some f) : Escapes w a (.unclassifiable (.ofName f))
  | nameRead {p : Text} {f : NameFault} {c : CodePoint} (hp : Reads w a p) (hc : c ∈ p.toList) (h : f.DueTo c) :
      Escapes w a (.ofName f)
  | nameWritten {p : Text} {path : Except WayFault Text} {f : NameFault} {c : CodePoint} (hp : WritesTo w a p path)
      (hc : w.context.Mentions p c) (h : f.DueTo c) : Escapes w a (.ofName f)
  | tooDeep {p path : Text} (hp : WritesTo w a p (.ok path))
      (h : w.directories + 1 < (components path.toList).length) : Escapes w a (.file .tooDeep)
  | encoding {p : Text} {bytes : List UInt8} {f : Utf8.Fault} (hp : Reads w a p)
      (hread : w.tree.read w.cwd (plain p) = .ok bytes) (h : Utf8.decode bytes = .error f) :
      Escapes w a (.encoding f)
  | excess {cs : List CodePoint} {e : Json.Excess}
      (hread : readText w.tree w.cwd (plain a.snapshot) = .ok cs)
      (h : Json.read w.nesting cs = .error (.excess e)) : Escapes w a (.excess e)
  | nestedId {members : Members} {records : List Json} {v : Json} {u : Unhashable}
      (hread : readDocument w.nesting w.tree w.cwd a.snapshot = .ok members)
      (hrecords : Json.member? "pointers" members = some (.list records)) (hv : v ∈ records)
      (h : HasNestedId v u) : Escapes w a (.unhashable u)
  | template {t : Text} {cs : List CodePoint} {parts : Page.Parts} {message : Text}
      (ht : (settings w.env a.choices).htmlTemplate = some t) (hread : readText w.tree w.cwd (plain t) = .ok cs)
      (hcs : ¬ Page.Html.IsLiteral cs) (h : w.render cs parts = .error (.failed message)) :
      Escapes w a (.template message)
  | pageOnStdout {y : Prepared} {e : Utf8.Unencodable} (hy : Prepares w a y)
      (hout : a.choices.output = none ∨ a.choices.output = some (.value "-")) (h : w.stdoutFault? y.text = some e) :
      Escapes w a (.unencodable e)
  | pageInFile {y : Prepared} {p : Text} {e : Utf8.Unencodable} (hy : Prepares w a y)
      (hout : a.choices.output = some (.value p)) (hformat : y.settings.format ≠ Format.json.name)
      (h : Utf8.encode y.text = .error e) : Escapes w a (.unencodable e)
  | statsOnStdout {text : Text} {e : Utf8.Unencodable} (hp : a.choices.perfStats = some "-") (htext : text.IsPlain)
      (h : w.stdoutFault? text = some e) : Escapes w a (.unencodable e)
  | longCount {p : Text} {l : LoadedFile} {c : Counter} (hp : a.choices.perfStats = some p)
      (hl : Loads w a (.ok l)) (h : digitLimit < (natDigits ((runStats w l.document).counts c).natAbs).length) :
      Escapes w a (.longCount ⟨c⟩)

/-- The ending is success, one of the two exit codes for failures, or something that may escape. -/
def Ending.ExitsUnless (escapes : Uncaught → Prop) : Ending → Prop
  | .exit code => code = 0 ∨ code = 2 ∨ code = 3
  | .uncaught u => escapes u

/-- What escapes at the failure of an output, or of another file operation, is one of the known cases. -/
def Explained (w : World) (a : Arguments) (e : OutputError) : Prop := ∀ u, e.escaping? = some u → Escapes w a u

variable {w : World} {a : Arguments}

theorem explained_refused (r : Refusal) (p : Text) : Explained w a (.file (.refused r p)) := nofun

theorem explained_ofName {f : NameFault} (h : Escapes w a (.ofName f)) : Explained w a (.file (.ofName f)) := by
  intro u hu
  cases f with
  | unencodable e =>
    cases hu
    exact h
  | zeroCharacter =>
    cases hu
    exact h

theorem endAtFile_exitsUnless {e : FileError} (st : State) (task : Text) (h : Explained w a (.file e)) :
    (st.endAtFile task e).ending.ExitsUnless (Escapes w a) := by
  cases e with
  | refused r p => exact .inr (.inl rfl)
  | zeroCharacter => exact h _ rfl
  | unencodable e => exact h _ rfl
  | tooDeep => exact h _ rfl

/-! ### Reading -/

/-- A text that cannot be read is refused, or its path cannot be given to the system, or it is not UTF-8. -/
theorem readText_error {p : Text} (hp : Reads w a p) {e : TextError}
    (h : readText w.tree w.cwd (plain p) = .error e) :
    (∃ f, e = .file f ∧ Explained w a (.file f)) ∨ ∃ f, e = .encoding f ∧ Escapes w a (.encoding f) := by
  unfold readText at h
  split at h
  · rename_i f hread
    cases h
    refine .inl ⟨f, rfl, ?_⟩
    rcases FileTree.read_error hread with ⟨r, rfl⟩ | ⟨n, hn, rfl⟩
    · exact explained_refused r _
    · obtain ⟨c, hc, hdue⟩ := not_spares_iff.1 (mt NameFault.Spares.plain (not_spares_of_nameFault? hn))
      exact explained_ofName (.nameRead hp hc hdue)
  · rename_i bytes hread
    split at h
    · rename_i f hdecode
      cases h
      exact .inr ⟨f, rfl, .encoding hp hread hdecode⟩
    · cases h

theorem readDocument_exitsUnless (st : State) {e : FileLoadError}
    (h : readDocument w.nesting w.tree w.cwd a.snapshot = .error e) :
    (endOfLoad st e.failure).ending.ExitsUnless (Escapes w a) := by
  unfold readDocument at h
  dsimp only at h
  split at h
  · rename_i f htext
    cases h
    obtain ⟨g, hg, hgood⟩ | ⟨g, hg, -⟩ := readText_error .snapshot htext
    · cases hg
      exact endAtFile_exitsUnless st _ hgood
    · cases hg
  · rename_i f htext
    cases h
    obtain ⟨g, hg, -⟩ | ⟨g, hg, hescapes⟩ := readText_error .snapshot htext
    · cases hg
    · cases hg
      exact hescapes
  · rename_i cs htext
    split at h
    · cases h
      exact .inr (.inl rfl)
    · rename_i e hexcess
      cases h
      exact .excess htext hexcess
    · cases h
    · cases h
      exact .inr (.inl rfl)

theorem nothing_of_none_mem_globs (h : none ∈ (settings w.env a.choices).generatedGlobs) :
    Given.nothing ∈ a.choices.generatedGlobs := by
  unfold settings at h
  dsimp only at h
  split at h
  · rw [Settings.ofEnvironment] at h
    obtain ⟨g, -, hg⟩ := List.mem_map.1 h
    cases hg
  · obtain ⟨g, hg, hnone⟩ := List.mem_map.1 h
    cases g with
    | value v => cases hnone
    | nothing => exact hg

theorem endOfLoad_exitsUnless (st : State) {f : Failure} (h : Loads w a (.error f)) :
    (endOfLoad st f).ending.ExitsUnless (Escapes w a) := by
  obtain ⟨rules, hrules, hload⟩ := h
  unfold loadFile at hload
  cases hread : readDocument w.nesting w.tree w.cwd a.snapshot with
  | error e =>
    rw [hread] at hload
    cases hload
    exact readDocument_exitsUnless st hread
  | ok members =>
    rw [hread] at hload
    dsimp only at hload
    rcases load_error_cases rules.classifier members [] {} with hnone | ⟨e, he, hends⟩
    · rw [hnone] at hload
      cases hload
    · rw [he] at hload
      cases hload
      cases hends with
      | malformed place what => exact .inr (.inl rfl)
      | inconsistent i => exact .inr (.inr rfl)
      | unhashable hrecords hv hid => exact .nestedId hread hrecords hv hid
      | unclassifiable hplace _ hask =>
        obtain ⟨n, hn, rfl⟩ | ⟨rfl, hnone⟩ := FileRules.find_error (FileRules.find_of_ask_error hask)
        · exact .userPlace hread hplace hn
        · rw [Settings.generatedGlobs_of_rules hrules] at hnone
          exact .noGlob (nothing_of_none_mem_globs hnone)

/-! ### Settings and pages -/

theorem rules_exitsUnless {u : Unclassifiable} (h : (settings w.env a.choices).rules w.context = .error u) :
    Escapes w a (.unclassifiable u) := by
  obtain ⟨p, hp, f, hf, rfl⟩ := Settings.rules_error h
  rcases List.mem_append.1 hp with hp | hp
  · exact .userDir hp hf
  · -- the directories of system headers are fixed, and none of them is a user's
    have hnone : ∀ p ∈ systemHeaderDirs, userFault? p = none := by decide +kernel
    rw [hnone p hp] at hf
    cases hf

/-- A template that the environment names is also the one of the settings, so no other is ever read. -/
theorem nonEmpty?_eq_none_of_filter {env : Environment} {c : Choices}
    (h : ((settings env c).htmlTemplate.filter fun t => !t.isEmpty) = none) :
    env.nonEmpty? "WILDRC_HTML_TEMPLATE" = none := by
  have hnonempty : ∀ t, env.nonEmpty? "WILDRC_HTML_TEMPLATE" = some t → t.isEmpty = false := by
    intro t ht
    have hfilter := (Option.filter_eq_some_iff.1 ht).2
    simpa using hfilter
  have hsettings : (settings env c).htmlTemplate =
      (c.htmlTemplate.filter fun t => !t.isEmpty).or (env.nonEmpty? "WILDRC_HTML_TEMPLATE") := rfl
  rw [hsettings] at h
  cases hgiven : c.htmlTemplate.filter fun t => !t.isEmpty with
  | some t =>
    have hfilter := (Option.filter_eq_some_iff.1 hgiven).2
    rw [hgiven, Option.some_or, Option.filter_some, if_pos hfilter] at h
    cases h
  | none =>
    rw [hgiven, Option.none_or] at h
    cases henv : env.nonEmpty? "WILDRC_HTML_TEMPLATE" with
    | none => rfl
    | some t =>
      rw [henv, Option.filter_some, hnonempty t henv] at h
      cases h

/-- A literal template is filled in. -/
theorem customPage_error (hrender : Page.Html.ShowsLiterals w.render) {t : Text} {parts : Page.Parts} {e : PageError}
    (h : customPage w w.tree t parts = .error e) :
    (∃ e', e = .template e' ∧ readText w.tree w.cwd (plain t) = .error e') ∨
    ∃ cs f, e = .rendering f ∧ readText w.tree w.cwd (plain t) = .ok cs ∧ ¬ Page.Html.IsLiteral cs ∧
      w.render cs parts = .error f := by
  unfold customPage at h
  cases hread : readText w.tree w.cwd (plain t) with
  | error e' =>
    rw [hread] at h
    cases h
    exact .inl ⟨e', rfl, rfl⟩
  | ok cs =>
    rw [hread] at h
    dsimp only at h
    cases hpage : w.render cs parts with
    | ok text =>
      rw [hpage] at h
      cases h
    | error f =>
      rw [hpage] at h
      cases h
      refine .inr ⟨cs, f, rfl, rfl, fun hcs => ?_, hpage⟩
      rw [hrender cs parts hcs] at hpage
      cases hpage

theorem page_error {format : Format} {parts : Page.Parts} {e : PageError}
    (h : page w w.tree (settings w.env a.choices) format a.choices parts = .error e) :
    (e = .noLimit ∧ a.choices.limit = some .nothing) ∨
    ∃ t, (settings w.env a.choices).htmlTemplate = some t ∧ customPage w w.tree t parts = .error e := by
  unfold page at h
  cases format with
  | json => cases h
  | text =>
    dsimp only at h
    unfold textPage at h
    split at h
    · rename_i hlimit
      cases h
      rw [Bool.and_eq_true, beq_iff_eq] at hlimit
      exact .inl ⟨rfl, hlimit.2⟩
    · cases h
  | html =>
    dsimp only at h
    unfold htmlPage at h
    cases htemplate : (settings w.env a.choices).htmlTemplate.filter fun t => !t.isEmpty with
    | none =>
      rw [htemplate, nonEmpty?_eq_none_of_filter htemplate] at h
      cases h
    | some t =>
      rw [htemplate] at h
      exact .inr ⟨t, (Option.filter_eq_some_iff.1 htemplate).1, h⟩

theorem Meets.exitsUnless (hrender : Page.Html.ShowsLiterals w.render) {o : Obstacle} (h : Meets w a o) (st : State) :
    (o.finish st).ending.ExitsUnless (Escapes w a) := by
  cases h with
  | format h => exact .inr (.inl rfl)
  | noBaseDir h => exact .noBaseDir h
  | rules h => exact rules_exitsUnless h
  | snapshot h => exact endOfLoad_exitsUnless st h
  | violations hl hstrict h => exact .inr (.inr rfl)
  | page hl hformat hf h =>
    obtain ⟨rfl, hlimit⟩ | ⟨t, ht, hpage⟩ := page_error h
    · exact .noLimit hlimit
    · obtain ⟨e, rfl, hread⟩ | ⟨cs, f, rfl, hread, hcs, hrefused⟩ := customPage_error hrender hpage
      · obtain ⟨f, rfl, hf⟩ | ⟨f, rfl, hf⟩ := readText_error (.template ht) hread
        · exact endAtFile_exitsUnless st _ hf
        · exact hf
      · cases f with
        | refused message => exact .inr (.inl rfl)
        | failed message => exact .template ht hread hcs hrefused

/-! ### Outputs -/

variable {st : State} {p text : Text} {e : OutputError}

theorem explained_writeText {path : Text} {f : FileError} (hp : WritesTo w a p (.ok path))
    (hname : ∀ n : NameFault, ¬ n.Spares path.toList → ∃ c, w.context.Mentions p c ∧ n.DueTo c)
    (htext : ∀ e, Utf8.encode text = .error e → Escapes w a (.unencodable e))
    (h : (st.tree.writeText w.cwd w.directories path text).2 = some f) : Explained w a (.file f) := by
  obtain ⟨r, q, rfl⟩ | ⟨n, rfl, hn⟩ | ⟨rfl, hdeep⟩ | ⟨e, rfl, he⟩ := writeText_error h
  · exact explained_refused r q
  · obtain ⟨c, hc, hdue⟩ := hname n hn
    exact explained_ofName (.nameWritten hp hc hdue)
  · intro u hu
    cases hu
    exact .tooDeep hp hdeep
  · intro u hu
    cases hu
    exact htext e he

theorem explained_emitFile (hp : WritesTo w a p (target w.context p))
    (htext : ∀ e, Utf8.encode text = .error e → Escapes w a (.unencodable e))
    (h : (emitFile w st p text).2 = some e) : Explained w a e := by
  cases htarget : target w.context p with
  | error f =>
    rw [emitFile_of_error st text htarget] at h
    cases h
    cases f with
    | name n =>
      obtain ⟨c, hc, hdue⟩ := exists_of_target (.inl htarget)
      exact explained_ofName (.nameWritten hp hc hdue)
    | noHome =>
      intro u hu
      cases hu
      exact .noHome (htarget ▸ hp)
  | ok path =>
    rw [emitFile_of_ok st text htarget] at h
    obtain ⟨f, hf, rfl⟩ := Option.map_eq_some_iff.1 h
    exact explained_writeText (htarget ▸ hp) (fun n hn => exists_of_target (.inr ⟨path, htarget, hn⟩)) htext hf

/-- Records are plain on paper, so it is the path that can be wrong. -/
theorem explained_dump {records : List Json} (hp : WritesTo w a p (.ok (plain p)))
    (h : (dump w st records p).2 = some e) : Explained w a e := by
  rw [(dump_spec w st records p).2.2] at h
  obtain ⟨f, hf, rfl⟩ := Option.map_eq_some_iff.1 h
  refine explained_writeText hp (fun n hn => ?_) (fun e he => ?_) hf
  · obtain ⟨c, hc, hdue⟩ := not_spares_iff.1 (mt NameFault.Spares.plain hn)
    exact ⟨c, .inl hc, hdue⟩
  · rw [Utf8.encode_of_plain (Json.isPlain_write _ _)] at he
    cases he

theorem optionalDump_explained {records : List Json} {p? : Option Text}
    (hp : ∀ p, p? = some p → WritesTo w a p (.ok (plain p))) :
    ∀ o ∈ optionalDump w records p?, ∀ e, (o st).2 = some e → Explained w a e := by
  intro o ho
  unfold optionalDump at ho
  split at ho
  · rename_i p hfilter
    obtain rfl := List.mem_singleton.1 ho
    exact fun e => explained_dump (hp p (Option.filter_eq_some_iff.1 hfilter).1)
  · cases ho

theorem explained_emit {dest : Option (Given Text)} (hnothing : dest = some .nothing → a.choices.output = some .nothing)
    (hfile : ∀ p, dest = some (.value p) → WritesTo w a p (target w.context p))
    (hstdout : dest = none ∨ dest = some (.value "-") → ∀ e, w.stdoutFault? text = some e →
      Escapes w a (.unencodable e))
    (hbytes : ∀ p, dest = some (.value p) → ∀ e, Utf8.encode text = .error e → Escapes w a (.unencodable e))
    (h : (emit w st dest text).2 = some e) : Explained w a e := by
  have hout (hdest : dest = none ∨ dest = some (.value "-")) (h : (emitStdout w st text).2 = some e) :
      Explained w a e := by
    unfold emitStdout at h
    split at h
    · rename_i fault hfault
      cases h
      intro u hu
      cases hu
      exact hstdout hdest fault hfault
    · cases h
  unfold emit at h
  split at h
  · exact hout (.inl rfl) h
  · exact hout (.inr rfl) h
  · cases h
    intro u hu
    cases hu
    exact .noOutput (hnothing rfl)
  · exact explained_emitFile (hfile _ rfl) (hbytes _ rfl) h

/-- Statistics are plain, and so are those that are not written because of a count. -/
theorem explained_emitStats {l : LoadedFile} (hp : a.choices.perfStats = some p) (hl : Loads w a (.ok l))
    (h : (emitStats w (runStats w l.document) p st).2 = some e) : Explained w a e := by
  have hemit {text : Text} (htext : text.IsPlain) (h : (emit w st (some (.value p)) text).2 = some e) :
      Explained w a e := by
    refine explained_emit (fun hnone => by cases hnone) (fun q hq => ?_) (fun hdest fault hfault => ?_)
      (fun q _ fault hfault => ?_) h
    · cases hq
      exact .perfStats hp
    · obtain hnone | hdest := hdest
      · cases hnone
      · cases hdest
        exact .statsOnStdout hp htext hfault
    · rw [Utf8.encode_of_plain htext] at hfault
      cases hfault
  obtain ⟨asJson, text, htext, ho⟩ | ⟨c, hc, -, herror⟩ := emitStats_cases w (runStats w l.document) p st
  · rw [ho] at h
    exact hemit (RunStats.isPlain_text htext) h
  · rcases herror with herror | herror <;> rw [herror] at h
    · exact hemit (by decide) h
    · cases h
      intro u hu
      cases hu
      unfold RunStats.tooLong? at hc
      have hdigits := List.find?_some hc
      exact .longCount hp hl (of_decide_eq_true hdigits)

/-- A page as JSON is plain. -/
theorem Prepares.isPlain_text {y : Prepared} (hy : Prepares w a y) (hformat : y.settings.format = Format.json.name) :
    y.text.IsPlain := by
  obtain ⟨format, warnings, hvalid, hpage⟩ := hy.page_eq
  unfold Settings.validate at hvalid
  rw [hformat] at hvalid
  have hjson : Format.ofName? Format.json.name = some .json := by decide
  rw [hjson] at hvalid
  cases hvalid
  rw [← Except.ok.inj hpage]
  refine IsPlain.append ?_ (by decide)
  unfold Page.Parts.json
  split
  · exact Json.isPlain_write _ _
  · exact Json.isPlain_write _ _

theorem outputs_explained {y : Prepared} (hy : Prepares w a y) :
    ∀ o ∈ outputs w y.settings a.choices y.text y.findings y.loaded.document, ∀ e, (o st).2 = some e →
      Explained w a e := by
  have hmacros : ∀ p, y.settings.macroOut = some p → WritesTo w a p (.ok (plain p)) := by
    intro p hp
    rw [hy.settings_eq] at hp
    exact .macroOut (Option.filter_eq_some_iff.1 hp).1
  intro o ho e he
  unfold outputs at ho
  simp only [List.mem_append] at ho
  obtain (((ho | ho) | ho) | ho) | ho := ho
  · obtain rfl := List.mem_singleton.1 ho
    refine explained_emit (fun h => h) (fun p hp => .output hp) (fun hout e => .pageOnStdout hy hout)
      (fun p hp e he => .pageInFile hy hp (fun hformat => ?_) he) he
    rw [Utf8.encode_of_plain (hy.isPlain_text hformat)] at he
    cases he
  · exact optionalDump_explained hmacros o ho e he
  · exact optionalDump_explained (fun p hp => .castOut hp) o ho e he
  · exact optionalDump_explained (fun p hp => .voidOut hp) o ho e he
  · split at ho
    · rename_i p hp
      obtain rfl := List.mem_singleton.1 ho
      exact explained_emitStats (Option.filter_eq_some_iff.1 hp).1 hy.loads he
    · cases ho

theorem Prepares.exitsUnless {y : Prepared} (hy : Prepares w a y) (log : List LogLine) :
    (y.finish w a.choices { tree := w.tree, log }).ending.ExitsUnless (Escapes w a) := by
  rw [(y.finish_spec w a.choices { tree := w.tree, log }).2.2]
  cases herror : (emitAll _ _).2 with
  | none => exact .inl rfl
  | some e =>
    obtain ⟨o, ho, st, hfails⟩ := exists_of_emitAll_error herror
    have he := outputs_explained hy o ho e hfails
    rw [Option.map_some, Option.getD_some, OutputError.ending]
    cases hu : e.escaping? with
    | none => exact .inr (.inl rfl)
    | some u => exact he u hu

/-! ### Runs -/

theorem runArguments_exitsUnless (hrender : Page.Html.ShowsLiterals w.render) (a : Arguments) :
    (runArguments w a).ending.ExitsUnless (Escapes w a) := by
  obtain ⟨log, ⟨o, ho, -, hend⟩ | ⟨y, hy, hend⟩⟩ := runArguments_cases w a <;> rw [hend]
  · exact ho.exitsUnless hrender _
  · exact hy.exitsUnless log

/-- A page that standard output has no bytes for is the first output, and the run ends with it. -/
theorem Prepares.ending_of_stdoutFault {y : Prepared} (hy : Prepares w a y)
    (hout : a.choices.output = none ∨ a.choices.output = some (.value "-")) {e : Utf8.Unencodable}
    (h : w.stdoutFault? y.text = some e) : (runArguments w a).ending = .uncaught (.unencodable e) := by
  obtain ⟨log, ⟨o, ho, -, hend⟩ | ⟨y', hy', hend⟩⟩ := runArguments_cases w a
  · exact absurd ho (hy.not_meets o)
  · obtain rfl := hy.unique hy'
    have hemit : emit w { tree := w.tree, log } a.choices.output y.text =
        ({ tree := w.tree, log }, some (.stdout e)) := by
      have hstdout : emitStdout w { tree := w.tree, log } y.text = ({ tree := w.tree, log }, some (.stdout e)) := by
        unfold emitStdout
        rw [h]
      rcases hout with hout | hout <;> rw [hout] <;> exact hstdout
    have herror : (emitAll (outputs w y.settings a.choices y.text y.findings y.loaded.document)
        { tree := w.tree, log }).2 = some (.stdout e) := by
      unfold outputs
      simp only [List.append_assoc, List.cons_append]
      rw [emitAll, hemit]
    rw [hend, (y.finish_spec w a.choices { tree := w.tree, log }).2.2, herror]
    rfl

section
variable {format : Format} {warnings : List SettingWarning}

theorem GoodSettings.ending_of_unread (h : GoodSettings w a format warnings) {e : FileLoadError}
    (hread : readDocument w.nesting w.tree w.cwd a.snapshot = .error e) :
    ∃ st, runArguments w a = endOfLoad st e.failure := by
  obtain ⟨rules, hrules⟩ := h.rules
  have hload : Loads w a (.error e.failure) := by
    refine ⟨rules, hrules, ?_⟩
    unfold loadFile
    rw [hread]
  exact (Meets.snapshot hload).first fun _ ho => ho.three_le h

theorem GoodSettings.ending_of_pageError (h : GoodSettings w a format warnings) {l : LoadedFile}
    (hl : Loads w a (.ok l)) {e : PageError}
    (hpage : ∀ parts, page w w.tree (settings w.env a.choices) format a.choices parts = .error e) :
    ∃ st, runArguments w a = (Obstacle.page e).finish st := by
  obtain ⟨f, hf⟩ := exists_findings hl.sound a.verb (settings w.env a.choices).macroOut.isSome
  exact (Meets.page hl h.valid hf (hpage _)).first fun _ ho => ho.five_le h hl

end

theorem readText_of_undecodable {p : Text} {bytes : List UInt8} {f : Utf8.Fault}
    (hread : w.tree.read w.cwd p = .ok bytes) (h : Utf8.decode bytes = .error f) :
    readText w.tree w.cwd p = .error (.encoding f) := by
  unfold readText
  rw [hread]
  dsimp only
  rw [h]

theorem readText_of_decodable {p : Text} {bytes : List UInt8} {cs : List CodePoint}
    (hread : w.tree.read w.cwd p = .ok bytes) (h : Utf8.decode bytes = .ok cs) :
    readText w.tree w.cwd p = .ok (unixLines cs) := by
  unfold readText
  rw [hread]
  dsimp only
  rw [h]

theorem page_html_of_unread {t : Text} {e : TextError} (parts : Page.Parts)
    (ht : (settings w.env a.choices).htmlTemplate = some t) (hne : t ≠ "")
    (hread : readText w.tree w.cwd (plain t) = .error e) :
    page w w.tree (settings w.env a.choices) .html a.choices parts = .error (.template e) := by
  have hkept : (!t.isEmpty) = true := by rw [Bool.not_eq_true', ← Bool.not_eq_true, Text.isEmpty_iff]; exact hne
  unfold page htmlPage
  rw [ht, Option.filter_some, if_pos hkept]
  dsimp only
  unfold customPage
  rw [hread]

/-- Every run ends with exit code 0, 2 or 3, unless one of the known reasons to escape is there; and of these, a page
that standard output has no bytes for, bytes that are not UTF-8 and a document beyond the limits of the reader do let
something escape. All this is said of worlds without links in their trees, in which nobody else is at work and files
take what is written to them; templates may be filled in by any means that shows the literal ones as they are. -/
theorem run_exits_unless (w : World) (hrender : Page.Html.ShowsLiterals w.render) (args : List Text) :
    ((run w args).ending.ExitsUnless fun u => ∃ a, parse w.dashes args = .run a ∧ Escapes w a u) ∧
    (∀ a y e, parse w.dashes args = .run a → Prepares w a y →
      a.choices.output = none ∨ a.choices.output = some (.value "-") → w.stdoutFault? y.text = some e →
        (run w args).ending = .uncaught (.unencodable e)) ∧
    ∀ a format warnings, parse w.dashes args = .run a → GoodSettings w a format warnings →
      (∀ bytes, w.tree.read w.cwd (plain a.snapshot) = .ok bytes →
        (∀ f, Utf8.decode bytes = .error f → (run w args).ending = .uncaught (.encoding f)) ∧
        ∀ cs e, Utf8.decode bytes = .ok cs → Json.read w.nesting (unixLines cs) = .error (.excess e) →
          (run w args).ending = .uncaught (.excess e)) ∧
      ∀ l t bytes f, Loads w a (.ok l) → format = .html →
        (settings w.env a.choices).htmlTemplate = some t → t ≠ "" →
        w.tree.read w.cwd (plain t) = .ok bytes → Utf8.decode bytes = .error f →
          (run w args).ending = .uncaught (.encoding f) := by
  refine ⟨?_, fun a y e hargs hy hout hfault => ?_, ?_⟩
  · unfold run
    cases hargs : parse w.dashes args with
    | refused program message => exact .inr (.inl rfl)
    | shown text => exact .inl rfl
    | noCommand => exact .inr (.inl rfl)
    | run a =>
      dsimp only
      have hends := runArguments_exitsUnless hrender a
      cases hend : (runArguments w a).ending with
      | exit code =>
        rw [hend] at hends
        exact hends
      | uncaught u =>
        rw [hend] at hends
        exact ⟨a, rfl, hends⟩
  · rw [(run_eq (w := w) hargs).2.2]
    exact hy.ending_of_stdoutFault hout hfault
  · intro a format warnings hargs hgood
    obtain ⟨-, -, hrun⟩ := run_eq (w := w) hargs
    refine ⟨fun bytes hread => ⟨fun f hdecode => ?_, fun cs e hdecode hexcess => ?_⟩,
      fun l t bytes f hl hformat ht hne hread hdecode => ?_⟩
    · have hdoc : readDocument w.nesting w.tree w.cwd a.snapshot = .error (.encoding f) := by
        unfold readDocument
        dsimp only
        rw [readText_of_undecodable hread hdecode]
      obtain ⟨st, hend⟩ := hgood.ending_of_unread hdoc
      rw [hrun, hend]
      rfl
    · have hdoc : readDocument w.nesting w.tree w.cwd a.snapshot = .error (.excess e) := by
        unfold readDocument
        dsimp only
        rw [readText_of_decodable hread hdecode]
        dsimp only
        rw [hexcess]
      obtain ⟨st, hend⟩ := hgood.ending_of_unread hdoc
      rw [hrun, hend]
      rfl
    · subst hformat
      obtain ⟨st, hend⟩ := hgood.ending_of_pageError hl fun parts =>
        page_html_of_unread parts ht hne (readText_of_undecodable hread hdecode)
      rw [hrun, hend]
      rfl

/-- A snapshot of one byte, which starts no character. -/
def oneByte : World where
  toHost := Host.plain
  tree := { entries := [([[.char 's']], .file [0xFF])] }
  env := []
  cwd := "/"
  clock := []
  stdoutIsTerminal := false

def summarizeOneByte : Arguments := ⟨0, .summary, "s", {}⟩

theorem run_exits_unless_oneByte :
    parse oneByte.dashes ["summary", "s"] = .run summarizeOneByte ∧ Page.Html.ShowsLiterals oneByte.render ∧
      GoodSettings oneByte summarizeOneByte .json [.noBaseDir] ∧
      (run oneByte ["summary", "s"]).ending = .uncaught (.encoding ⟨0, 1, 0xFF, .invalidStart⟩) := by
  have hargs : parse oneByte.dashes ["summary", "s"] = .run summarizeOneByte := by decide +kernel
  have hrender : Page.Html.ShowsLiterals oneByte.render := fun _ _ _ => rfl
  have hgood : GoodSettings oneByte summarizeOneByte .json [.noBaseDir] := ⟨rfl, List.not_mem_nil, ⟨_, rfl⟩⟩
  have hread : oneByte.tree.read oneByte.cwd (plain "s") = .ok [0xFF] := by decide +kernel
  have hends := (run_exits_unless oneByte hrender ["summary", "s"]).2.2 _ _ _ hargs hgood
  exact ⟨hargs, hrender, hgood, (hends.1 _ hread).1 _ (by decide +kernel)⟩

/-- No exit code tells of bytes that are not UTF-8. -/
theorem uncaught_oneByte : ¬ (run oneByte ["summary", "s"]).ending.ExitsUnless fun _ => False := by
  have hend : (run oneByte ["summary", "s"]).ending = .uncaught (.encoding ⟨0, 1, 0xFF, .invalidStart⟩) := by rfl
  rw [hend]
  exact fun h => h

end Blame.Command
