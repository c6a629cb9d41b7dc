import Blame.Command.Arguments
import Blame.Index.Audit
import Blame.Page.Html
import Blame.Snapshot.File

/-!
# Running a command

A run takes the world as it finds it, the files, the environment, the clock and the kind of terminal, and
gives the files it leaves, what it wrote to standard output, what it logged, and how it ended. A page is
complete before anything is written. What a run can come to is limited by the world that it is given: no other program
is at work in it, a file takes all that is written to it, and so does standard output unless it has no bytes for the
text.
-/

namespace Blame.Command

open Number Text

/-- What a run is given by the system and by the libraries that the program was built with: the home directories of
users, how deep a document may be, how many directories can be made for one file, what two dashes mean as a value, how
texts are made to look, how custom templates are filled in, and why standard output has no bytes for a text. -/
structure Host where
  users : Path.Users
  nesting : Nat
  directories : Nat
  dashes : Dashes
  painter : Environment → Bool → Page.Painter
  render : Page.Html.Renderer
  stdoutFault? : Text → Option Utf8.Unencodable

/-- A host without users' homes where standard output takes UTF-8 and templates are literal. -/
def Host.plain : Host where
  users := {}
  nesting := 988
  directories := 979
  dashes := .nothing
  painter := Page.terminalPainter
  render template _ := .ok (Page.Html.literalPage template)
  stdoutFault? text :=
    match Utf8.encode text with
    | .error e => some e
    | .ok _ => none

/-- What a run finds. -/
structure World extends Host where
  tree : FileTree
  env : Environment
  cwd : Text
  clock : Clock Double
  stdoutIsTerminal : Bool

def World.context (w : World) : Path.Context := ⟨w.cwd, w.env.get? "HOME", w.users⟩

/-- A choice that cannot do without a value. -/
inductive Needed where
  | baseDir
  | output
  | limit
  deriving DecidableEq, Repr

/-- What is said when nothing was given for a choice. -/
def Needed.message : Needed → Text
  | baseDir => "stat: path should be string, bytes, os.PathLike or integer, not list"
  | output => "expected str, bytes or os.PathLike object, not list"
  | limit => "slice indices must be integers or None or have an __index__ method"

/-- A failure that no part of the run is prepared for. -/
inductive Uncaught where
  | inconsistent (i : Inconsistency)
  | unhashable (u : Unhashable)
  | unclassifiable (u : Unclassifiable)
  | encoding (e : Utf8.Fault)
  | unencodable (e : Utf8.Unencodable)
  | excess (e : Json.Excess)
  | longCount (c : CountTooLong)
  | file (e : FileError)
  | template (message : Text)
  | noValue (choice : Needed)
  | noHome

def Uncaught.message : Uncaught → Text
  | inconsistent i => i.message
  | unhashable u => u.message
  | unclassifiable u => u.message
  | encoding e => e.message
  | unencodable e => e.message
  | excess e => e.message
  | longCount c => c.message
  | file e => e.message
  | template message => message
  | noValue choice => choice.message
  | noHome => "Could not determine home directory."

/-- How a run ended. -/
inductive Ending where
  | exit (code : Nat)
  | uncaught (what : Uncaught)

/-- The exit code, if the run got as far as that. -/
def Ending.code? : Ending → Option Nat
  | exit code => some code
  | uncaught _ => none

theorem Ending.eq_exit {e : Ending} {code : Nat} (h : e.code? = some code) : e = .exit code := by
  cases e with
  | exit _ => exact congrArg exit (Option.some.inj h)
  | uncaught _ => cases h

def success : Ending := .exit 0
def unusable : Ending := .exit 2
def contradictory : Ending := .exit 3

/-- What a run has done so far. -/
structure State where
  tree : FileTree
  stdout : Text := ""
  log : List LogLine := []

def State.say (s : State) (lines : List LogLine) : State := { s with log := s.log ++ lines }

def commandLine (level : Level) (text : Text) : LogLine := ⟨level, .command, text⟩

/-- Says why the run ends. -/
def State.complain (s : State) (text : Text) : State := s.say [commandLine .error text]

/-- A finished run. -/
structure Finished where
  state : State
  ending : Ending

/-- Ends a run where nobody is prepared for what happened. -/
def State.giveUp (s : State) (what : Uncaught) : Finished := ⟨s, .uncaught what⟩

/-- Ends a run at a failed file operation: a refusal is told, for the other failures nobody is prepared. -/
def State.endAtFile (s : State) (task : Text) (e : FileError) : Finished :=
  match e with
  | .refused _ _ => ⟨s.complain (task ++ ": " ++ e.message), unusable⟩
  | .unencodable e => s.giveUp (.unencodable e)
  | .zeroCharacter | .tooDeep => s.giveUp (.file e)

/-- The settings of the environment with those of the command line on top. -/
def settings (env : Environment) (c : Choices) : Settings :=
  let s := Settings.ofEnvironment env
  let given : Option Text → Option Text := Option.filter fun t => !t.isEmpty
  { s with
    baseDirs := if c.baseDirs.isEmpty then s.baseDirs else c.baseDirs.filterMap Given.toOption
    generatedGlobs :=
      if c.generatedGlobs.isEmpty then s.generatedGlobs else c.generatedGlobs.map Given.toOption
    format := (c.format.map Format.name).getD s.format
    colour := c.colour.or s.colour
    htmlTemplate := (given c.htmlTemplate).or s.htmlTemplate
    macroOut := given c.macroOut
    strict := c.strict }

/-- What was loaded from a snapshot file. -/
structure LoadedFile where
  index : Index
  document : Snapshot.Document

/-- Loads a snapshot file into an empty index; the log is there in either case. -/
def loadFile (w : World) (rules : FileRules) (p : Text) :
    List LogLine × Except Snapshot.Failure LoadedFile :=
  match Snapshot.readDocument w.nesting w.tree w.cwd p with
  | .error e => ([], .error e.failure)
  | .ok members =>
    let document := Snapshot.Document.ofMembers members
    let loaded := Snapshot.load rules.classifier [] {} document
    match loaded.error with
    | some e => (loaded.progress.log, .error e.failure)
    | none => (loaded.progress.log, .ok ⟨loaded.progress.index, document⟩)

/-- What a failed load means for the run. -/
def endOfLoad (st : State) : Snapshot.Failure → Finished
  | .file e => st.endAtFile "Cannot load snapshot" e
  | .complaint c => ⟨st.complain ("Cannot load snapshot: " ++ c.message), unusable⟩
  | .inconsistent i => ⟨st.complain ("Inconsistent snapshot: " ++ i.message), contradictory⟩
  | .unhashable u => st.giveUp (.unhashable u)
  | .unclassifiable u => st.giveUp (.unclassifiable u)
  | .encoding e => st.giveUp (.encoding e)
  | .excess e => st.giveUp (.excess e)

def Verb.showsSummary (v : Verb) : Bool := v == .summary || v == .everything
def Verb.showsReport (v : Verb) : Bool := v == .report || v == .everything
def Verb.showsCauses (v : Verb) : Bool := v == .causes || v == .everything

/-- What a run computes: the report, if it is needed, and the parts of its page. -/
structure Findings where
  report : Option RootReport
  parts : Page.Parts
  log : List LogLine

/-- Computes what a verb shows. The report is needed also for the list of macro locations. -/
def findings (ix : Index) (v : Verb) (wantsMacros : Bool) : Except Inconsistency Findings := do
  let summary := if v.showsSummary then some ix.summary else none
  let report := if v.showsReport || wantsMacros then some (ix.rootReport ix.nameOf) else none
  let causes ← if v.showsCauses then (ix.causeMap ix.nameOf).map some else pure none
  return {
    report
    parts := { summary, report := if v.showsReport then report else none, causes }
    log := (summary.map Summary.log).getD [] ++ (report.map RootReport.log).getD [] }

/-- Why there is no page: its template cannot be read or filled in, or nothing was given for the limit of its report. -/
inductive PageError where
  | template (e : Snapshot.TextError)
  | rendering (e : Page.Html.TemplateFault)
  | noLimit

/-- The page of the template in a file. -/
def customPage (w : World) (tree : FileTree) (p : Text) (parts : Page.Parts) : Except PageError Text :=
  match Snapshot.readText tree w.cwd (Path.plain p) with
  | .error e => .error (.template e)
  | .ok template => (w.render template parts).mapError .rendering

/-- The HTML page. A template that is asked for comes first, then one the environment names if it is a
file, then the page of the library. -/
def htmlPage (w : World) (tree : FileTree) (template : Option Text) (parts : Page.Parts) : Except PageError Text :=
  match template.filter fun t => !t.isEmpty with
  | some t => customPage w tree t parts
  | none =>
    match w.env.nonEmpty? "WILDRC_HTML_TEMPLATE" with
    | some t =>
      match tree.findsFile w.cwd (Path.plain t) with
      | .error e => .error (.template (.file e))
      | .ok true => customPage w tree t parts
      | .ok false => .ok (Page.Html.text parts)
    | none => .ok (Page.Html.text parts)

/-- The page as plain or coloured text. Only a report is cut at the limit. -/
def textPage (w : World) (s : Settings) (c : Choices) (parts : Page.Parts) : Except PageError Text :=
  if parts.report.isSome && c.limit == some .nothing then .error .noLimit
  else
    let toStdout := c.output.isNone || c.output == some (.value "-")
    let painted := s.colour.getD (toStdout && w.stdoutIsTerminal)
    .ok (Page.linesText (if painted then some (w.painter w.env w.stdoutIsTerminal) else none)
      (parts.lines (c.limit.bind Given.toOption)))

/-- The page of a run in its format. -/
def page (w : World) (tree : FileTree) (s : Settings) (format : Format) (c : Choices)
    (parts : Page.Parts) : Except PageError Text :=
  match format with
  | .json => .ok (parts.json (.indented 2) ++ "\n")
  | .html => htmlPage w tree s.htmlTemplate parts
  | .text => textPage w s c parts

/-- Why an output could not be written. -/
inductive OutputError where
  | file (e : FileError)
  | stdout (e : Utf8.Unencodable)
  | longCount (c : CountTooLong)
  | noFile
  | noHome

def OutputError.ofWay : Path.WayFault → OutputError
  | .name f => file (.ofName f)
  | .noHome => noHome

/-- Writes a text into the file that a path of the command line names. -/
def emitFile (w : World) (st : State) (p text : Text) : State × Option OutputError :=
  match Path.target w.context p with
  | .error f => (st, some (.ofWay f))
  | .ok path =>
    let (tree, e) := st.tree.writeText w.cwd w.directories path text
    ({ st with tree }, e.map .file)

/-- Writes a text to standard output, as a whole or not at all. -/
def emitStdout (w : World) (st : State) (text : Text) : State × Option OutputError :=
  match w.stdoutFault? text with
  | some e => (st, some (.stdout e))
  | none => ({ st with stdout := st.stdout ++ text }, none)

/-- Something to be written: it goes to standard output or into a file. -/
def emit (w : World) (st : State) (dest : Option (Given Text)) (text : Text) :
    State × Option OutputError :=
  match dest with
  | none | some (.value "-") => emitStdout w st text
  | some .nothing => (st, some .noFile)
  | some (.value p) => emitFile w st p text

/-- Writes records as a JSON list into a file and says so. -/
def dump (w : World) (st : State) (records : List Json) (p : Text) : State × Option OutputError :=
  let path := Path.plain p
  let (tree, e) := st.tree.writeText w.cwd w.directories path ((Json.list records).write (.indented 2))
  match e with
  | some e => ({ st with tree }, some (.file e))
  | none =>
    ({ st with tree }.say [⟨.info, .tables, ("Wrote " ++ natText records.length ++ " records to " ++ path)⟩], none)

/-- An output of a run. -/
abbrev Output := State → State × Option OutputError

/-- Writes outputs in turn, up to the first that fails. -/
def emitAll : List Output → State → State × Option OutputError
  | [], st => (st, none)
  | o :: rest, st =>
    match o st with
    | (st, none) => emitAll rest st
    | (st, some e) => (st, some e)

/-- A table that is written if a file is named for it. -/
def optionalDump (w : World) (records : List Json) (p : Option Text) : List Output :=
  match p.filter fun t => !t.isEmpty with
  | some t => [fun st => dump w st records t]
  | none => []

/-- The places of macro roots as records. -/
def macroRecords (report : Option RootReport) : List Json :=
  ((report.map RootReport.macroLocations).getD []).map fun l => .obj l.toMembers

/-- The statistics of the run, which end with its total time. -/
def runStats (w : World) (d : Snapshot.Document) : RunStats Double :=
  let session : Session Double := ⟨.initial, w.clock⟩
  let session := session.start .total
  let session := { session with stats := d.count session.stats }
  match session.stop .total with
  | .ok (session, _) => session.stats
  | .error _ => session.stats

/-- Writes statistics. If one of the counts is too long, their file is made and stays empty. -/
def emitStats (w : World) (stats : RunStats Double) (dest : Text) (st : State) :
    State × Option OutputError :=
  match stats.text ((Text.toList ".json").isSuffixOf dest.toList) with
  | .ok text => emit w st (some (.value dest)) text
  | .error c =>
    match emit w st (some (.value dest)) "" with
    | (st, some e) => (st, some e)
    | (st, none) => (st, some (.longCount c))

/-- All outputs of a run in their order: the page, the side tables, the statistics. -/
def outputs (w : World) (s : Settings) (c : Choices) (text : Text) (f : Findings)
    (d : Snapshot.Document) : List Output :=
  [fun st => emit w st c.output text]
    ++ optionalDump w (macroRecords f.report) s.macroOut
    ++ optionalDump w d.castTable.toJson c.castOut
    ++ optionalDump w d.voidTable.toJson c.voidOut
    ++ (match c.perfStats.filter fun t => !t.isEmpty with
      | some t => [emitStats w (runStats w d) t]
      | none => [])

/-- Shows a loaded snapshot. -/
def present (w : World) (s : Settings) (format : Format) (a : Arguments) (l : LoadedFile) (st : State) :
    Finished :=
  match findings l.index a.verb s.macroOut.isSome with
  | .error i => st.giveUp (.inconsistent i)
  | .ok f =>
    let st := st.say f.log
    match page w st.tree s format a.choices f.parts with
    | .error (.template (.file e)) => st.endAtFile "Cannot read HTML template" e
    | .error (.template (.encoding e)) => st.giveUp (.encoding e)
    | .error (.rendering (.refused message)) =>
      ⟨st.complain ("Cannot read HTML template: " ++ message), unusable⟩
    | .error (.rendering (.failed message)) => st.giveUp (.template message)
    | .error .noLimit => st.giveUp (.noValue .limit)
    | .ok text =>
      match emitAll (outputs w s a.choices text f l.document) st with
      | (st, none) => ⟨st, success⟩
      | (st, some (.file e)) => st.endAtFile "Cannot write output" e
      | (st, some (.stdout e)) => st.giveUp (.unencodable e)
      | (st, some (.longCount c)) => st.giveUp (.longCount c)
      | (st, some .noFile) => st.giveUp (.noValue .output)
      | (st, some .noHome) => st.giveUp .noHome

/-- Loads the snapshot of a command under file rules and shows it. -/
def runUnder (w : World) (s : Settings) (format : Format) (rules : FileRules) (a : Arguments)
    (st : State) : Finished :=
  let (log, loaded) := loadFile w rules a.snapshot
  let st := st.say log
  match loaded with
  | .error f => endOfLoad st f
  | .ok l =>
    let violations := if s.strict then l.index.violations else []
    if violations.isEmpty then present w s format a l st
    else
      ⟨st.say (violations.map fun x => commandLine .error ("Invariant violated: " ++ x.message)),
        contradictory⟩

/-- Runs a command. The settings are looked at before the file rules are made of them, and both before
the snapshot is read. -/
def runArguments (w : World) (a : Arguments) : Finished :=
  let st : State := { tree := w.tree }
  let s := settings w.env a.choices
  match s.validate w.tree w.cwd with
  | .error e => ⟨st.complain e.message, unusable⟩
  | .ok (format, warnings) =>
    if a.choices.baseDirs.contains .nothing then st.giveUp (.noValue .baseDir)
    else
      let st := st.say (warnings.map fun x => commandLine .warning ("ReportConfig: " ++ x.message))
      match s.rules w.context with
      | .error u => st.giveUp (.unclassifiable u)
      | .ok rules => runUnder w s format rules a st

/-- The least level that is logged at a verbosity. -/
def leastLevel (verbosity : Nat) : Level :=
  match verbosity with
  | 0 => .warning
  | 1 => .info
  | _ => .debug

/-- A log line as it is written to the terminal, without the time. -/
def logText (l : LogLine) : Text :=
  ("[" ++ Page.padRight 5 (Text.ofList (l.level.name.toList.take 5)) ++ "] " ++ l.topic.name ++ ": " ++ l.text)

/-- What a whole run gives: the files, the two outputs, and how it ended. -/
structure Outcome where
  tree : FileTree
  stdout : Text
  stderr : List Text
  ending : Ending

/-- Runs a command line. -/
def run (w : World) (args : List Text) : Outcome :=
  match parse w.dashes args with
  | .refused program message =>
    { tree := w.tree, stdout := "", stderr := [(program ++ ": error: " ++ message)], ending := unusable }
  | .shown text => { tree := w.tree, stdout := text, stderr := [], ending := success }
  | .noCommand => { tree := w.tree, stdout := "", stderr := [], ending := unusable }
  | .run a =>
    let r := runArguments w a
    { tree := r.state.tree
      stdout := r.state.stdout
      stderr := (logFrom (leastLevel a.verbosity) r.state.log).map logText
      ending := r.ending }

end Blame.Command
