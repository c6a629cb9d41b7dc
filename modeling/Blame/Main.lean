import Blame.Command.Run

/-!
# The program

Looks at the files, the environment and the terminal, lets the library run the command line, and writes
down what comes of it.
-/

namespace Blame.Main

open Command

/-- A text as it can be shown anywhere: a half of a surrogate pair is written as an escape. -/
def nativeText (s : Text) : String :=
  String.ofList (s.toList.flatMap fun
    | .char c => [c]
    | .half n => "\\u".toList ++ Nat.toDigits 16 (CodePoint.half n).toNat)

/-- The environment variables that a run may read. -/
def variableNames : List String :=
  ["HOME", "WILDRC_BASE_DIRS", "WILDRC_GENERATED", "WILDRC_FORMAT", "WILDRC_HTML_TEMPLATE",
    "WILDRC_NO_COLOR", "ANSI_COLORS_DISABLED", "NO_COLOR", "FORCE_COLOR", "TERM"]

def readEnvironment : IO Environment :=
  variableNames.filterMapM fun name => do
    return (← IO.getEnv name).map fun value => (Text.ofString name, Text.ofString value)

/-- The lines of a file, none if it cannot be read, each cut at a separator. -/
def readFields (file : String) (separator : String) : IO (List (List String)) := do
  try
    return (← IO.FS.lines file).toList.map (·.splitOn separator)
  catch _ => return []

/-- The home directories of the users of this machine. -/
def readUsers : IO Path.Users := do
  let accounts ← readFields "/etc/passwd" ":"
  let status ← readFields "/proc/self/status" "\t"
  let id? := status.findSome? fun
    | "Uid:" :: id :: _ => some id
    | _ => none
  let homes := accounts.filterMap fun
    | name :: _ :: id :: _ :: _ :: home :: _ => some (name, id, Text.ofString home)
    | _ => none
  return {
    own := (homes.find? fun (_, id, _) => some id == id?).map fun (_, _, home) => home
    named := homes.map fun (name, _, home) => (name.toUTF8.toList, home) }

/-- The paths that a run may look at. -/
def pathsOf (users : Path.Users) (env : Environment) (cwd : Text) (a : Arguments) : List Text :=
  let s := settings env a.choices
  let outputs := [a.choices.output.bind Given.toOption, s.macroOut, a.choices.castOut,
    a.choices.voidOut, a.choices.perfStats].filterMap id
  [cwd, a.snapshot] ++ s.baseDirs ++ s.htmlTemplate.toList
    ++ (env.nonEmpty? "WILDRC_HTML_TEMPLATE").toList ++ outputs
    ++ outputs.filterMap fun p => (Path.target ⟨cwd, env.get? "HOME", users⟩ p).toOption

/-- The places that a path leads through. -/
def placesOf (cwd path : Text) : List Place :=
  let start : Place :=
    if Path.isAbsolute path.toList then [] else Path.components cwd.toList
  ((Path.components path.toList).foldl (fun (here, places) c =>
    let next := if c = [.char '.', .char '.'] then here.dropLast else here ++ [c]
    (next, places ++ [next])) (start, [])).2

def placePath (p : Place) : String := nativeText (Text.ofList (.char '/' :: Text.joinChar (.char '/') p))

/-- Adds what stands at a place, if there is anything. -/
def observe (t : FileTree) (p : Place) : IO FileTree := do
  try
    let path ← IO.FS.realPath (placePath p)
    if ← path.isDir then return t.put p .dir
    if !(← path.pathExists) then return t
    return t.put p (.file (← IO.FS.readBinFile path).toList)
  catch
    | .permissionDenied .. => return { t.put p (.file []) with denied := (p, .read) :: t.denied }
    | _ => return t

/-- The files and directories that a run may look at. -/
def observeAll (users : Path.Users) (env : Environment) (cwd : Text) (a : Arguments) : IO FileTree :=
  ((pathsOf users env cwd a).flatMap (placesOf cwd)).eraseDups.foldlM observe {}

/-- Writes down the entries that are new or have changed, directories first. -/
def writeChanges (before after : FileTree) : IO Unit := do
  let changed := after.entries.filter fun (p, e) => before.get? p != some e
  for (p, e) in changed do
    if e == .dir then IO.FS.createDirAll (placePath p)
  for (p, e) in changed do
    if let .file bytes := e then IO.FS.writeBinFile (placePath p) ⟨bytes.toArray⟩

/-- The time since some fixed point, in seconds. -/
def readClock : IO Number.Double := do
  return .ofRat false (mkRat ((← IO.monoNanosNow) : Int) 1000000000)

/-- Runs a command line in a world; if the run is to be timed, it is repeated with the readings of the
clock before and after. -/
def runTimed (w : World) (args : List Text) (timed : Bool) : IO Outcome := do
  let began ← readClock
  let outcome ← IO.lazyPure fun _ => run w args
  if !timed then return outcome
  let now ← readClock
  return run { w with clock := [began, now] } args

/-- Writes the outcome of a run; the answer is the exit code. -/
def finish (before : FileTree) (o : Outcome) : IO UInt32 := do
  for line in o.stderr do
    IO.eprintln (nativeText line)
  (← IO.getStdout).putStr (nativeText o.stdout)
  writeChanges before o.tree
  match o.ending with
  | .exit code => return UInt32.ofNat code
  | .uncaught what =>
    IO.eprintln (nativeText what.message)
    return 1

end Blame.Main

def main (args : List String) : IO UInt32 := do
  let args := args.map Blame.Text.ofString
  let host : Blame.Command.Host := { Blame.Command.Host.plain with users := ← Blame.Main.readUsers }
  let env ← Blame.Main.readEnvironment
  let cwd := Blame.Text.ofString (toString (← IO.currentDir))
  let stdoutIsTerminal ← (← IO.getStdout).isTty
  let (tree, timed) ← match Blame.Command.parse host.dashes args with
    | .run a => do
      pure (← Blame.Main.observeAll host.users env cwd a, a.choices.perfStats.isSome)
    | _ => pure ({}, false)
  let world : Blame.Command.World := { host with tree, env, cwd, clock := [], stdoutIsTerminal }
  Blame.Main.finish tree (← Blame.Main.runTimed world args timed)
