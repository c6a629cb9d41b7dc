import Blame.Log
import Blame.Path.Glob
import Blame.Path.Normal

/-!
# Which files belong to the project

A file belongs to the project if it is no system header, matches no glob of generated files and, where
base directories are given, lies under one of them. A classifier answers that question file by file,
unless there is no answer, and may remember what it was asked.
-/

namespace Blame

/-- Why there is no answer about a file: its path starts with a user's name that the system cannot be asked for, since it
holds a zero character or has no bytes, or a glob is missing that would have to be tried. -/
inductive Unclassifiable where
  | zeroCharacter
  | unencodable (e : Text.Utf8.Unencodable)
  | noGlob
  deriving DecidableEq, Repr

namespace Unclassifiable

def ofName : Path.NameFault → Unclassifiable
  | .zeroCharacter => zeroCharacter
  | .unencodable e => unencodable e

def message : Unclassifiable → Text
  | zeroCharacter => Path.NameFault.zeroCharacter.message
  | unencodable e => e.message
  | noGlob => "expected str, bytes or os.PathLike object, not list"

end Unclassifiable

/-- The answer to a question about one file, with what there is to log and to remember. -/
structure Answer (σ : Type) where
  accepted : Bool
  memory : σ
  log : List LogLine

/-- Decides whether a file belongs to the project; `σ` is what it remembers between two questions. -/
structure Classifier (σ : Type) where
  ask : σ → Text → Except Unclassifiable (Answer σ)

/-- The classifier that follows a predicate and remembers nothing. -/
def Classifier.ofPred (p : Text → Bool) : Classifier Unit :=
  ⟨fun _ file => .ok ⟨p file, (), []⟩⟩

/-- Where the headers of the system lie. -/
def systemHeaderDirs : List Text :=
  ["/usr/include", "/usr/lib", "/usr/local/include", "/opt/homebrew/include", "/Library/Developer"]

/-- The rules that tell project files from others; the directories are normal paths, and a glob may be
missing. -/
structure FileRules where
  context : Path.Context
  baseDirs : List Text
  systemDirs : List Text
  generatedGlobs : List (Option Text)
  deriving DecidableEq, Repr

/-- What the rules find about a file. -/
inductive Finding where
  | noName
  | systemHeader
  | generated
  | elsewhere
  | project
  deriving DecidableEq, Repr

/-- The answers given so far, the latest first. -/
abbrev VerdictCache := List (Text × Bool)

namespace FileRules

/-- The normal form of a path under the rules. -/
def normal (context : Path.Context) (p : Text) : Except Unclassifiable Text :=
  (Path.normalise context p).mapError .ofName

/-- The rules for directories as a user writes them. -/
def make (context : Path.Context) (baseDirs systemDirs : List Text)
    (generatedGlobs : List (Option Text)) : Except Unclassifiable FileRules := do
  let baseDirs ← baseDirs.mapM (normal context)
  let systemDirs ← systemDirs.mapM (normal context)
  return { context, baseDirs, systemDirs, generatedGlobs }

/-- Whether a file lies under a directory of system headers. -/
def isSystemHeader (r : FileRules) (file : Text) : Except Unclassifiable Bool :=
  (normal r.context file).map fun p => r.systemDirs.any (Path.isUnder p)

/-- Whether a glob matches the path as given or its last component. -/
def globFits (file glob : Text) : Bool :=
  Path.Glob.fits glob file.toList || Path.Glob.fits glob (Path.baseName file.toList)

/-- Whether one of the globs matches a path. They are tried in order, and a missing one has no answer. -/
def anyGlobFits (file : Text) : List (Option Text) → Except Unclassifiable Bool
  | [] => .ok false
  | none :: _ => .error .noGlob
  | some glob :: rest => if globFits file glob then .ok true else anyGlobFits file rest

/-- Whether a file matches a glob of generated files. -/
def isGenerated (r : FileRules) (file : Text) : Except Unclassifiable Bool :=
  anyGlobFits file r.generatedGlobs

/-- Whether a file lies under a base directory; without base directories every file does. -/
def isInBase (r : FileRules) (file : Text) : Except Unclassifiable Bool :=
  if r.baseDirs.isEmpty then .ok true
  else (normal r.context file).map fun p => r.baseDirs.any (Path.isUnder p)

/-- Applies the rules in order. -/
def find (r : FileRules) (file : Text) : Except Unclassifiable Finding := do
  if file.isEmpty then return .noName
  if ← r.isSystemHeader file then return .systemHeader
  if ← r.isGenerated file then return .generated
  return if ← r.isInBase file then .project else .elsewhere

/-- Whether a file belongs to the project. -/
def accepts (r : FileRules) (file : Text) : Except Unclassifiable Bool :=
  (r.find file).map (· == .project)

/-- What there is to say about a finding. -/
def findingLog (file : Text) : Finding → List LogLine
  | .systemHeader => [⟨.debug, .files, ("Rejecting system header " ++ file)⟩]
  | .generated => [⟨.debug, .files, ("Rejecting generated file " ++ file)⟩]
  | _ => []

/-- The classifier that follows the rules and looks at each file once. A file without a name is refused
and not remembered, and neither is one without an answer. -/
def classifier (r : FileRules) : Classifier VerdictCache where
  ask cache file :=
    if file.isEmpty then .ok ⟨false, cache, []⟩
    else
      match cache.lookup file with
      | some accepted => .ok ⟨accepted, cache, []⟩
      | none => (r.find file).map fun finding =>
        let accepted := finding == .project
        ⟨accepted, (file, accepted) :: cache, findingLog file finding⟩

end FileRules

end Blame
