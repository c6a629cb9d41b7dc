import Blame.FileRules
import Blame.FileTree
import Blame.Text.Blank
import Blame.Text.LowerCase

/-!
# Report settings

What to classify by and how to show the result. Settings come from defaults, then from environment
variables, then from the command line.
-/

namespace Blame

open Text

/-- Environment variables with their values. -/
abbrev Environment := List (Text × Text)

namespace Environment

def get? (env : Environment) (name : Text) : Option Text := env.lookup name

/-- The value of a variable that is set and not empty. -/
def nonEmpty? (env : Environment) (name : Text) : Option Text :=
  (env.get? name).filter fun s => !s.isEmpty

end Environment

/-- The formats a report can be written in. -/
inductive Format where
  | json
  | text
  | html
  deriving DecidableEq, Repr

namespace Format

def all : List Format := [json, text, html]

def name : Format → Text
  | json => "json"
  | text => "text"
  | html => "html"

def ofName? (s : Text) : Option Format := all.find? (·.name == s)

end Format

/-- The settings of a run; the format is a name that need not mean one, and a glob may be missing. -/
structure Settings where
  baseDirs : List Text := []
  systemDirs : List Text := systemHeaderDirs
  generatedGlobs : List (Option Text) := []
  format : Text := "json"
  colour : Option Bool := none
  htmlTemplate : Option Text := none
  macroOut : Option Text := none
  strict : Bool := false
  deriving DecidableEq, Repr

/-- A format that nobody knows. -/
structure UnknownFormat where
  name : Text
  deriving DecidableEq, Repr

def UnknownFormat.message (e : UnknownFormat) : Text :=
  ("unknown output format " ++ quoted e.name ++ " (expected one of ")
    ++ Text.intercalate ", " (Format.all.map Format.name) ++ ")"

/-- A setting that may not be meant. -/
inductive SettingWarning where
  | missingBaseDir (dir : Text)
  | noBaseDir
  | missingTemplate (file : Text)
  deriving DecidableEq, Repr

def SettingWarning.message : SettingWarning → Text
  | missingBaseDir d => ("base directory does not exist: " ++ d)
  | noBaseDir => "no base directory given; every non-system file counts as in-source"
  | missingTemplate f => ("HTML template not found: " ++ f)

namespace Settings

/-- The parts of a list variable, which colons separate; empty ones are left out. -/
def splitList (s : Text) : List Text :=
  ((splitChar (.char ':') s.toList).filter fun p => !p.isEmpty).map Text.ofList

/-- The settings that an environment asks for. -/
def ofEnvironment (env : Environment) : Settings where
  baseDirs := ((env.nonEmpty? "WILDRC_BASE_DIRS").map splitList).getD []
  generatedGlobs := ((env.nonEmpty? "WILDRC_GENERATED").map splitList).getD [] |>.map some
  format := ((env.nonEmpty? "WILDRC_FORMAT").map fun s => lower (strip s)).getD "json"
  htmlTemplate := env.nonEmpty? "WILDRC_HTML_TEMPLATE"
  colour := (env.nonEmpty? "WILDRC_NO_COLOR").map fun _ => false

/-- The warnings about settings that may not be meant. -/
def warnings (s : Settings) (tree : FileTree) (cwd : Text) : List SettingWarning :=
  ((s.baseDirs.filter fun d => !tree.isDir cwd d).map .missingBaseDir)
    ++ (if s.baseDirs.isEmpty then [.noBaseDir] else [])
    ++ (match s.htmlTemplate with
      | some f => if !f.isEmpty && !tree.isFile cwd f then [.missingTemplate f] else []
      | none => [])

/-- The format, and the warnings about the other settings. -/
def validate (s : Settings) (tree : FileTree) (cwd : Text) :
    Except UnknownFormat (Format × List SettingWarning) :=
  match Format.ofName? s.format with
  | some f => .ok (f, s.warnings tree cwd)
  | none => .error ⟨s.format⟩

/-- The rules by which files are classified. -/
def rules (s : Settings) (context : Path.Context) : Except Unclassifiable FileRules :=
  FileRules.make context s.baseDirs s.systemDirs s.generatedGlobs

end Settings

end Blame
