import Blame.Catalogue
import Blame.Command.Options
import Blame.Settings

/-!
# The command line

A run is asked for by a command, the snapshot it is about, and options. Options before the command are
about the program, those after it about the command.
-/

namespace Blame.Command

open Text

/-- What a run shows. -/
inductive Verb where
  | summary
  | report
  | causes
  | everything
  deriving DecidableEq, Repr

namespace Verb

def all : List Verb := [summary, report, causes, everything]

def name : Verb → Text
  | summary => "summary"
  | report => "report"
  | causes => "rcmap"
  | everything => "all"

def ofName? (s : Text) : Option Verb := all.find? (·.name == s)

end Verb

/-- What the options of a command ask for. An option without a value takes back what was chosen before,
unless the choice cannot do without one and keeps that nothing was given. -/
structure Choices where
  baseDirs : List (Given Text) := []
  generatedGlobs : List (Given Text) := []
  output : Option (Given Text) := none
  format : Option Format := none
  colour : Option Bool := none
  htmlTemplate : Option Text := none
  limit : Option (Given Int) := none
  macroOut : Option Text := none
  castOut : Option Text := none
  voidOut : Option Text := none
  perfStats : Option Text := none
  strict : Bool := false
  deriving DecidableEq, Repr

/-- A run as the command line asks for it. -/
structure Arguments where
  verbosity : Nat
  verb : Verb
  snapshot : Text
  choices : Choices
  deriving DecidableEq, Repr

/-- What a command line comes to. -/
inductive Parsed where
  | run (arguments : Arguments)
  | noCommand
  | shown (text : Text)
  | refused (program message : Text)
  deriving DecidableEq, Repr

/-- The message for a value that is not one of the given ones. -/
def invalidChoice (value : Text) (choices : List Text) : Text :=
  ("invalid choice: " ++ quoted value ++ " (choose from ") ++ Text.intercalate ", " (choices.map quoted) ++ ")"

/-- Chooses whether to colour; the opposite choice must not have been made. -/
def chooseColour (value : Bool) (opposite : Text) (c : Choices) : Except Text Choices :=
  if c.colour = some (!value) then .error ("not allowed with argument " ++ opposite)
  else .ok { c with colour := some value }

def chooseFormat (given : Given Text) (c : Choices) : Except Text Choices :=
  match given with
  | .nothing => .ok { c with format := none }
  | .value v =>
    match Format.ofName? v with
    | some f => .ok { c with format := some f }
    | none => .error (invalidChoice v (Format.all.map Format.name))

def chooseLimit (given : Given Text) (c : Choices) : Except Text Choices :=
  match given with
  | .nothing => .ok { c with limit := some .nothing }
  | .value v =>
    match readInt? v with
    | some n => .ok { c with limit := some (.value n) }
    | none => .error ("invalid int value: " ++ quoted v)

/-- The options of every command. -/
def commandOptions : List (Opt Choices) := [
  ⟨["-h", "--help"], .final ""⟩,
  ⟨["-b", "--base-dir"], .valued fun v c => .ok { c with baseDirs := c.baseDirs ++ [v] }⟩,
  ⟨["--generated"], .valued fun v c => .ok { c with generatedGlobs := c.generatedGlobs ++ [v] }⟩,
  ⟨["-o", "--output"], .valued fun v c => .ok { c with output := some v }⟩,
  ⟨["-f", "--format"], .valued chooseFormat⟩,
  ⟨["--color"], .flag (chooseColour true "--no-color")⟩,
  ⟨["--no-color"], .flag (chooseColour false "--color")⟩,
  ⟨["--html-template"], .valued fun v c => .ok { c with htmlTemplate := v.toOption }⟩,
  ⟨["--limit"], .valued chooseLimit⟩,
  ⟨["--macro-out"], .valued fun v c => .ok { c with macroOut := v.toOption }⟩,
  ⟨["--cast-out"], .valued fun v c => .ok { c with castOut := v.toOption }⟩,
  ⟨["--void-out"], .valued fun v c => .ok { c with voidOut := v.toOption }⟩,
  ⟨["--perf-stats"], .valued fun v c => .ok { c with perfStats := v.toOption }⟩,
  ⟨["--strict"], .flag fun c => .ok { c with strict := true }⟩]

/-- The options of the program, which count how much it is to say. -/
def programOptions : List (Opt Nat) := [
  ⟨["-h", "--help"], .final ""⟩,
  ⟨["--version"], .final (Catalogue.programName ++ " " ++ Catalogue.version ++ "\n")⟩,
  ⟨["-v", "--verbose"], .flag fun n => .ok (n + 1)⟩]

/-- The snapshot and the choices of a command, as far as they are read. -/
structure CommandState where
  taken : Taken Choices := ⟨{}, []⟩
  snapshot : Option Text := none

def CommandState.addExtra (s : CommandState) (text : Text) : CommandState :=
  { s with taken := { s.taken with extras := s.taken.extras ++ [text] } }

/-- Reads the arguments of a command. The first word is the snapshot, and `--` next to it goes with it. -/
def readCommand (dashes : Dashes) (s : CommandState) : List (Token Choices) → Except Stop CommandState
  | [] => .ok s
  | .option _ m :: rest =>
    match takeOption dashes commandOptions s.taken m rest.head? with
    | .error e => .error e
    | .ok (taken, tookNext) =>
      match tookNext, rest with
      | true, _ :: rest => readCommand dashes { s with taken } rest
      | _, rest => readCommand dashes { s with taken } rest
  | .unknown text :: rest => readCommand dashes (s.addExtra text) rest
  | .dashes :: .word text :: rest =>
    match s.snapshot with
    | none => readCommand dashes { s with snapshot := some text } rest
    | some _ => readCommand dashes ((s.addExtra "--").addExtra text) rest
  | .dashes :: rest => readCommand dashes (s.addExtra "--") rest
  | .word text :: .dashes :: rest =>
    match s.snapshot with
    | none => readCommand dashes { s with snapshot := some text } rest
    | some _ => readCommand dashes ((s.addExtra text).addExtra "--") rest
  | .word text :: rest =>
    match s.snapshot with
    | none => readCommand dashes { s with snapshot := some text } rest
    | some _ => readCommand dashes (s.addExtra text) rest

/-- Reads what stands after a command: its snapshot, the choices, and the arguments nothing was made of. -/
def parseCommand (dashes : Dashes) (args : List Text) : Except Stop (Text × Choices × List Text) :=
  match readTokens commandOptions args with
  | .error message => .error (.refused message)
  | .ok tokens =>
    match readCommand dashes {} tokens with
    | .error e => .error e
    | .ok s =>
      match s.snapshot with
      | none => .error (.refused "the following arguments are required: SNAPSHOT")
      | some snapshot => .ok (snapshot, s.taken.choices, s.taken.extras)

/-- What a stop amounts to for a program of a given name. -/
def Parsed.ofStop (program : Text) : Stop → Parsed
  | .refused message => .refused program message
  | .shown text => .shown text

/-- The message about arguments that nothing was made of. -/
def unrecognized (extras : List Text) : Parsed :=
  .refused Catalogue.programName ("unrecognized arguments: " ++ Text.intercalate " " extras)

/-- Reads a command with what stands after it. -/
def parseVerb (dashes : Dashes) (taken : Taken Nat) (verb : Text) (args : List Text) : Parsed :=
  match Verb.ofName? verb with
  | none =>
    .refused Catalogue.programName
      ("argument <command>: " ++ invalidChoice verb (Verb.all.map Verb.name))
  | some v =>
    match parseCommand dashes args with
    | .error stop => .ofStop (Catalogue.programName ++ " " ++ verb) stop
    | .ok (snapshot, choices, extras) =>
      let extras := taken.extras ++ extras
      if extras.isEmpty then .run ⟨taken.choices, v, snapshot, choices⟩ else unrecognized extras

/-- Reads the options of the program and then the command. -/
def readProgram (dashes : Dashes) (taken : Taken Nat) : List (Token Nat) → Parsed
  | [] => if taken.extras.isEmpty then .noCommand else unrecognized taken.extras
  | .option _ m :: rest =>
    match takeOption dashes programOptions taken m rest.head? with
    | .error stop => .ofStop Catalogue.programName stop
    | .ok (taken, _) => readProgram dashes taken rest
  | .unknown text :: rest => readProgram dashes { taken with extras := taken.extras ++ [text] } rest
  | .dashes :: [] => unrecognized (taken.extras ++ (["--"] : List Text))
  | .dashes :: rest => parseVerb dashes taken "--" (rest.map Token.text)
  | .word verb :: rest => parseVerb dashes taken verb (rest.map Token.text)

/-- Reads a whole command line. -/
def parse (dashes : Dashes) (args : List Text) : Parsed :=
  match readTokens programOptions args with
  | .error message => .refused Catalogue.programName message
  | .ok tokens => readProgram dashes ⟨0, []⟩ tokens

end Blame.Command
