import Blame.Json.Shown
import Blame.Json.Writer
import Blame.Text.Digits
import Blame.Text.LowerCase

/-!
# Time and counts of a run

How long the phases of a run took and how often a rewrite was made. Times are sums of differences of
clock readings, in whatever numbers the clock counts.
-/

namespace Blame

open Number

/-- A phase of a run. -/
inductive Phase where
  | compile
  | constraintBuilder
  | constraintSolver
  | arrayBoundsInference
  | rewriting
  | total
  deriving DecidableEq, Repr

namespace Phase

def all : List Phase :=
  [compile, constraintBuilder, constraintSolver, arrayBoundsInference, rewriting, total]

/-- The name of a phase. -/
def name : Phase → Text
  | compile => "COMPILE"
  | constraintBuilder => "CONSTRAINT_BUILDER"
  | constraintSolver => "CONSTRAINT_SOLVER"
  | arrayBoundsInference => "ARRAY_BOUNDS_INFERENCE"
  | rewriting => "REWRITING"
  | total => "TOTAL"

/-- What a phase is called in a report. -/
def key : Phase → Text
  | compile => "CompileTime"
  | constraintBuilder => "ConstraintBuilderTime"
  | constraintSolver => "ConstraintSolverTime"
  | arrayBoundsInference => "ArrayBoundsInferenceTime"
  | rewriting => "RewritingTime"
  | total => "TotalTime"

def ofName? (s : Text) : Option Phase := all.find? (·.name == s)

/-- The phases of a report, in its order. The time of compiling is kept and not shown. -/
def reported : List Phase :=
  [total, constraintBuilder, constraintSolver, arrayBoundsInference, rewriting]

end Phase

/-- A kind of rewrite that is counted. -/
inductive Counter where
  | assumeBoundsCasts
  | checkedCasts
  | wildCasts
  | fixedCasts
  | itypes
  | checkedRegions
  | uncheckedRegions
  deriving DecidableEq, Repr

namespace Counter

def all : List Counter :=
  [assumeBoundsCasts, checkedCasts, wildCasts, fixedCasts, itypes, checkedRegions, uncheckedRegions]

/-- The name of a counter. -/
def name : Counter → Text
  | assumeBoundsCasts => "ASSUME_BOUNDS_CASTS"
  | checkedCasts => "CHECKED_CASTS"
  | wildCasts => "WILD_CASTS"
  | fixedCasts => "FIXED_CASTS"
  | itypes => "ITYPES"
  | checkedRegions => "CHECKED_REGIONS"
  | uncheckedRegions => "UNCHECKED_REGIONS"

/-- What a counter is called in a report. -/
def key : Counter → Text
  | assumeBoundsCasts => "NumAssumeBoundsCasts"
  | checkedCasts => "NumCheckedCasts"
  | wildCasts => "NumWildCasts"
  | fixedCasts => "NumFixedCasts"
  | itypes => "NumITypes"
  | checkedRegions => "NumCheckedRegions"
  | uncheckedRegions => "NumUnCheckedRegions"

def ofName? (s : Text) : Option Counter := all.find? (·.name == s)

/-- The counter that a text means: the first that is called so in reports, or by name in any case. -/
def ofKey? (s : Text) : Option Counter :=
  let small := Text.lower s
  all.find? fun c => c.key == s || Text.lower c.name == small

end Counter

/-- A phase was stopped that was not running. -/
structure NotStarted where
  phase : Phase
  deriving DecidableEq, Repr

def NotStarted.message (e : NotStarted) : Text := (e.phase.name ++ " was stopped without being started")

/-- A count has more digits than are ever written. -/
structure CountTooLong where
  counter : Counter
  deriving DecidableEq, Repr

def CountTooLong.message (_ : CountTooLong) : Text :=
  ("Exceeds the limit (" ++ natText Text.digitLimit ++ " digits) for integer string conversion; ")
    ++ "use sys.set_int_max_str_digits() to increase the limit"

/-- Times and counts; `τ` are the readings of the clock. -/
structure RunStats (τ : Type) where
  times : Phase → τ
  counts : Counter → Int
  /-- The reading at which a running phase began. -/
  started : Phase → Option τ

namespace RunStats

variable {τ : Type}

/-- Nothing was measured or counted yet. -/
def initial [Zero τ] : RunStats τ where
  times _ := 0
  counts _ := 0
  started _ := none

/-- Begins a phase, anew if it is running. -/
def start (s : RunStats τ) (p : Phase) (now : τ) : RunStats τ :=
  { s with started := fun q => if q = p then some now else s.started q }

/-- Ends a phase; the answer is the time since it began. -/
def stop [Add τ] [Sub τ] (s : RunStats τ) (p : Phase) (now : τ) :
    Except NotStarted (RunStats τ × τ) :=
  match s.started p with
  | none => .error ⟨p⟩
  | some began =>
    let elapsed := now - began
    .ok ({ s with
      times := fun q => if q = p then s.times q + elapsed else s.times q
      started := fun q => if q = p then none else s.started q }, elapsed)

/-- Adds to a counter. -/
def increment (s : RunStats τ) (c : Counter) (amount : Int) : RunStats τ :=
  { s with counts := fun d => if d = c then s.counts d + amount else s.counts d }

/-- Takes one back from a counter. -/
def decrement (s : RunStats τ) (c : Counter) : RunStats τ := s.increment c (-1)

def timesJson (s : RunStats Double) : List (Text × Json) :=
  Phase.reported.map fun p => (p.key, .float (s.times p))

def countsJson (s : RunStats τ) : List (Text × Json) := Counter.all.map fun c => (c.key, .int (s.counts c))

def toJson (s : RunStats Double) : Json :=
  .list [.obj [("TimeStats", .obj s.timesJson)], .obj [("ReWriteStats", .obj s.countsJson)]]

/-- The statistics as a text, with a line for each number. -/
def plainText (s : RunStats Double) : Text :=
  let lines := (["TimeStats"] : List Text) ++ Phase.reported.map (fun p => p.key ++ ":" ++ (s.times p).text)
    ++ (["ReWriteStats"] : List Text) ++ Counter.all.map (fun c => c.key ++ ":" ++ intText (s.counts c))
  Text.intercalate "\n" lines ++ "\n"

/-- The first counter whose count is too long to be written. -/
def tooLong? (s : RunStats τ) : Option Counter :=
  Counter.all.find? fun c => decide (Text.digitLimit < (natDigits (s.counts c).natAbs).length)

/-- The statistics as a text, a JSON document if so asked. -/
def text (s : RunStats Double) (asJson : Bool) : Except CountTooLong Text :=
  match s.tooLong? with
  | some c => .error ⟨c⟩
  | none => .ok (if asJson then s.toJson.write .oneLine ++ "\n" else s.plainText)

end RunStats

/-- The readings a clock is going to give; the last one stays for ever. -/
abbrev Clock (τ : Type) := List τ

namespace Clock

variable {τ : Type}

/-- The next reading, and the clock after it; a clock without readings stands at zero. -/
def read [Zero τ] : Clock τ → τ × Clock τ
  | [] => (0, [])
  | [t] => (t, [t])
  | t :: rest => (t, rest)

end Clock

/-- The statistics of a run together with the clock they are taken from. -/
structure Session (τ : Type) where
  stats : RunStats τ
  clock : Clock τ

namespace Session

variable {τ : Type} [Zero τ] [Add τ] [Sub τ]

/-- Begins a phase at the next reading of the clock. -/
def start (s : Session τ) (p : Phase) : Session τ :=
  let (now, clock) := s.clock.read
  ⟨s.stats.start p now, clock⟩

/-- Ends a phase at the next reading of the clock, which is read only if the phase is running. -/
def stop (s : Session τ) (p : Phase) : Except NotStarted (Session τ × τ) :=
  let (now, clock) := s.clock.read
  (s.stats.stop p now).map fun (stats, elapsed) => (⟨stats, clock⟩, elapsed)

/-- How a timed body can fail: by itself, or because the phase was not running any more at its end. -/
inductive TimedFailure (ε : Type) where
  | body (e : ε)
  | phase (e : NotStarted)

/-- Runs a body between the start and the end of a phase. The phase is ended also if the body fails, and
a failure to end it hides that of the body. -/
def timed {ε : Type} (s : Session τ) (p : Phase) (body : Session τ → Session τ × Option ε) :
    Session τ × Option (TimedFailure ε) :=
  let (s, failure) := body (s.start p)
  match s.stop p with
  | .ok (s, _) => (s, failure.map .body)
  | .error e => (s, some (.phase e))

end Session

end Blame
