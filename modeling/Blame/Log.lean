import Blame.Text.Basic

/-!
# Log lines

Whatever the library has to say while it works is returned as a list of lines; who shows them, and from
which level on, is left to the caller.
-/

namespace Blame

/-- How much a line matters. -/
inductive Level where
  | debug
  | info
  | warning
  | error
  deriving DecidableEq, Repr

namespace Level

def rank : Level → Nat
  | debug => 0
  | info => 1
  | warning => 2
  | error => 3

def name : Level → Text
  | debug => "DEBUG"
  | info => "INFO"
  | warning => "WARNING"
  | error => "ERROR"

end Level

/-- The part of the library that speaks. -/
inductive Topic where
  | command
  | files
  | index
  | snapshot
  | summary
  | report
  | tables
  deriving DecidableEq, Repr

/-- The name under which a part speaks. -/
def Topic.name : Topic → Text
  | command => "wild_rootcause"
  | files => "wild_rootcause.locations"
  | index => "wild_rootcause.attribution"
  | snapshot => "wild_rootcause.snapshot"
  | summary => "wild_rootcause.summary"
  | report => "wild_rootcause.report"
  | tables => "wild_rootcause.aggregators"

/-- One line of the log. -/
structure LogLine where
  level : Level
  topic : Topic
  text : Text
  deriving DecidableEq, Repr

/-- The lines that matter at least as much as a given level. -/
def logFrom (least : Level) (lines : List LogLine) : List LogLine :=
  lines.filter fun l => decide (least.rank ≤ l.level.rank)

end Blame
