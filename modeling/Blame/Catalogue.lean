import Blame.Text.Basic

/-!
# What the library is called and offers

The version of the program, its parts, and the names that each part offers.
-/

namespace Blame.Catalogue

def programName : Text := "wild-rootcause"

def version : Text := "0.2.0"

def packageName : Text := "wild_rootcause"

/-- The parts in the order in which they are loaded, each with the names it offers. -/
def parts : List (Text × List Text) := [
  ("errors", ["RootCauseError", "InconsistentClassification", "SnapshotError", "ConfigError"]),
  ("locations", ["DEFAULT_SYSTEM_PREFIXES", "SourceLocation", "FileClassifier", "valid_or_none",
    "location_json", "classifier_from_dirs"]),
  ("attribution", ["MACRO_REASON", "ReasonNote", "RootDiagnostic", "AttributionIndex"]),
  ("scoring", ["atom_score", "pointer_score"]),
  ("summary", ["ReasonBucket", "WildPointerSummary", "summarize"]),
  ("report", ["SubReason", "RootCauseEntry", "RootCauseReport", "build_root_cause_report", "RCMapEntry",
    "build_rc_map"]),
  ("aggregators", ["CastInfoAggregator", "VoidKind", "VoidInfoAggregator", "MacroInfoAggregator"]),
  ("perf_stats", ["Phase", "Counter", "PerformanceStats"]),
  ("config", ["ReportConfig"]),
  ("snapshot", ["Snapshot", "load_snapshot"]),
  ("render", ["render_json", "make_text_renderer", "HtmlRenderer"])]

/-- The names of the parts in ascending order. -/
def partNames : List Text := (parts.map Prod.fst).mergeSort fun a b => decide (a ≤ b)

/-- Every name on offer: those of each part and then the part itself, and the names about the whole. -/
def exports : List Text :=
  parts.flatMap (fun p => p.2 ++ [p.1]) ++ (["list_submodules", "package_info", "__version__"] : List Text)

end Blame.Catalogue
