import Blame.Main
import Blame.Proofs.Audit
import Blame.Proofs.Sound
import Blame.Proofs.Stages
import Blame.Proofs.Calls
import Blame.Proofs.Credit
import Blame.Proofs.Lift
import Blame.Proofs.Records
import Blame.Proofs.Recorded
import Blame.Proofs.Load
import Blame.Proofs.Transpose
import Blame.Proofs.Situated
import Blame.Proofs.InSource
import Blame.Proofs.RetoldRoots
import Blame.Proofs.Frame
import Blame.Proofs.Faults
import Blame.Proofs.Growth
import Blame.Proofs.PairCounts
import Blame.Proofs.Atomic
import Blame.Proofs.Relifting
import Blame.Proofs.Redistribution
import Blame.Proofs.Alike
import Blame.Proofs.Buckets
import Blame.Proofs.BucketScores
import Blame.Proofs.Reading
import Blame.Proofs.Reload
import Blame.Proofs.Rearranged
import Blame.Proofs.Rounding
import Blame.Proofs.RoundingError
import Blame.Proofs.Shares
import Blame.Proofs.Totals
import Blame.Proofs.Verdicts
import Blame.Proofs.FailedLoad
import Blame.Proofs.PathTexts
import Blame.Proofs.Places
import Blame.Proofs.Prepared
import Blame.Proofs.Outputs
import Blame.Proofs.Endings
import Blame.Proofs.SideOutputs
import Blame.Proofs.VoidPlaces
import Blame.Proofs.VoidRows
import Blame.Proofs.CastGroups
import Blame.Proofs.Unlocated
import Blame.Proofs.LastVerdict
import Blame.Proofs.NormalPaths
import Blame.Proofs.Routes
import Blame.Proofs.ProjectFiles
import Blame.Proofs.CanonicalPaths
import Blame.Proofs.MacroPlaces
import Blame.Proofs.ShownRoots
import Blame.Proofs.Colours
import Blame.Proofs.Markup
import Blame.Proofs.DoubleScores
import Blame.Proofs.VerdictCache
import Blame.Proofs.Timers
import Blame.Proofs.LocationForms
