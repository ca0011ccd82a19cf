import TinyScript.Main
import TinyScript.Proofs.Bounds
import TinyScript.Proofs.ClassForms
import TinyScript.Proofs.ClosureTexts
import TinyScript.Proofs.ComparatorSort
import TinyScript.Proofs.Comparisons
import TinyScript.Proofs.Completion
import TinyScript.Proofs.CursorFamilies
import TinyScript.Proofs.Extremes
import TinyScript.Proofs.FirstFailure
import TinyScript.Proofs.Isolation
import TinyScript.Proofs.LargerLimits
import TinyScript.Proofs.NaturalSort
import TinyScript.Proofs.Places
import TinyScript.Proofs.Recording
import TinyScript.Proofs.RoundTrip
import TinyScript.Proofs.SameTrees
import TinyScript.Proofs.ScopeLaws
import TinyScript.Proofs.Sessions
import TinyScript.Proofs.Snapshots
import TinyScript.Proofs.SourcePositions
import TinyScript.Proofs.StepBudget
import TinyScript.Proofs.TextSearch
import TinyScript.Proofs.TraceFiles
import TinyScript.Proofs.Unfoldings
import TinyScript.Proofs.ValueDomain
