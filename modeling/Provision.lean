import Provision.Command.Run
import Provision.Compilation
import Provision.Main
import Provision.Proofs.SortedMap
import Provision.Proofs.Hierarchy
import Provision.Proofs.Spelling
import Provision.Proofs.Ancestry
import Provision.Proofs.Octets
import Provision.Proofs.Sequence.Queue
import Provision.Proofs.Sequence.LeastOrder
import Provision.Proofs.Merge.InForce
import Provision.Proofs.Merge.Reflection
import Provision.Proofs.Merge.Ascent
import Provision.Proofs.Merge.Outcome
import Provision.Proofs.Merge.Validity
import Provision.Proofs.Extraction
import Provision.Proofs.Archive.Reader
import Provision.Proofs.Archive.Header
import Provision.Proofs.Archive.Record
import Provision.Proofs.Archive.Name
import Provision.Proofs.Archive.Member
import Provision.Proofs.Archive.RoundTrip
import Provision.Proofs.Output.Pieces
import Provision.Proofs.Output.Failure
import Provision.Proofs.Merge.Relabelling
import Provision.Proofs.Interleaving
import Provision.Proofs.Merge.Refusal
import Provision.Proofs.Merge.Repetition
import Provision.Proofs.Repetition
import Provision.Proofs.Merge.Strictness
import Provision.Proofs.Merge.Verdict
import Provision.Proofs.Sequence.Trapped
import Provision.Proofs.Host.Walk
import Provision.Proofs.Host.NewFile
import Provision.Proofs.Host.Entry
import Provision.Proofs.Note
import Provision.Proofs.Command.Session
import Provision.Proofs.Command.Arguments
import Provision.Proofs.Command.Run
import Provision.Proofs.Command.Overwrite
import Provision.Proofs.Merge.Report
import Provision.Proofs.Merge.Finish
import Provision.Proofs.Merge.Attribution
import Provision.Proofs.Merge.Recurrence
import Provision.Proofs.Mode
import Provision.Proofs.Manifest.Push
import Provision.Proofs.Manifest.Placement
import Provision.Proofs.Manifest.Conversion
import Provision.Proofs.Merge.Requirements
import Provision.Proofs.Output.Lines
import Provision.Proofs.Archive.Framing
import Provision.Proofs.Archive.Overflow
import Provision.Proofs.Sequence.Ascending
import Provision.Proofs.Manifest.Spelling
import Provision.Proofs.Manifest.Keys
import Provision.Proofs.Json.Reader
import Provision.Proofs.Json.RoundTrip
import Provision.Proofs.Output.Objects
