import StructuralMatch.Pattern.Describe
import StructuralMatch.Pattern.RestPlacement
import StructuralMatch.Proofs.Addresses
import StructuralMatch.Proofs.Captures
import StructuralMatch.Proofs.Complement
import StructuralMatch.Proofs.Consistency
import StructuralMatch.Proofs.Consuming
import StructuralMatch.Proofs.EntryOrder
import StructuralMatch.Proofs.Faults
import StructuralMatch.Proofs.Footprint
import StructuralMatch.Proofs.Holes
import StructuralMatch.Proofs.Instances
import StructuralMatch.Proofs.Iterables
import StructuralMatch.Proofs.Lifecycle
import StructuralMatch.Proofs.Literals
import StructuralMatch.Proofs.Mentions
import StructuralMatch.Proofs.Merging
import StructuralMatch.Proofs.Number.Text
import StructuralMatch.Proofs.Observation
import StructuralMatch.Proofs.Readers
import StructuralMatch.Proofs.Rejections
import StructuralMatch.Proofs.Remainder
import StructuralMatch.Proofs.Replay
import StructuralMatch.Proofs.Sameness
import StructuralMatch.Proofs.Selections
import StructuralMatch.Proofs.Wildcards
import StructuralMatch.Proofs.WriteOnce
import StructuralMatch.Store.Log
