import LinearLight.Main
import LinearLight.AtomicWrite.Interleaving
import LinearLight.Code.Reader
import LinearLight.FileTree.Arrange
import LinearLight.FileTree.Listing
import LinearLight.FileWriter
import LinearLight.Tables.Error
import LinearLight.Tables.Workspace
import LinearLight.Writer
import LinearLight.Proofs.Bytes
import LinearLight.Proofs.Except
import LinearLight.Proofs.Split
import LinearLight.Proofs.FileTree.Lookup
import LinearLight.Proofs.FileTree.WellFormed
import LinearLight.Proofs.FileTree.Frame
import LinearLight.Proofs.FileTree.Resolution
import LinearLight.Proofs.Path.Parent
import LinearLight.Proofs.FileTree.NamedEntry
import LinearLight.Proofs.FileTree.Placement
import LinearLight.Proofs.FileTree.Arrangement
import LinearLight.Proofs.AtomicWrite.Steps
import LinearLight.Proofs.AtomicWrite.AllOrNothing
import LinearLight.Proofs.AtomicWrite.Trace
import LinearLight.Proofs.AtomicWrite.Interleaving
import LinearLight.Proofs.Sink
import LinearLight.Proofs.Writer
import LinearLight.Proofs.Delivery.Single
import LinearLight.Proofs.Delivery.Both
import LinearLight.Proofs.Delivery.Endings
import LinearLight.Proofs.Code.Artifact
import LinearLight.Proofs.Delivery.Entries
import LinearLight.Proofs.Code.Reader
import LinearLight.C.File
import LinearLight.C.Program
import LinearLight.Proofs.C.Reading
import LinearLight.Proofs.C.Meaning
import LinearLight.Proofs.Binary64.Rounding
import LinearLight.Proofs.Binary64.Arithmetic
import LinearLight.Proofs.Binary64.Order
import LinearLight.Proofs.Quantize
import LinearLight.Proofs.Binary64.Bracket
import LinearLight.Proofs.Binary64.Power
import LinearLight.Proofs.Curve
import LinearLight.Proofs.Decimal.Grid
import LinearLight.Proofs.Pipeline
import LinearLight.Proofs.Decimal.Positional
import LinearLight.Proofs.Binary64.Text
import LinearLight.Proofs.Refusal
import LinearLight.Proofs.CommandLine.Verbosity
import LinearLight.Proofs.Log.Reader
import LinearLight.Proofs.Program.Logging
import LinearLight.Proofs.Program.Endings
import LinearLight.Proofs.Binary64.Spacing
import LinearLight.Proofs.Quantize.HalfUp
import LinearLight.Proofs.Curve.Inverse
import LinearLight.Proofs.CommandLine.Grammar
import LinearLight.Proofs.AtomicWrite.StagingName
import LinearLight.Proofs.FileTree.Overlay
import LinearLight.Proofs.FileTree.Persistence
import LinearLight.Proofs.AtomicWrite.Success
import LinearLight.Proofs.Delivery.Again
import LinearLight.Proofs.Path.Ending
import LinearLight.Proofs.FileTree.Following
import LinearLight.Proofs.AtomicWrite.Criterion
import LinearLight.Proofs.AtomicWrite.Beside
import LinearLight.Proofs.Delivery.SameOutput
import LinearLight.Proofs.FileTree.Rewriting
import LinearLight.Proofs.FileWriter
import LinearLight.Proofs.Tables.History
