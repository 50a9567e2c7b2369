import ByteStack.CommandLine.Session
import ByteStack.Main
import ByteStack.Proofs.ListMachine
import ByteStack.Proofs.Machine.View
import ByteStack.Puzzle.Writer
import ByteStack.Proofs.Machine.Simulation
import ByteStack.Proofs.Machine.Refinement
import ByteStack.Proofs.Assembly.Grammar
import ByteStack.Proofs.Assembly.Emission
import ByteStack.Proofs.Assembly.Encoding
import ByteStack.Proofs.Assembly.Boundary
import ByteStack.Proofs.Machine.Session
import ByteStack.Proofs.Machine.Track
import ByteStack.Proofs.ControlFlow
import ByteStack.Proofs.Machine.Expecting
import ByteStack.Proofs.Machine.Grading
import ByteStack.Proofs.Source.Segmentation
import ByteStack.Proofs.Assembly.Listing
import ByteStack.Proofs.Machine.Budget
import ByteStack.Proofs.Machine.Checked
import ByteStack.Proofs.Image.Stored
import ByteStack.Proofs.Machine.Interruption
import ByteStack.Proofs.Source.Location
import ByteStack.Proofs.Source.Map
import ByteStack.Proofs.Assembly.Start
import ByteStack.Proofs.Machine.Blame
import ByteStack.Proofs.FaultLocation
import ByteStack.Proofs.Puzzle.Passing
import ByteStack.Proofs.Puzzle.Grading
import ByteStack.Proofs.CommandLine.Arguments
import ByteStack.Proofs.CommandLine.Grading
import ByteStack.Proofs.Image.Acceptance
import ByteStack.Proofs.Assembly.Report
import ByteStack.Proofs.Machine.Observation
import ByteStack.Proofs.Machine.Nesting
import ByteStack.Proofs.Diagnostic
import ByteStack.Proofs.Machine.Listed
import ByteStack.Proofs.Machine.Lifecycle
import ByteStack.Proofs.Source.Resumption
import ByteStack.Proofs.CommandLine.StoredRun
import ByteStack.Proofs.Puzzle.Written
import ByteStack.Proofs.Puzzle.Respelling
import ByteStack.Proofs.Wording
import ByteStack.Proofs.Source.Spelling
import ByteStack.Proofs.Machine.Extent
import ByteStack.Proofs.Machine.Unread
import ByteStack.Proofs.Machine.Loading
import ByteStack.Proofs.Source.Line
import ByteStack.Proofs.Source.Nearest
import ByteStack.Proofs.CodeLookup
import ByteStack.Proofs.OperandValue
import ByteStack.Proofs.Assembly.LabelTable
import ByteStack.Proofs.Assembly.Stroke
import ByteStack.Proofs.Assembly.Pass
import ByteStack.Proofs.Assembly.Patching
import ByteStack.Proofs.Assembly.Finish
