import Straightline.CommandLine
import Straightline.CommandLine.Arguments
import Straightline.CommandLine.FileTree
import Straightline.Evaluation
import Straightline.Listing
import Straightline.Machine
import Straightline.Machine.Operation
import Straightline.Main
import Straightline.MeteredStack
import Straightline.OperandStack
import Straightline.Program
import Straightline.Proofs.Absorption
import Straightline.Proofs.Arithmetic
import Straightline.Proofs.Bytes
import Straightline.Proofs.Canonical
import Straightline.Proofs.Composition
import Straightline.Proofs.Concatenation
import Straightline.Proofs.Decoding
import Straightline.Proofs.Depth
import Straightline.Proofs.Diagnosis
import Straightline.Proofs.Domains
import Straightline.Proofs.Evaluation
import Straightline.Proofs.EventLog
import Straightline.Proofs.Expression
import Straightline.Proofs.Format
import Straightline.Proofs.Grammar
import Straightline.Proofs.Layout
import Straightline.Proofs.Literal
import Straightline.Proofs.NeutralCode
import Straightline.Proofs.Numbers
import Straightline.Proofs.Observation
import Straightline.Proofs.Operations
import Straightline.Proofs.Operators
import Straightline.Proofs.Refinement
import Straightline.Proofs.Refusals
import Straightline.Proofs.RoundTrip
import Straightline.Proofs.RunCommand
import Straightline.Proofs.Text
import Straightline.Proofs.TrapCauses
import Straightline.Proofs.Width
