import ForkTape.Main
import ForkTape.Proofs.Block.Correctness
import ForkTape.Proofs.Execution
import ForkTape.Proofs.Pool.Custody
import ForkTape.Proofs.Pool.Fairness
import ForkTape.Proofs.Pool.GlobalLimit
import ForkTape.Proofs.Pool.StepLimit
import ForkTape.Proofs.Bracket.Level
import ForkTape.Proofs.Bracket.Pairing
import ForkTape.Proofs.Machine.Lives
import ForkTape.Proofs.Pool.Isolation
import ForkTape.Proofs.Execution.Replay
import ForkTape.Proofs.Machine.Mirror
import ForkTape.Proofs.Pool.Mirror
import ForkTape.Proofs.Machine.TapeRoom
import ForkTape.Proofs.Execution.TapeRoom
import ForkTape.Proofs.Source
import ForkTape.Proofs.Binary.Format
import ForkTape.Proofs.Binary.Varint
import ForkTape.Proofs.Report.Binary
import ForkTape.Proofs.Pool.Registry
import ForkTape.Proofs.Pool.LiveBudget
import ForkTape.Proofs.Pool.Continuity
import ForkTape.Proofs.Pool.Finality
import ForkTape.Proofs.Pool.Termination
import ForkTape.Proofs.Pool.LockStep
import ForkTape.Proofs.Pool.LiveRoom
import ForkTape.Proofs.Machine.TrailingZeros
import ForkTape.Proofs.Execution.Mirror
import ForkTape.Proofs.Bracket.Blame
import ForkTape.Proofs.Bracket.Omission
import ForkTape.Proofs.Execution.TrailingZeros
import ForkTape.Proofs.Program.Loading
import ForkTape.Proofs.Program.WithoutForks
import ForkTape.Proofs.Machine.WithoutForks
import ForkTape.Proofs.Pool.Resumption
import ForkTape.Proofs.Pool.AfterTurn
import ForkTape.Proofs.Pool.Forking
import ForkTape.Proofs.Pool.Precedence
import ForkTape.Proofs.Pool.CutOff
import ForkTape.Proofs.Pool.Usage
import ForkTape.Proofs.CommandLine.FileTree
import ForkTape.Proofs.CommandLine.Options
import ForkTape.Proofs.Execution.Reported
import ForkTape.Proofs.CommandLine.Session
import ForkTape.Proofs.Machine.Checked
import ForkTape.Proofs.Machine.Safety
import ForkTape.Proofs.Source.Rendering
import ForkTape.Proofs.Text.Padding
import ForkTape.Proofs.Bracket.Depth
import ForkTape.Proofs.Program.Listing
import ForkTape.Proofs.Pool.Ids
import ForkTape.Proofs.Tape.Truncation
import ForkTape.Proofs.Execution.Truncation
