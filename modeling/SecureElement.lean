import SecureElement.Block.Chain
import SecureElement.Session.Calls
import SecureElement.Link.Traced
import SecureElement.Link.Rehearsal
import SecureElement.I2c.Polled
import SecureElement.I2c.Rehearsal
import SecureElement.Proxy.Client
import SecureElement.Proxy.Rehearsal
import SecureElement.Console.Program
import SecureElement.Main
import SecureElement.Proofs.Blocks
import SecureElement.Proofs.Budget
import SecureElement.Proofs.Asking
import SecureElement.Proofs.Delivery
import SecureElement.Proofs.Guarantees
import SecureElement.Proofs.Parked
import SecureElement.Proofs.Backlog
import SecureElement.Proofs.Progress
import SecureElement.Proofs.Framing
import SecureElement.Proofs.RoundTrip
import SecureElement.Proofs.Grammar
import SecureElement.Proofs.Repeats
import SecureElement.Proofs.Pending
import SecureElement.Proofs.LastCommand
import SecureElement.Proofs.Equipment
import SecureElement.Proofs.Script
import SecureElement.Proofs.Vexation
import SecureElement.Proofs.Tolerance
import SecureElement.Proofs.Transparency
import SecureElement.Proofs.Burst
import SecureElement.Proofs.Stream
import SecureElement.Proofs.Allowance
import SecureElement.Proofs.Granting
import SecureElement.Proofs.Stretches
import SecureElement.Proofs.Allotment
import SecureElement.Proofs.Agreement
import SecureElement.Proofs.Spare
import SecureElement.Proofs.Twins
import SecureElement.Proofs.TwinRuns
import SecureElement.Proofs.Reopening
import SecureElement.Proofs.Conduct
import SecureElement.Proofs.Verdict
import SecureElement.Proofs.Replay
import SecureElement.Proofs.Timing
import SecureElement.Proofs.Ownership
import SecureElement.Proofs.Leisure
import SecureElement.Proofs.Foresight
import SecureElement.Proofs.Connections
import SecureElement.Proofs.Posting
import SecureElement.Proofs.Unpacking
import SecureElement.Proofs.Outlay
import SecureElement.Proofs.Repair
import SecureElement.Proofs.Partition
import SecureElement.Proofs.Outline
import SecureElement.Proofs.OutlineRuns
import SecureElement.Proofs.Leftovers
import SecureElement.Proofs.Room
import SecureElement.Proofs.LastAnswer
import SecureElement.Proofs.Limits
import SecureElement.Proofs.Retries
import SecureElement.Proofs.Tally
import SecureElement.Proofs.Exhaustion
import SecureElement.Proofs.Budgets
import SecureElement.Proofs.CheckValues
import SecureElement.Proofs.Polling
import SecureElement.Proofs.AnswerGrammar
import SecureElement.Proofs.Dealings
import SecureElement.Proofs.Carriage
import SecureElement.Proofs.BoundedList
import SecureElement.Proofs.Residue
import SecureElement.Proofs.Statistics
