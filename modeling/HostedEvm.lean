import HostedEvm.Abi.Decode
import HostedEvm.Abi.Encode
import HostedEvm.Abi.Interface
import HostedEvm.Abi.Literal
import HostedEvm.Abi.Misread
import HostedEvm.Abi.Signature
import HostedEvm.Abi.Types
import HostedEvm.Abi.Value
import HostedEvm.BaseFee
import HostedEvm.Block
import HostedEvm.Breakdown
import HostedEvm.Bytes
import HostedEvm.Cache
import HostedEvm.Chain.Archive
import HostedEvm.Chain.Chain
import HostedEvm.Chain.Fault
import HostedEvm.Chain.Feeds
import HostedEvm.Chain.Host
import HostedEvm.Chain.Processor
import HostedEvm.Chain.Reader
import HostedEvm.Config.Runtime
import HostedEvm.Events.EventBook
import HostedEvm.Events.NativeEvent
import HostedEvm.Execution.Interpreter
import HostedEvm.Execution.TransferMachine
import HostedEvm.Fault
import HostedEvm.Feed
import HostedEvm.Fork
import HostedEvm.Gas.Meter
import HostedEvm.Gas.Prices
import HostedEvm.Journal.AccessList
import HostedEvm.Journal.Controller
import HostedEvm.Journal.Destroyed
import HostedEvm.Journal.Logs
import HostedEvm.Journal.Refund
import HostedEvm.Journal.Transient
import HostedEvm.Keccak
import HostedEvm.Pool.Fault
import HostedEvm.Pool.Pool
import HostedEvm.Pool.Queue
import HostedEvm.Precompile.Container
import HostedEvm.Precompile.Contract
import HostedEvm.Precompile.Message
import HostedEvm.Precompile.Program
import HostedEvm.Precompile.Registry
import HostedEvm.Proofs.Abi.TopicForms
import HostedEvm.Proofs.BaseFee
import HostedEvm.Proofs.Bytes
import HostedEvm.Proofs.Cache
import HostedEvm.Proofs.Chain.Assembly
import HostedEvm.Proofs.Chain.Budgets
import HostedEvm.Proofs.Chain.CleanSlate
import HostedEvm.Proofs.Chain.Conservation
import HostedEvm.Proofs.Chain.FailedTransaction
import HostedEvm.Proofs.Chain.Feeding
import HostedEvm.Proofs.Chain.Frame
import HostedEvm.Proofs.Chain.History
import HostedEvm.Proofs.Chain.Lifecycle
import HostedEvm.Proofs.Chain.Lookups
import HostedEvm.Proofs.Chain.Nonces
import HostedEvm.Proofs.Chain.Order
import HostedEvm.Proofs.Chain.Parent
import HostedEvm.Proofs.Chain.Persistence
import HostedEvm.Proofs.Chain.Processing
import HostedEvm.Proofs.Chain.Receipts
import HostedEvm.Proofs.Chain.Records
import HostedEvm.Proofs.Chain.Rejection
import HostedEvm.Proofs.Chain.Replay
import HostedEvm.Proofs.Chain.Runs
import HostedEvm.Proofs.Events.Emission
import HostedEvm.Proofs.Events.Translation
import HostedEvm.Proofs.Execution.Atomicity
import HostedEvm.Proofs.Execution.Billing
import HostedEvm.Proofs.Execution.Depth
import HostedEvm.Proofs.Execution.Fee
import HostedEvm.Proofs.Execution.Funds
import HostedEvm.Proofs.Execution.Invariance
import HostedEvm.Proofs.Execution.Nonces
import HostedEvm.Proofs.Execution.ReadOnly
import HostedEvm.Proofs.Execution.Returns
import HostedEvm.Proofs.Execution.Settlement
import HostedEvm.Proofs.Execution.Spending
import HostedEvm.Proofs.Execution.Threshold
import HostedEvm.Proofs.Feed
import HostedEvm.Proofs.Filing
import HostedEvm.Proofs.Gas.Meter
import HostedEvm.Proofs.Gas.Runs
import HostedEvm.Proofs.Journal.Control
import HostedEvm.Proofs.Journal.Cooling
import HostedEvm.Proofs.Journal.Growth
import HostedEvm.Proofs.Journal.Warmth
import HostedEvm.Proofs.Map
import HostedEvm.Proofs.Outcome
import HostedEvm.Proofs.Pool.Announcements
import HostedEvm.Proofs.Pool.Consistency
import HostedEvm.Proofs.Pool.Content
import HostedEvm.Proofs.Pool.Holdings
import HostedEvm.Proofs.Pool.NextNonce
import HostedEvm.Proofs.Pool.Operations
import HostedEvm.Proofs.Pool.Overflow
import HostedEvm.Proofs.Pool.Pruning
import HostedEvm.Proofs.Pool.Queue
import HostedEvm.Proofs.Pool.Runs
import HostedEvm.Proofs.Pool.Senders
import HostedEvm.Proofs.Precompile.Active
import HostedEvm.Proofs.Precompile.Atomicity
import HostedEvm.Proofs.Precompile.Dispatch
import HostedEvm.Proofs.Precompile.Invariance
import HostedEvm.Proofs.Precompile.Nesting
import HostedEvm.Proofs.Precompile.Observation
import HostedEvm.Proofs.Precompile.Registration
import HostedEvm.Proofs.Precompile.Spending
import HostedEvm.Proofs.Seal
import HostedEvm.Proofs.State.Accounts
import HostedEvm.Proofs.State.Boundary
import HostedEvm.Proofs.State.Charges
import HostedEvm.Proofs.State.Counter
import HostedEvm.Proofs.State.Destruction
import HostedEvm.Proofs.State.Funds
import HostedEvm.Proofs.State.Growth
import HostedEvm.Proofs.State.Nesting
import HostedEvm.Proofs.State.Nonces
import HostedEvm.Proofs.State.Past
import HostedEvm.Proofs.State.Reads
import HostedEvm.Proofs.State.Reuse
import HostedEvm.Proofs.State.Stamps
import HostedEvm.Proofs.State.Views
import HostedEvm.Proofs.State.Warmth
import HostedEvm.Proofs.Transaction
import HostedEvm.Proofs.Word
import HostedEvm.Receipt
import HostedEvm.State.Account
import HostedEvm.State.Command
import HostedEvm.State.Journaled
import HostedEvm.State.Reply
import HostedEvm.State.Session
import HostedEvm.State.Store
import HostedEvm.Text.Base
import HostedEvm.Text.Checksum
import HostedEvm.Text.Hex
import HostedEvm.Text.Number
import HostedEvm.Text.Scan
import HostedEvm.Text.SnakeCase
import HostedEvm.Text.Utf8
import HostedEvm.Toml.Reader
import HostedEvm.Toml.Scalar
import HostedEvm.Toml.Table
import HostedEvm.Toml.Text
import HostedEvm.Toml.Writer
import HostedEvm.Transaction
import HostedEvm.Wire.Blocks
import HostedEvm.Wire.Commands
import HostedEvm.Wire.Faults
import HostedEvm.Wire.Form
import HostedEvm.Wire.Hosts
import HostedEvm.Wire.Precompiles
import HostedEvm.Wire.Records
import HostedEvm.Wire.Script
import HostedEvm.Wire.Shape
import HostedEvm.Wire.StandIn
import HostedEvm.Wire.Values
import HostedEvm.Word
