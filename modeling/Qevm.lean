import Qevm.Collections.HashMap
import Qevm.Core.Alu
import Qevm.Core.Memory
import Qevm.Core.Opcode
import Qevm.Core.Stack
import Qevm.Core.World
import Qevm.Core.Call
import Qevm.Core.AccessList
import Qevm.Core.Context
import Qevm.Core.Frames
import Qevm.Core.Interpreter
import Qevm.State.Dummy
import Qevm.Core.Quiet
import Qevm.Core.Effect
import Qevm.Core.Endings
import Qevm.Core.Nesting
import Qevm.Core.Run
import Qevm.Laws.Resume
import Qevm.Logic.Accounting
import Qevm.Laws.GasConservation
import Qevm.Core.Operands
import Qevm.Core.Expansion
import Qevm.Core.Transaction
import Qevm.Core.Seen
import Qevm.Core.Transfers
import Qevm.Core.Destroyed
import Qevm.Core.Panics
import Qevm.Core.Snapshots
import Qevm.Laws.FailedCall
import Qevm.Laws.ReadOnly
import Qevm.Laws.ControlStack
import Qevm.Core.Funds
import Qevm.Core.Saved
import Qevm.Core.Creations
import Qevm.Laws.Creation
import Qevm.Laws.Atomicity
import Qevm.Laws.Funds
import Qevm.Laws.Ownership
import Qevm.Core.Grid
import Qevm.Laws.Immediate
import Qevm.Collections.Overlay
import Qevm.State.Rev
import Qevm.State.Layers
import Qevm.Collections.TrieStore
import Qevm.State.Unmarked
import Qevm.Laws.FlatStore
import Qevm.Laws.Destruction
import Qevm.Logic.Coverage
import Qevm.Core.Refund
import Qevm.State.Merkle
import Qevm.Laws.Commit
import Qevm.Laws.Revisions
import Qevm.Chain
import Qevm.Codec.BigEndian
import Qevm.Codec.RlpItem
import Qevm.Codec.RlpReader
import Qevm.Tx
import Qevm.Scheduler
import Qevm.Laws.Scheduling
import Qevm.Laws.Signing
import Qevm.Laws.Malleability
import Qevm.Laws.Attachment
import Qevm.Laws.Refund
import Qevm.Laws.Fetch
import Qevm.Laws.Openers
import Qevm.Laws.Calls
import Qevm.Laws.CleanUp
import Qevm.Core.Accessed
import Qevm.Laws.Warm
import Qevm.Laws.Metering
import Qevm.Laws.ReadBack
import Qevm.Laws.Unstartable
import Qevm.Laws.Deposit
import Qevm.Laws.Touches
import Qevm.Laws.MemoryFees
import Qevm.Laws.Transfer
import Qevm.Laws.Unassigned
import Qevm.Collections.Tape
import Qevm.Laws.MemoryModel
import Qevm.Laws.MemoryAccess
import Qevm.Laws.Heights
import Qevm.Laws.Halting
import Qevm.Laws.Costs
import Qevm.Laws.Termination
import Qevm.Laws.Addresses
import Qevm.Laws.Admission
import Qevm.Laws.Jumps
import Qevm.Laws.Logs
import Qevm.Laws.Recovery
import Qevm.Laws.CodeHash
import Qevm.Laws.Arithmetic
import Qevm.Laws.Copies
import Qevm.Laws.Destinations
import Qevm.Laws.Bookkeeping
import Qevm.Laws.AccountCodec
import Qevm.Logic.Refinement
import Qevm.Collections.BoundedStack
import Qevm.Laws.StackRefinement
import Qevm.Collections.KeyedSets
import Qevm.Laws.AccessSets
import Qevm.Codec.Canonical
import Qevm.Payload
import Qevm.Laws.Payloads
import Qevm.Codec.Text
import Qevm.Codec.Hex
import Qevm.Json
import Qevm.Laws.HexStrings
import Qevm.Logic.Commutation
import Qevm.Core.Images
import Qevm.Core.ImageActions
import Qevm.Core.ImageRuns
import Qevm.State.Maps
import Qevm.Laws.Representation
import Qevm.Laws.LayeredRuns
import Qevm.Collections.Database
import Qevm.State.ReadWriteDB
import Qevm.Laws.NodeStore
import Qevm.Laws.TxCodec
import Qevm.Codec.Sequence
import Qevm.Node.Records
import Qevm.Laws.Records
import Qevm.Collections.Lineage
import Qevm.Node.ChainState
import Qevm.Laws.CanonicalChain
import Qevm.Laws.NodeRuns
import Qevm.Collections.Firsts
import Qevm.Node.Process
import Qevm.Laws.ProcessRuns
import Qevm.Collections.Compaction
import Qevm.Node.Execution
import Qevm.Laws.BlockExecution
import Qevm.Collections.Bisection
import Qevm.Node.Estimation
import Qevm.Laws.GasEstimation
import Qevm.Collections.Memo
import Qevm.Node.Lookup
import Qevm.Laws.TxLookup
import Qevm.Laws.AncestorHashes
import Qevm.Laws.StateHistory
