import WebAssembly.Attempt
import WebAssembly.Binary.Arithmetic
import WebAssembly.Binary.Format
import WebAssembly.Binary.Order
import WebAssembly.Binary.Rounding
import WebAssembly.Config
import WebAssembly.Config.File
import WebAssembly.Decimal.Layout
import WebAssembly.Decimal.Shortest
import WebAssembly.Engine.Answer
import WebAssembly.Engine.Interpreter
import WebAssembly.Engine.Run
import WebAssembly.Engine.Stack
import WebAssembly.Error
import WebAssembly.Fault
import WebAssembly.Features
import WebAssembly.Host
import WebAssembly.Index
import WebAssembly.Instantiation
import WebAssembly.Instruction
import WebAssembly.Module
import WebAssembly.Numeric.Evaluation
import WebAssembly.Numeric.Integer
import WebAssembly.Numeric.Operator
import WebAssembly.Opcode
import WebAssembly.Page
import WebAssembly.Proofs.Additions
import WebAssembly.Proofs.AddressSpace
import WebAssembly.Proofs.Allocation
import WebAssembly.Proofs.Attempt
import WebAssembly.Proofs.Backtraces
import WebAssembly.Proofs.BinaryWords
import WebAssembly.Proofs.Bounds
import WebAssembly.Proofs.Budget
import WebAssembly.Proofs.Bytes
import WebAssembly.Proofs.CallDiscipline
import WebAssembly.Proofs.Cancellation
import WebAssembly.Proofs.Checker
import WebAssembly.Proofs.Chronicle
import WebAssembly.Proofs.Commands
import WebAssembly.Proofs.Composition
import WebAssembly.Proofs.Confinement
import WebAssembly.Proofs.Control
import WebAssembly.Proofs.Counterpart
import WebAssembly.Proofs.CoupledInvocation
import WebAssembly.Proofs.Coupling
import WebAssembly.Proofs.Dispatch
import WebAssembly.Proofs.DoneContexts
import WebAssembly.Proofs.Evolution
import WebAssembly.Proofs.Execution
import WebAssembly.Proofs.Extension
import WebAssembly.Proofs.Halting
import WebAssembly.Proofs.IndexSpaces
import WebAssembly.Proofs.InstantiationEnds
import WebAssembly.Proofs.Instructions
import WebAssembly.Proofs.IntegerInstructions
import WebAssembly.Proofs.Law
import WebAssembly.Proofs.LawfulRun
import WebAssembly.Proofs.Limits
import WebAssembly.Proofs.Linking
import WebAssembly.Proofs.Locality
import WebAssembly.Proofs.Lockstep
import WebAssembly.Proofs.MemoryAccess
import WebAssembly.Proofs.MemoryHistory
import WebAssembly.Proofs.Metering
import WebAssembly.Proofs.Moves
import WebAssembly.Proofs.OperandKinds
import WebAssembly.Proofs.Operands
import WebAssembly.Proofs.Outcome
import WebAssembly.Proofs.Preparation
import WebAssembly.Proofs.Principal
import WebAssembly.Proofs.Reachability
import WebAssembly.Proofs.Reference
import WebAssembly.Proofs.Refinement
import WebAssembly.Proofs.Region
import WebAssembly.Proofs.Safety
import WebAssembly.Proofs.Segments
import WebAssembly.Proofs.Soundness
import WebAssembly.Proofs.Stability
import WebAssembly.Proofs.StoreTyping
import WebAssembly.Proofs.Truncation
import WebAssembly.Proofs.Typing
import WebAssembly.Proofs.Validity
import WebAssembly.Proofs.WellFormed
import WebAssembly.Proofs.Widening
import WebAssembly.Session
import WebAssembly.Store.Access
import WebAssembly.Store.Basic
import WebAssembly.Store.Instance
import WebAssembly.Store.Memory
import WebAssembly.Store.Table
import WebAssembly.Text.Hex
import WebAssembly.Text.Printable
import WebAssembly.Text.Quoted
import WebAssembly.Toml.Document
import WebAssembly.Toml.Key
import WebAssembly.Toml.Number
import WebAssembly.Toml.Quotation
import WebAssembly.Toml.Statement
import WebAssembly.Toml.Time
import WebAssembly.Type
import WebAssembly.Validation.Body
import WebAssembly.Validation.Context
import WebAssembly.Validation.Effect
import WebAssembly.Validation.Module
import WebAssembly.Validation.Signature
import WebAssembly.Value
