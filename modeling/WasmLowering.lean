import WasmLowering.Assembly
import WasmLowering.Bytes
import WasmLowering.Config
import WasmLowering.ConfigFile
import WasmLowering.Diagnostic
import WasmLowering.Expr
import WasmLowering.Fault
import WasmLowering.Initializer
import WasmLowering.Layout
import WasmLowering.Link
import WasmLowering.LinkState
import WasmLowering.Literal
import WasmLowering.Lower.Cast
import WasmLowering.Lower.Expr
import WasmLowering.Lower.Function
import WasmLowering.Lower.Highwater
import WasmLowering.Lower.Operator
import WasmLowering.Lower.Registers
import WasmLowering.Manifest
import WasmLowering.Operator
import WasmLowering.Proofs.AcceptedItems
import WasmLowering.Proofs.AcceptedModules
import WasmLowering.Proofs.Accepting
import WasmLowering.Proofs.Alignment
import WasmLowering.Proofs.Blame
import WasmLowering.Proofs.BufferLayout
import WasmLowering.Proofs.CheckedCode
import WasmLowering.Proofs.Checking
import WasmLowering.Proofs.CodeTyping
import WasmLowering.Proofs.Decoding
import WasmLowering.Proofs.DefinedTypes
import WasmLowering.Proofs.Detection
import WasmLowering.Proofs.Effects
import WasmLowering.Proofs.Emission
import WasmLowering.Proofs.Evaluation
import WasmLowering.Proofs.Following
import WasmLowering.Proofs.FrameBalance
import WasmLowering.Proofs.Framing
import WasmLowering.Proofs.ImportKeys
import WasmLowering.Proofs.IndexStability
import WasmLowering.Proofs.Interface
import WasmLowering.Proofs.ItemChecking
import WasmLowering.Proofs.KindRecovery
import WasmLowering.Proofs.Kinding
import WasmLowering.Proofs.Lowering
import WasmLowering.Proofs.Machine
import WasmLowering.Proofs.Memory
import WasmLowering.Proofs.ModuleTyping
import WasmLowering.Proofs.Observation
import WasmLowering.Proofs.OrderlyLowering
import WasmLowering.Proofs.Preservation
import WasmLowering.Proofs.Provision
import WasmLowering.Proofs.Reading
import WasmLowering.Proofs.Resolution
import WasmLowering.Proofs.Simulation
import WasmLowering.Proofs.TraceFrame
import WasmLowering.Proofs.Trails
import WasmLowering.Proofs.TypeSafety
import WasmLowering.Proofs.Validation
import WasmLowering.Scope
import WasmLowering.Segment
import WasmLowering.SourceUnit
import WasmLowering.Text.Blank
import WasmLowering.Text.Digits
import WasmLowering.Text.Json
import WasmLowering.Text.Search
import WasmLowering.Toml.Document
import WasmLowering.Toml.Quoted
import WasmLowering.Toml.Scalar
import WasmLowering.Toml.Table
import WasmLowering.Trace
import WasmLowering.Value
import WasmLowering.Wasm.Blocks
import WasmLowering.Wasm.Component.Assemble
import WasmLowering.Wasm.Component.Boundary
import WasmLowering.Wasm.Component.Context
import WasmLowering.Wasm.Component.Match
import WasmLowering.Wasm.Component.Name
import WasmLowering.Wasm.Component.Naming
import WasmLowering.Wasm.Component.Reader
import WasmLowering.Wasm.Component.Resource
import WasmLowering.Wasm.Component.Sort
import WasmLowering.Wasm.Component.Type
import WasmLowering.Wasm.Component.Version
import WasmLowering.Wasm.Component.Violation
import WasmLowering.Wasm.Declarations
import WasmLowering.Wasm.Decode
import WasmLowering.Wasm.Encode
import WasmLowering.Wasm.Instr
import WasmLowering.Wasm.ItemSort
import WasmLowering.Wasm.ItemType
import WasmLowering.Wasm.Items
import WasmLowering.Wasm.Leb128
import WasmLowering.Wasm.Listing
import WasmLowering.Wasm.Mnemonic
import WasmLowering.Wasm.Module
import WasmLowering.Wasm.ModuleContext
import WasmLowering.Wasm.Nesting
import WasmLowering.Wasm.OpcodeTables
import WasmLowering.Wasm.Opcodes
import WasmLowering.Wasm.Operation
import WasmLowering.Wasm.Payload
import WasmLowering.Wasm.Reader
import WasmLowering.Wasm.TypeDef
import WasmLowering.Wasm.TypeReader
import WasmLowering.Wasm.TypeSpace
import WasmLowering.Wasm.Typing
import WasmLowering.Wasm.ValType
import WasmLowering.Wasm.Validate
import WasmLowering.Wasm.Violation
import WasmLowering.Width
import WasmLowering.Proofs.CodeBounds
import WasmLowering.Proofs.StringData
import WasmLowering.Proofs.DeclaredWidths
import WasmLowering.Proofs.Representation
import WasmLowering.Proofs.Numbers
import WasmLowering.Proofs.Arithmetic
import WasmLowering.Proofs.FrameBracket
import WasmLowering.Proofs.Outline
import WasmLowering.Proofs.Summaries
import WasmLowering.Proofs.TypeIndices
import WasmLowering.Proofs.Conversion
import WasmLowering.Proofs.Folding
import WasmLowering.Proofs.InitialValues
import WasmLowering.Proofs.BufferElements
import WasmLowering.Proofs.LiteralGrammar
import WasmLowering.Proofs.Lowerable
import WasmLowering.Proofs.Interning
import WasmLowering.Proofs.ManifestReading
import WasmLowering.Proofs.Origins
