/-
# Why a module is refused

A module is refused at a byte offset and for a cause.  The causes fall into the
classes below.

| class        | causes                                                          |
|--------------|-----------------------------------------------------------------|
| stack        | a value of the wrong type, no value, values left at a block end |
| index space  | an index past the end of its index space                        |
| declaration  | a type, limit or item that does not fit what it refers to       |
| framing      | sections out of order, cut short, too long, or out of step      |
| encoding     | a number, name, type or opcode that cannot be read              |
| component    | parts of a component that do not fit together                   |
| feature      | a type or an instruction that is not supported                  |

A hint goes with a cause by what its wording contains.
-/

import WasmLowering.Text.Search
import WasmLowering.Wasm.Component.Violation

namespace WasmLowering
namespace Wasm

/-- The integer encodings of the binary format. -/
inductive VarInt where
  | u32
  | u64
  | s32
  | s33
  | s64
  deriving DecidableEq, Repr

/-- The name of an integer encoding in messages. -/
def VarInt.text : VarInt → String
  | .u32 => "var_u32"
  | .u64 => "var_u64"
  | .s32 => "var_i32"
  | .s33 => "var_s33"
  | .s64 => "var_i64"

/-- Instructions that can be read but are not supported. -/
inductive Feature where
  | legacyExceptions
  | stackSwitching
  | memoryControl
  | wideArithmetic
  | customDescriptors
  | sharedEverything
  deriving DecidableEq, Repr

/-- The name of a feature in messages. -/
def Feature.text : Feature → String
  | .legacyExceptions => "legacy exceptions"
  | .stackSwitching => "stack switching"
  | .memoryControl => "memory control"
  | .wideArithmetic => "wide arithmetic"
  | .customDescriptors => "custom descriptors operations"
  | .sharedEverything => "shared-everything-threads"

/-- A cause for refusing a module. -/
inductive Violation where
  -- Operands.
  /-- A value of type `found` stands where one of type `expected` is popped. -/
  | typeMismatch (expected found : ValType)
  /-- Nothing stands where a value is popped; `none` accepts any type. -/
  | missingOperand (expected : Option ValType)
  /-- A block ends above values that are not among its results. -/
  | leftoverOperands
  /-- A reference stands where a value of another type is popped. -/
  | refFound (expected : ValType)
  /-- A value of another type stands where a reference is popped. -/
  | refExpected (found : ValType)
  /-- A reference is not of a type below the one that is wanted. -/
  | notBelow (bound found : RefType)
  /-- A reference in code that is never run is not of a type below the one that is wanted. -/
  | heapNotBelow (bound found : HeapType)
  /-- One of two references that are compared is shared and the other is not. -/
  | sharedWithUnshared
  | selectOfRefs
  | selectOfTwoTypes
  | selectArity
  -- Labels.
  | branchTableArity
  | catchArity
  | catchRefArity
  | catchAllArity
  | catchAllRefArity
  /-- The label of a handler does not take a reference to an exception. -/
  | catchAllRefLabel
  | nonNullWithoutLabel
  | nonNullLabel
  | castUpward (source target : RefType)
  | castLabel (target : RefType) (label : ValType)
  | castWithoutLabel
  | castFailLabel (label : ValType) (found : RefType)
  | castFailWithoutLabel
  | castToContinuation
  | tailCallResults (caller callee : List ValType)
  -- Index spaces.
  | unknownLocal (index : Nat)
  | unsetLocal (index : Nat)
  | unknownFunction (index : Nat)
  /-- An item of a section names a function that is not there. -/
  | unknownItemFunction (index : Nat)
  | undeclaredFunction
  | unknownGlobal
  | immutableGlobal
  | unknownLabel
  | unknownMemory (index : Nat)
  /-- A data segment for a memory that is not there. -/
  | unknownSegmentMemory (index : Nat)
  | unknownTable (index : Nat)
  | unknownTag (index : Nat)
  | unknownElements (index : Nat)
  | unknownData (index : Nat)
  | unknownType (index : Nat)
  /-- An instruction names a type that is not there. -/
  | unknownCodeType
  | unknownField
  /-- A constant expression reads a global that does not precede it. -/
  | unknownConstGlobal (index : Nat)
  | unknownExport (sort : ItemSort) (index : Nat)
  | duplicateExport (name : String)
  -- Types.
  | notFunctionType (index : Nat)
  /-- A type is not of the shape that an instruction works on. -/
  | shapeMismatch (wanted : String) (index : Nat) (found : TypeDef)
  | packedField
  | packedElement
  /-- An instruction extends what is not packed. -/
  | wholeField (instruction : String)
  | immutableField
  | immutableArray
  | fieldWithoutDefault (type : ValType)
  | elementWithoutDefault (type : ValType)
  | tableWithoutDefault
  | dataForRefs
  | elementsForData
  | dataIntoRefs
  | elementsIntoData
  | newElementsMismatch (elements : Nat) (expected found : RefType)
  | initElementsMismatch (elements : Nat) (expected found : RefType)
  | arrayMismatch (target source : Storage)
  | indirectCallTable
  | tableMismatch
  | elementMismatch (element table : RefType)
  | finalParent
  | parentOrder
  | parentMismatch
  /-- A type describes one that does not precede it. -/
  | describesLater
  | deepHierarchy (depth limit : Nat)
  | typeIndexLimit
  /-- The index of an exact type within the type of a reference is too large. -/
  | exactIndexLimit
  /-- The index of an exact type that a branch on a cast names is too large. -/
  | castIndexLimit
  -- Limits.
  /-- A count that is read is above its limit. -/
  | sizeLimit (what : String)
  /-- An index space would grow above its limit. -/
  | countLimit (what : String) (limit : Nat)
  | typeSizeLimit (limit : Nat)
  | tooManyLocals
  | tooManyData
  | memoryTooLarge (pages : Nat)
  | tableTooLarge (entries : Nat)
  | limitsCrossed
  | unboundedShared
  | customPages
  | badPageSize
  | offsetTooLarge
  | startSignature
  | tagSignature
  | missingDataCount
  -- Framing.
  | endOfFile
  | inconsistentCounts
  | missingCode
  | missingFunctions
  | inconsistentData
  | missingData
  | sectionOrder
  | sectionLeftover
  /-- A section of one number holds more. -/
  | singleLeftover (what : String)
  | codeLeftover
  | badMagic (found : List Nat)
  | badVersion (version : Nat)
  | magicAsSection
  | badSectionId
  | unknownSection (id : Nat)
  | sectionTooLarge
  | nestedTooLarge (layer : String)
  | layerMismatch (wanted : String)
  | secondStart
  -- Encoding.
  | integerTooLong (encoding : VarInt)
  | integerTooLarge (encoding : VarInt)
  | nameTooLong
  | badName
  /-- The first byte of something stands for nothing. -/
  | badLead (byte : Nat) (what : String)
  | badValueType
  | badHeapType
  | badAbstractType
  | badRefType
  | exactType
  | exactExport
  | compactImport (byte : Nat)
  | badBlockType
  | badContinuation
  | badFieldMutability
  | badGlobalFlags
  | badTag
  | badMemoryLimits
  | badTableLimits
  | badTable
  | badDataFlags
  | badElementFlags
  | badElementKind
  | badCastFlags (flags : Nat)
  | badLane
  | badFence
  | badOrdering (number : Nat)
  | badAlignment
  | alignmentTooLarge
  | alignmentNotNatural
  | illegalOpcode (byte : Nat)
  /-- The second number of an opcode of two numbers stands for no instruction. -/
  | illegalSubcode (lead sub : Nat)
  | notConstant (operator : String)
  | mutableConst
  /-- The mark of a second branch stands outside a conditional. -/
  | misplacedElse
  | codeAfterEnd
  | missingEnd
  | missingExprEnd
  -- Components.
  /-- An index past the end of an index space of a component. -/
  | unknownPart (what : String) (index : Nat) (space : String)
  | duplicateImport (module item : String)
  | duplicateArgument (name : String)
  | missingArgument (name : String)
  | missingArgumentItem (argument name : String)
  | argumentMismatch (argument name : String) (mismatch : ItemMismatch)
  | duplicateInstanceExport (name : String)
  | missingInstanceExport (index : Nat) (name : String)
  | instanceExportSort (index : Nat) (name : String) (wanted : ItemSort)
  | outerCount (count : Nat)
  | moduleAsType (index : Nat)
  | moduleTypeAlias
  | valuesDisabled
  | part (cause : PartViolation)
  -- Features.
  | disabled (feature : Feature)
  /-- An instruction of the older exceptions. -/
  | legacyInstruction (instruction : String)
  | sharedRef
  | contRef
  | exactRef
  | sharedType
  | sharedTable
  | sharedGlobal
  | contType
  | describedType
  deriving DecidableEq, Repr

namespace Violation

/-- A number in hexadecimal, without leading zeros. -/
def hex (n : Nat) : String := "0x" ++ String.ofList (Nat.toDigits 16 n)

/-- A text that is filled up with blanks in front. -/
def padded (width : Nat) (s : String) : String :=
  String.ofList (List.replicate (width - s.length) ' ') ++ s

/-- Bytes in hexadecimal, one to a line. -/
def hexLines (bytes : List Nat) : String :=
  "[\n" ++ String.join (bytes.map fun b => "    " ++ hex b ++ ",\n") ++ "]"

/-- A byte in binary. -/
def bits (n : Nat) : String :=
  let digits := Nat.toDigits 2 n
  String.ofList (List.replicate (8 - digits.length) '0' ++ digits)

/-- Types in brackets. -/
def typeList (ts : List ValType) : String :=
  "[" ++ String.intercalate " " (ts.map ValType.fullText) ++ "]"

/-- The wording of a cause. -/
def text : Violation → String
  | typeMismatch e f => s!"type mismatch: expected {e.text}, found {f.text}"
  | missingOperand (some t) => s!"type mismatch: expected {t.text} but nothing on stack"
  | missingOperand none => "type mismatch: expected a type but nothing on stack"
  | leftoverOperands => "type mismatch: values remaining on stack at end of block"
  | refFound e => s!"type mismatch: expected {e.text}, found heap type"
  | refExpected f => s!"type mismatch: expected ref but found {f.text}"
  | notBelow b f => s!"type mismatch: expected subtype of {b.fullText}, found {f.fullText}"
  | heapNotBelow b f =>
    "type mismatch: expected subtype of " ++ b.text toString ++ ", found " ++ f.text toString
  | sharedWithUnshared => "type mismatch: expected `ref.eq` types to match `shared`-ness"
  | selectOfRefs => "type mismatch: select only takes integral types"
  | selectOfTwoTypes => "type mismatch: select operands have different types"
  | selectArity => "invalid result arity"
  | branchTableArity => "type mismatch: br_table target labels have different number of types"
  | catchArity => "type mismatch: catch label must have same number of types as tag"
  | catchRefArity => "type mismatch: catch_ref label must have one more type than tag types"
  | catchAllArity => "type mismatch: catch_all label must have no result types"
  | catchAllRefArity => "type mismatch: catch_all_ref label must have exactly one result type"
  | catchAllRefLabel => "type mismatch: catch_all_ref label must a subtype of (ref exn)"
  | nonNullWithoutLabel => "type mismatch: br_on_non_null target has no label types"
  | nonNullLabel => "type mismatch: br_on_non_null target does not end with heap type"
  | castUpward s t => s!"type mismatch: expected {s.fullText}, found {t.fullText}"
  | castLabel t l =>
    s!"type mismatch: casting to type {t.fullText}, " ++
    s!"but it does not match label result type {l.fullText}"
  | castWithoutLabel =>
    "type mismatch: br_on_cast to label with empty types, must have a reference type"
  | castFailLabel l f =>
    s!"type mismatch: expected label result type {l.fullText}, found {f.fullText}"
  | castFailWithoutLabel => "type mismatch: expected a reference type, found nothing"
  | castToContinuation => "invalid cast: cannot cast to a continuation type"
  | tailCallResults caller callee =>
    "type mismatch: current function requires result type " ++ typeList caller ++
    " but callee returns " ++ typeList callee
  | unknownLocal i => s!"unknown local {i}: local index out of bounds"
  | unsetLocal i => s!"uninitialized local: {i}"
  | unknownFunction i => s!"unknown function {i}: function index out of bounds"
  | unknownItemFunction i => s!"unknown function {i}: func index out of bounds"
  | undeclaredFunction => "undeclared function reference"
  | unknownGlobal => "unknown global: global index out of bounds"
  | immutableGlobal => "global is immutable: cannot modify it with `global.set`"
  | unknownLabel => "unknown label: branch depth too large"
  | unknownMemory i => s!"unknown memory {i}"
  | unknownSegmentMemory i => s!"unknown memory {i}: memory index out of bounds"
  | unknownTable i => s!"unknown table {i}: table index out of bounds"
  | unknownTag i => s!"unknown tag {i}: tag index out of bounds"
  | unknownElements i => s!"unknown elem segment {i}: segment index out of bounds"
  | unknownData i => s!"unknown data segment {i}"
  | unknownType i => s!"unknown type {i}: type index out of bounds"
  | unknownCodeType => "unknown type: type index out of bounds"
  | unknownField => "unknown field: field index out of bounds"
  | unknownConstGlobal i => s!"unknown global {i}: global index out of bounds"
  | unknownExport sort i => s!"unknown {sort.text} {i}: exported {sort.text} index out of bounds"
  | duplicateExport name => s!"duplicate export name `{name}` already defined"
  | notFunctionType i => s!"type index {i} is not a function type"
  | shapeMismatch wanted i d => s!"expected {wanted} type at index {i}, found {d.text}"
  | packedField => "can only use struct `get` with non-packed storage types"
  | packedElement => "cannot use array.get with packed storage types"
  | wholeField instruction => s!"cannot use {instruction} with non-packed storage types"
  | immutableField => "invalid struct modification: struct field is immutable"
  | immutableArray => "invalid array modification: array is immutable"
  | fieldWithoutDefault t => s!"invalid `struct.new_default`: {t.fullText} field is not defaultable"
  | elementWithoutDefault t => s!"invalid `array.new_default`: {t.fullText} field is not defaultable"
  | tableWithoutDefault => "type mismatch: non-defaultable element type"
  | dataForRefs =>
    "type mismatch: array.new_data can only create arrays with numeric and vector elements"
  | elementsForData =>
    "type mismatch: array.new_elem can only create arrays with reference elements"
  | dataIntoRefs => "invalid array.init_data: array type is not numeric or vector"
  | elementsIntoData =>
    "type mismatch: array.init_elem can only create arrays with reference elements"
  | newElementsMismatch i e f =>
    s!"invalid array.new_elem instruction: element segment {i} type mismatch: " ++
    s!"expected {e.fullText}, found {f.fullText}"
  | initElementsMismatch i e f =>
    s!"invalid array.init_elem instruction: element segment {i} type mismatch: " ++
    s!"expected {e.fullText}, found {f.fullText}"
  | arrayMismatch t s => s!"array types do not match: expected {t.text}, found {s.text}"
  | indirectCallTable =>
    "type mismatch: indirect calls must go through a table with type <= funcref"
  | tableMismatch => "type mismatch"
  | elementMismatch e t =>
    s!"type mismatch: invalid element type `{e.text}` for table type `{t.text}`"
  | finalParent => "sub type cannot have a final super type"
  | parentOrder => "supertypes must be defined before subtypes"
  | parentMismatch => "sub type must match super type"
  | describesLater => "forward describes reference"
  | deepHierarchy depth limit =>
    s!"sub type hierarchy too deep: found depth {depth}, cannot exceed depth {limit}"
  | typeIndexLimit => "type index greater than implementation limits"
  | exactIndexLimit => "type index too large"
  | castIndexLimit => "implementation error: type index too large"
  | sizeLimit what => s!"{what} size is out of bounds"
  | countLimit what limit => s!"{what} count exceeds limit of {limit}"
  | typeSizeLimit limit => s!"effective type size exceeds the limit of {limit}"
  | tooManyLocals => "too many locals: locals exceed maximum"
  | tooManyData => "data count section specifies too many data segments"
  | memoryTooLarge pages => s!"memory size must be at most {hex pages} 65536-byte pages"
  | tableTooLarge entries => s!"table size must be at most {hex entries} entries"
  | limitsCrossed => "size minimum must not be greater than maximum"
  | unboundedShared => "shared memory must have maximum size"
  | customPages =>
    "the custom page sizes proposal must be enabled to customize a memory's page size"
  | badPageSize => "invalid custom page size"
  | offsetTooLarge => "offset out of range: must be <= 2**32"
  | startSignature => "invalid start function type"
  | tagSignature => "invalid exception type: non-empty tag result type"
  | missingDataCount => "data count section required"
  | endOfFile => "unexpected end-of-file"
  | inconsistentCounts => "function and code section have inconsistent lengths"
  | missingCode => "function section has non-zero count but code section is absent"
  | missingFunctions => "function section is absent but code section has non-zero count"
  | inconsistentData => "data count and data section have inconsistent lengths"
  | missingData => "data count is non-zero but data section is absent"
  | sectionOrder => "section out of order"
  | sectionLeftover => "section size mismatch: unexpected data at the end of the section"
  | singleLeftover what => s!"unexpected content in the {what} section"
  | codeLeftover => "trailing bytes at end of section"
  | badMagic found =>
    "magic header not detected: bad magic number - expected=" ++ hexLines [0x00, 0x61, 0x73, 0x6d]
    ++ " actual=" ++ hexLines found
  | badVersion version => "unknown binary version: " ++ padded 10 (hex version)
  | magicAsSection => "expected section, got wasm magic number"
  | badSectionId => "malformed section id"
  | unknownSection id => s!"malformed section id: {id}"
  | sectionTooLarge => "section too large"
  | nestedTooLarge layer => s!"{layer} section is too large"
  | layerMismatch wanted => s!"expected a version header for a {wanted}"
  | secondStart => "component cannot have more than one start function"
  | integerTooLong e => s!"invalid {e.text}: integer representation too long"
  | integerTooLarge e => s!"invalid {e.text}: integer too large"
  | nameTooLong => "string size out of bounds"
  | badName => "malformed UTF-8 encoding"
  | badLead b what => s!"invalid leading byte ({hex b}) for {what}"
  | badValueType => "invalid value type"
  | badHeapType => "invalid heap type"
  | badAbstractType => "invalid abstract heap type"
  | badRefType => "malformed reference type"
  | exactType => "unexpected exact type"
  | exactExport => "Exact type is not allowed in the exports"
  | compactImport b =>
    "invalid leading byte 0x" ++ (String.ofList (Nat.toDigits 16 b)).toUpper ++
    " with compact imports proposal disabled"
  | badBlockType => "invalid function type"
  | badContinuation => "invalid continuation type"
  | badFieldMutability => "malformed mutability byte for field type"
  | badGlobalFlags => "malformed global flags"
  | badTag => "invalid tag attributes"
  | badMemoryLimits => "invalid memory limits flags"
  | badTableLimits => "invalid table resizable limits flags"
  | badTable => "invalid table encoding"
  | badDataFlags => "invalid flags byte in data segment"
  | badElementFlags => "invalid flags byte in element segment"
  | badElementKind => "only the function external type is supported in elem segment"
  | badCastFlags flags => "invalid cast flags: " ++ bits flags
  | badLane => "SIMD index out of bounds"
  | badFence => "nonzero byte after `atomic.fence`"
  | badOrdering n => s!"invalid atomic consistency ordering {n}"
  | badAlignment => "malformed memop alignment: alignment too large"
  | alignmentTooLarge => "invalid memop alignment: alignment must not be larger than natural"
  | alignmentNotNatural => "atomic instructions must always specify maximum alignment"
  | illegalOpcode b => s!"illegal opcode: {hex b}"
  | illegalSubcode lead sub => s!"unknown {hex lead} subopcode: {hex sub}"
  | notConstant operator => s!"constant expression required: non-constant operator: {operator}"
  | mutableConst => "constant expression required: global.get of mutable global"
  | misplacedElse => "`else` found outside `If` block"
  | codeAfterEnd => "operators remaining after end of function body or expression"
  | missingEnd => "control frames remain at end of function body or expression"
  | missingExprEnd => "control frames remain at end of expression"
  | unknownPart what i space => s!"unknown {what} {i}: {space} index out of bounds"
  | duplicateImport m i =>
    s!"module has a duplicate import name `{m}:{i}` that is not allowed in components"
  | duplicateArgument name => s!"duplicate module instantiation argument named `{name}`"
  | missingArgument name => s!"missing module instantiation argument named `{name}`"
  | missingArgumentItem argument name =>
    s!"module instantiation argument `{argument}` does not export an item named `{name}`"
  | argumentMismatch argument name mismatch =>
    s!"type mismatch for export `{name}` of module instantiation argument `{argument}`\n" ++
    mismatch.text
  | duplicateInstanceExport name =>
    s!"duplicate instantiation export name `{name}` already defined"
  | missingInstanceExport i name => s!"core instance {i} has no export named `{name}`"
  | instanceExportSort i name wanted =>
    s!"export `{name}` for core instance {i} is not a {wanted.text}"
  | outerCount count => s!"invalid outer alias count of {count}"
  | moduleAsType i => s!"type index {i} is a module type, not a sub type"
  | moduleTypeAlias =>
    "not implemented: aliasing core module types into a core module's types index space"
  | part cause => cause.text
  | valuesDisabled => "support for component model `value`s is not enabled"
  | disabled feature => s!"{feature.text} support is not enabled"
  | legacyInstruction instruction =>
    s!"legacy_exceptions feature required for {instruction} instruction"
  | sharedRef => "shared reference types require the shared-everything-threads proposal"
  | contRef => "continuation refs not supported without the stack switching feature"
  | exactRef => "custom descriptors required for exact reference types"
  | sharedType => "shared composite types require the shared-everything-threads proposal"
  | sharedTable => "shared tables require the shared-everything-threads proposal"
  | sharedGlobal => "shared globals require the shared-everything-threads proposal"
  | contType => "cannot define continuation types when stack switching is disabled"
  | describedType => "custom descriptors proposal must be enabled to use descriptor and describes"

/-- The parts of a wording that call for a hint, in order of precedence. -/
def hints : List (String × String) :=
  [ ("type mismatch",
      "Check that every lowered expression leaves exactly one value and branch widths agree")
  , ("unknown function", "Check the type/function index alignment of the linker state")
  , ("unknown global", "Check that global initializers only read imported globals")
  , ("unknown local",
      "Check the local layout: parameters, scratch registers, declared locals, frame slots") ]

/-- The hint that goes with a cause. -/
def hint? (v : Violation) : Option String :=
  (hints.find? fun h => Text.contains v.text h.1).map Prod.snd

end Violation

/-- The first reason to refuse a module, and the byte where it shows. -/
structure Rejection where
  offset : Nat
  cause : Violation
  deriving DecidableEq, Repr

end Wasm
end WasmLowering
