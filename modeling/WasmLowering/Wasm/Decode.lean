/-
# Reading instructions

The operations of a body or a constant expression, each with its offset.
Reading stops at the first instruction that cannot be read or may not stand
where it does, and the operations before it still count: whoever checks them may
find an earlier reason to refuse the module.

Instructions that are not supported are read with all that belongs to them.
-/

import WasmLowering.Wasm.Mnemonic
import WasmLowering.Wasm.OpcodeTables

namespace WasmLowering
namespace Wasm

/-- An operation, its offset and the numbers of its opcode. -/
structure Located where
  offset : Nat
  number : OpNumber
  operation : Operation
  deriving DecidableEq, Repr

/-- The name of an instruction. -/
def Located.mnemonic (o : Located) : String :=
  match o.operation with
  | .selectOf [_] => o.number.mnemonic
  | .selectOf _ => o.number.mnemonic ++ "_multi"
  | _ => o.number.mnemonic

/-- What an instruction is called that may not stand in a constant expression: all but the shared
reference to a small integer go by identifiers. -/
def Located.operator (o : Located) : String :=
  if o.number = ⟨0xfe, 0x72⟩ then o.mnemonic
  else "visit_" ++ o.mnemonic.map fun c => if c = '.' then '_' else c

namespace Decode

open Reader (u32)

/-- A computation with a fixed effect. -/
def computed (r : OpcodeRange) : Operation := .compute r.effect r.isConst

/-- A constant of a type. -/
def const (type : ValType) : Operation := .compute ⟨[], [type]⟩ true

/-- The number that alignment hints stay below. -/
def alignBound : Nat := 64

/-- Takes alignment, memory and offset of an access.  The bit above the alignment tells that the
memory is written; otherwise it is the first one. -/
def memoryAccess (isAtomic : Bool) (r : AccessRange) : Reader Access := do
  let here ← Reader.position
  let flags ← u32
  let isWritten := flags.testBit 6
  let memory ← if isWritten then u32 else pure 0
  let align := if isWritten then flags - alignBound else flags
  if alignBound ≤ align then Reader.refuse here .badAlignment
  return { memory, align, natural := r.natural, isAtomic, offset := ← Reader.u64, effect := r.effect }

/-- Takes the number of a lane. -/
def lane : Reader Nat := return (← Reader.byte).toNat

/-- Takes what a block catches. -/
def handler : Reader Handler := do
  let here ← Reader.position
  match ← Reader.byte with
  | 0x00 => return { tag := some (← u32), withRef := false, label := ← u32 }
  | 0x01 => return { tag := some (← u32), withRef := true, label := ← u32 }
  | 0x02 => return { tag := none, withRef := false, label := ← u32 }
  | 0x03 => return { tag := none, withRef := true, label := ← u32 }
  | b => Reader.refuse here (.badLead b.toNat "catch")

/-- The most targets of a branch by number. -/
def targetLimit : Nat := 7654321

/-- The most handlers of a block. -/
def handlerLimit : Nat := 10000

/-- The most types that a selection may write. -/
def selectLimit : Nat := 10

/-- Takes a heap type. -/
def heapType : Reader HeapType := Reader.heapType .badHeapType

/-- Checks a type that a branch on a cast with its flags at an offset names. -/
def checkCast (here : Nat) (h : HeapType) : Reader Unit := do
  if h.isBeyond then Reader.refuse here .castIndexLimit

/-- Takes depth, source and target of a branch on a cast. -/
def castTarget : Reader (Nat × RefType × RefType) := do
  let here ← Reader.position
  let flags := (← Reader.byte).toNat
  let depth ← u32
  if 4 ≤ flags then Reader.refuse here (.badCastFlags flags)
  let source ← heapType
  checkCast here source
  let target ← heapType
  checkCast here target
  return (depth, ⟨flags.testBit 0, source⟩, ⟨flags.testBit 1, target⟩)

/-- Takes the rest of a branch on a cast. -/
def branchOnCast (onFailure : Bool) : Reader Operation := do
  let (depth, source, target) ← castTarget
  return .brOnCast onFailure depth source target

/-- An instruction of a feature that is not supported, after what belongs to it. -/
def disabled {α : Type} (feature : Feature) (rest : Reader α) : Reader Operation := do
  let _ ← rest
  return .refused (.disabled feature) false

/-- Takes the rest of an instruction on structures, arrays or casts. -/
def managed (here : Nat) : (code : Nat) → Reader Operation
  | 0 => return .structNew (← u32)
  | 1 => return .structDefault (← u32)
  | 2 => return .structGet .whole (← u32) (← u32)
  | 3 => return .structGet .signed (← u32) (← u32)
  | 4 => return .structGet .unsigned (← u32) (← u32)
  | 5 => return .structSet (← u32) (← u32)
  | 6 => return .arrayNew (← u32)
  | 7 => return .arrayDefault (← u32)
  | 8 => return .arrayOf (← u32) (← u32)
  | 9 => return .arrayOfData (← u32) (← u32)
  | 10 => return .arrayOfElements (← u32) (← u32)
  | 11 => return .arrayGet .whole (← u32)
  | 12 => return .arrayGet .signed (← u32)
  | 13 => return .arrayGet .unsigned (← u32)
  | 14 => return .arraySet (← u32)
  | 15 => return .inspect [.array]
  | 16 => return .arrayFill (← u32)
  | 17 => return .arrayCopy (← u32) (← u32)
  | 18 => return .arrayInitData (← u32) (← u32)
  | 19 => return .arrayInitElements (← u32) (← u32)
  | 20 => return .refTest (.nonNull (← heapType))
  | 21 => return .refTest (.null (← heapType))
  | 22 => return .refCast (.nonNull (← heapType))
  | 23 => return .refCast (.null (← heapType))
  | 24 => branchOnCast false
  | 25 => branchOnCast true
  | 26 => return .anyOfExternal
  | 27 => return .externalOfAny
  | 28 => return .compute ⟨[.i32], [.ref (.nonNull .i31)]⟩ true
  | 29 | 30 => return .inspect [.i31]
  | 32 | 33 => do
    let _ ← u32
    return .refused (.disabled .customDescriptors) true
  | 34 => disabled .customDescriptors u32
  | 35 | 36 => disabled .customDescriptors heapType
  | 37 | 38 => disabled .customDescriptors castTarget
  | code => Reader.refuse here (.illegalSubcode 0xfb code)

/-- Takes the rest of a saturating conversion or a bulk operation. -/
def bulk (here : Nat) : (code : Nat) → Reader Operation
  | 8 => return .memoryInit (← u32) (← u32)
  | 9 => return .dataDrop (← u32)
  | 10 => return .memoryCopy (← u32) (← u32)
  | 11 => return .memoryFill (← u32)
  | 12 => return .tableInit (← u32) (← u32)
  | 13 => return .elementsDrop (← u32)
  | 14 => return .tableCopy (← u32) (← u32)
  | 15 => return .tableGrow (← u32)
  | 16 => return .tableSize (← u32)
  | 17 => return .tableFill (← u32)
  | 18 => disabled .memoryControl u32
  | 19 | 20 | 21 | 22 => return .refused (.disabled .wideArithmetic) false
  | code =>
    match OpcodeTables.range? OpcodeTables.saturating code with
    | some r => return computed r
    | none => Reader.refuse here (.illegalSubcode 0xfc code)

/-- Takes the rest of an instruction on vectors. -/
def vector (here : Nat) (code : Nat) : Reader Operation := do
  if code = 0x0c then
    let _ ← Reader.take 16
    return const .v128
  if code = 0x0d then return .shuffle (← Reader.many lane 16)
  match OpcodeTables.access? OpcodeTables.vectorAccess code with
  | some r => return .access (← memoryAccess false r) none
  | none =>
  match OpcodeTables.access? OpcodeTables.laneAccess code with
  | some r => return .access (← memoryAccess false r) (some (← lane))
  | none =>
  match OpcodeTables.lanes.find? fun r => r.1.first ≤ code ∧ code ≤ r.1.last with
  | some (r, lanes) => return .atLane (← lane) lanes r.effect
  | none =>
  match OpcodeTables.range? OpcodeTables.vector code with
  | some r => return computed r
  | none => Reader.refuse here (.illegalSubcode 0xfd code)

/-- Takes how strictly an atomic access is ordered. -/
def ordering : Reader Unit := do
  let n ← u32
  if 2 ≤ n then Reader.refuse ((← Reader.position) - 1) (.badOrdering n)

/-- Takes the rest of an atomic access. -/
def atomic (here : Nat) (code : Nat) : Reader Operation := do
  if code = 0x03 then
    if (← Reader.byte) ≠ 0x00 then Reader.refuse here .badFence
    return .compute ⟨[], []⟩ false
  if 0x4f ≤ code ∧ code ≤ 0x5b ∨ 0x67 ≤ code ∧ code ≤ 0x71 then
    ordering
    disabled .sharedEverything u32
  else if 0x5c ≤ code ∧ code ≤ 0x66 then
    ordering
    let _ ← u32
    disabled .sharedEverything u32
  else if code = 0x72 then return .refused (.disabled .sharedEverything) false
  else match OpcodeTables.access? OpcodeTables.atomicAccess code with
    | some r => return .access (← memoryAccess true r) none
    | none => Reader.refuse here (.illegalSubcode 0xfe code)

/-- Takes where a continuation goes on when it is suspended. -/
def resumption : Reader Unit := do
  let here ← Reader.position
  match ← Reader.byte with
  | 0x00 =>
    let _ ← u32
    let _ ← u32
  | 0x01 =>
    let _ ← u32
  | b => Reader.refuse here (.badLead b.toNat "on clause")

/-- Takes the rest of an instruction that works on continuations and names some types or tags. -/
def switching (indices : Nat) (hasTable : Bool) : Reader Operation := do
  let _ ← Reader.many u32 indices
  if hasTable then
    let _ ← Reader.limited handlerLimit "resume table" resumption
  return .refused (.disabled .stackSwitching) false

/-- Takes the rest of an instruction of one byte. -/
def plain (here : Nat) : UInt8 → Reader Operation
  | 0x00 => return .unreachable
  | 0x02 => return .block .block (← Reader.blockType)
  | 0x03 => return .block .loop (← Reader.blockType)
  | 0x04 => return .block .cond (← Reader.blockType)
  | 0x05 => return .otherwise
  | 0x06 => Reader.refuse here (.legacyInstruction "try")
  | 0x07 => Reader.refuse here (.legacyInstruction "catch")
  | 0x08 => return .throwTag (← u32)
  | 0x09 => disabled .legacyExceptions u32
  | 0x0a => return .throwRef
  | 0x0b => return .finish
  | 0x0c => return .br (← u32)
  | 0x0d => return .brIf (← u32)
  | 0x0e => do
    let depths ← Reader.limited targetLimit "br_table" u32
    return .brTable depths (← u32)
  | 0x0f => return .ret
  | 0x10 => return .call false (← u32)
  | 0x11 => return .callTable false (← u32) (← u32)
  | 0x12 => return .call true (← u32)
  | 0x13 => return .callTable true (← u32) (← u32)
  | 0x14 => return .callRef false (← u32)
  | 0x15 => return .callRef true (← u32)
  | 0x18 => Reader.refuse here (.legacyInstruction "delegate")
  | 0x19 => Reader.refuse here (.legacyInstruction "catch_all")
  | 0x1a => return .drop
  | 0x1b => return .select
  | 0x1c => return .selectOf (← Reader.limited selectLimit "select types" Reader.valType)
  | 0x1f => do
    let type ← Reader.blockType
    return .handle type (← Reader.limited handlerLimit "catches" handler)
  | 0x20 => return .localGet (← u32)
  | 0x21 => return .localSet (← u32)
  | 0x22 => return .localTee (← u32)
  | 0x23 => return .globalGet (← u32)
  | 0x24 => return .globalSet (← u32)
  | 0x25 => return .tableGet (← u32)
  | 0x26 => return .tableSet (← u32)
  | 0x3f => return .memorySize (← u32)
  | 0x40 => return .memoryGrow (← u32)
  | 0x41 => do
    let _ ← Reader.s32
    return const .i32
  | 0x42 => do
    let _ ← Reader.s64
    return const .i64
  | 0x43 => do
    let _ ← Reader.take 4
    return const .f32
  | 0x44 => do
    let _ ← Reader.take 8
    return const .f64
  | 0xd0 => return .refNull (← heapType)
  | 0xd1 => return .refIsNull
  | 0xd2 => return .refFunc (← u32)
  | 0xd3 => return .inspect [.eq, .eq]
  | 0xd4 => return .refAsNonNull
  | 0xd5 => return .brOnNull (← u32)
  | 0xd6 => return .brOnNonNull (← u32)
  | 0xe0 => switching 1 false
  | 0xe1 => switching 2 false
  | 0xe2 => switching 1 false
  | 0xe3 => switching 1 true
  | 0xe4 => switching 2 true
  | 0xe5 => switching 1 true
  | 0xe6 => switching 2 false
  | b => do
    match OpcodeTables.access? OpcodeTables.plainAccess b.toNat with
    | some r => return .access (← memoryAccess false r) none
    | none =>
      match OpcodeTables.range? OpcodeTables.plain b.toNat with
      | some r => return computed r
      | none => Reader.refuse here (.illegalOpcode b.toNat)

/-- Takes the second number of an opcode, and what follows. -/
def withCode (rest : Nat → Reader Operation) : Reader (Nat × Operation) := do
  let code ← u32
  return (code, ← rest code)

/-- Takes the rest of an instruction whose first byte stood at an offset, with its second number. -/
def immediates (here : Nat) (b : UInt8) : Reader (Nat × Operation) := do
  match b with
  | 0xfb => withCode (managed here)
  | 0xfc => withCode (bulk here)
  | 0xfd => withCode (vector here)
  | 0xfe => withCode (atomic here)
  | _ => return (0, ← plain here b)

/-- Takes an instruction among open blocks.  That it may not stand there shows after its first byte. -/
def operation (blocks : Nesting) : Reader (Located × Nesting) := do
  let here ← Reader.position
  let b ← Reader.byte
  if let some cause := blocks.misplaced? b then Reader.refuse (← Reader.position) cause
  let (sub, operation) ← immediates here b
  return (⟨here, ⟨b.toNat, sub⟩, operation⟩, blocks.after b)

/-- The operations of a body, and why reading stopped early if it did. -/
structure Code where
  operations : List Located
  stop : Option Rejection
  deriving DecidableEq, Repr

/-- Takes at most `limit` instructions among open blocks until the bytes end or one cannot be read.
No block may be open at the end, and nothing may follow the end of the outermost block. -/
def codeUpTo : (limit : Nat) → Nesting → Slice → Code
  | 0, blocks, s => ⟨[], if blocks.isEmpty then none else some ⟨s.offset, .missingEnd⟩⟩
  | limit + 1, blocks, s =>
    if s.bytes.isEmpty then ⟨[], if blocks.isEmpty then none else some ⟨s.offset, .missingEnd⟩⟩
    else if blocks.isEmpty then ⟨[], some ⟨s.offset, .codeAfterEnd⟩⟩
    else match operation blocks s with
      | .error r => ⟨[], some r⟩
      | .ok ((o, blocks), rest) =>
        let later := codeUpTo limit blocks rest
        ⟨o :: later.operations, later.stop⟩

/-- The operations of a slice: an instruction takes a byte. -/
def code (s : Slice) : Code := codeUpTo s.bytes.length .start s

/-- Takes instructions among open blocks up to the first closing mark, which is included and closes
the outermost block.  There is at most one for each of the bytes at hand. -/
def untilFinish : (bytes : Bytes) → Nesting → Reader (List Located)
  | [], _ => do Reader.refuse (← Reader.position) .endOfFile
  | _ :: bytes, blocks => do
    let (o, blocks) ← operation blocks
    if o.operation = .finish then
      unless blocks.isEmpty do Reader.refuse (← Reader.position) .missingExprEnd
      return [o]
    return o :: (← untilFinish bytes blocks)

/-- Takes a constant expression. -/
def constExpr : Reader (List Located) := do untilFinish (← get).bytes .start

end Decode

end Wasm
end WasmLowering
