/-
# Reading types

The types of the binary format.  A type starts with a byte that tells its form;
the abstract heap types have bytes of their own, and any other heap type is the
index of a defined type.

| byte        | value type        | byte       | defined type              |
|-------------|-------------------|------------|---------------------------|
| `7f`, `7e`  | `i32`, `i64`      | `60`       | a function                |
| `7d`, `7c`  | `f32`, `f64`      | `5f`       | a structure               |
| `7b`        | `v128`            | `5e`       | an array                  |
| `64`        | `ref`             | `5d`       | a continuation            |
| `63`        | `ref null`        | `50`, `4f` | one with, without subtypes |
| a heap type | `ref null` to it  | `4e`       | a group of defined types  |
| `65`        | a shared type     | `65`       | a shared type             |
| `62`        | an exact type     | `4c`, `4d` | one linked to another     |

A type that cannot be read is refused for what was looked for: a value type, a
reference type or a heap type.
-/

import WasmLowering.Wasm.Opcodes
import WasmLowering.Wasm.Reader
import WasmLowering.Wasm.TypeSpace

namespace WasmLowering
namespace Wasm

/-- The abstract heap type with a byte. -/
def HeapType.ofByte? : UInt8 → Option HeapType
  | 0x75 => some .noCont
  | 0x74 => some .noExn
  | 0x73 => some .noFunc
  | 0x72 => some .noExternal
  | 0x71 => some .noAny
  | 0x70 => some .func
  | 0x6f => some .external
  | 0x6e => some .any
  | 0x6d => some .eq
  | 0x6c => some .i31
  | 0x6b => some .struct
  | 0x6a => some .array
  | 0x69 => some .exn
  | 0x68 => some .cont
  | _ => none

/-- The number or vector type with a byte. -/
def ValType.ofByte? : UInt8 → Option ValType
  | 0x7f => some .i32
  | 0x7e => some .i64
  | 0x7d => some .f32
  | 0x7c => some .f64
  | 0x7b => some .v128
  | _ => none

/-- **The type of a kind is read back from its byte.** -/
@[simp] theorem ValType.ofByte?_kindByte (k : Kind) :
    ValType.ofByte? (kindByte k) = some (.ofKind k) := by
  cases k <;> rfl

/-- The type of a block as it is written. -/
inductive BlockType where
  | empty
  | value (type : ValType)
  /-- The type of functions with an index. -/
  | index (type : Nat)
  deriving DecidableEq, Repr

/-- The least size of a memory or a table, its greatest if it has one, and the type of its indices. -/
structure Limits where
  least : Nat
  most : Option Nat
  address : ValType
  deriving DecidableEq, Repr

/-- The type of a memory. -/
structure MemoryType where
  limits : Limits
  isShared : Bool
  /-- The binary logarithm of the size of a page, if it is written. -/
  pageSize : Option Nat
  deriving DecidableEq, Repr

/-- The type of a table. -/
structure TableType where
  element : RefType
  limits : Limits
  isShared : Bool
  deriving DecidableEq, Repr

/-- The type of a global. -/
structure GlobalType where
  type : ValType
  isMutable : Bool
  isShared : Bool
  deriving DecidableEq, Repr

namespace Reader

/-- An index of a type that was just taken. -/
def bounded (index : Nat) : Reader Nat := do
  if HeapType.indexBound ≤ index then refuse (← position) .typeIndexLimit
  return index

/-- Takes an abstract heap type; anything else is refused for a cause. -/
def abstractType (bad : Violation) : Reader HeapType := do
  let here ← position
  match HeapType.ofByte? (← byte) with
  | some h => return h
  | none => refuse here bad

/-- Why a shared heap type is refused where another one would be refused for a cause. -/
def badShared (bad : Violation) : Violation := if bad = .badHeapType then .badAbstractType else bad

/-- Takes a heap type, which is refused for a cause if there is none.  An index is a number that is
not negative; the forms of the other types would be read as negative numbers. -/
def heapType (bad : Violation) : Reader HeapType := do
  let start ← get
  match ← s33 with
  | .ofNat n => return .defined (← bounded n)
  | .negSucc _ =>
    set start
    match ← peek with
    | 0x65 =>
      let _ ← byte
      return .shared (← abstractType (badShared bad))
    | 0x62 =>
      let _ ← byte
      return .exact (← u32)
    | _ => abstractType bad

/-- Takes the heap type after the mark of a reference, which stands at an offset. -/
def referent (here : Nat) (bad : Violation) : Reader HeapType := do
  let _ ← byte
  let h ← heapType bad
  if h.isBeyond then refuse here .exactIndexLimit
  return h

/-- Takes the type of a reference, which is refused for one cause if a heap type is missing after the
mark of a reference, and for another if there is no mark.  An exact type needs the mark. -/
def refTypeOr (badHeap badRef : Violation) : Reader RefType := do
  let here ← position
  match ← peek with
  | 0x64 => return .nonNull (← referent here badHeap)
  | 0x63 => return .null (← referent here badHeap)
  | 0x62 => refuse here .exactType
  | _ => return .null (← heapType badRef)

/-- Takes the type of a reference. -/
def refType : Reader RefType := refTypeOr .badHeapType .badRefType

/-- Takes a value type. -/
def valType : Reader ValType := do
  match ValType.ofByte? (← peek) with
  | some t =>
    let _ ← byte
    return t
  | none => return .ref (← refTypeOr .badValueType .badValueType)

/-- Takes the type of a block.  A byte that would be read as a negative number is a value type. -/
def blockType : Reader BlockType := do
  let b ← peek
  if b = 0x40 then
    let _ ← byte
    return .empty
  if 0x40 ≤ b ∧ b < 0x80 then return .value (← valType)
  match ← s33 with
  | .ofNat n => return .index n
  | .negSucc _ => refuse (← position) .badBlockType

/-- Takes the type of a global.  Its flags tell whether it may be written and whether it is shared. -/
def globalType : Reader GlobalType := do
  let type ← valType
  let here ← position
  let flags := (← byte).toNat
  if 4 ≤ flags then refuse here .badGlobalFlags
  return { type, isMutable := flags.testBit 0, isShared := flags.testBit 1 }

/-- Takes limits after their flags: the lowest tells of a maximum, the third of 64-bit indices. -/
def limits (flags : Nat) : Reader Limits := do
  let least ← u64
  let most ← if flags.testBit 0 then some <$> u64 else pure none
  return { least, most, address := if flags.testBit 2 then .i64 else .i32 }

/-- Takes the type of a memory. -/
def memoryType : Reader MemoryType := do
  let here ← position
  let flags := (← byte).toNat
  if 16 ≤ flags then refuse here .badMemoryLimits
  let limits ← limits flags
  let pageSize ← if flags.testBit 3 then some <$> u32 else pure none
  if pageSize.any (64 ≤ ·) then refuse here .badPageSize
  return { limits, isShared := flags.testBit 1, pageSize }

/-- Takes the type of a table. -/
def tableType : Reader TableType := do
  let element ← refType
  let here ← position
  let flags := (← byte).toNat
  if 8 ≤ flags then refuse here .badTableLimits
  return { element, limits := ← limits flags, isShared := flags.testBit 1 }

/-- Takes the index of the type of a tag. -/
def tagType : Reader Nat := do
  let here ← position
  if (← byte) ≠ 0x00 then refuse here .badTag
  u32

/-- Takes how words are kept in a field. -/
def storage : Reader Storage := do
  match ← peek with
  | 0x78 =>
    let _ ← byte
    return .byte
  | 0x77 =>
    let _ ← byte
    return .half
  | _ => return .whole (← valType)

/-- Takes a field. -/
def field : Reader Field := do
  let storage ← storage
  match ← byte with
  | 0x00 => return { storage, isMutable := false }
  | 0x01 => return { storage, isMutable := true }
  | _ => refuse (← position) .badFieldMutability

/-- The most parameters, and the most results, that a function may have. -/
def arityLimit : Nat := 1000

/-- The most fields that a structure may have. -/
def fieldLimit : Nat := 10000

/-- Takes the signature of a function. -/
def signature : Reader Signature := do
  let params ← limited arityLimit "function params" valType
  let results ← limited arityLimit "function returns" valType
  return { params, results }

/-- Takes the index of the type of the functions that a continuation goes on with. -/
def contType : Reader Nat := do
  match ← s33 with
  | .ofNat n => bounded n
  | .negSucc _ => refuse (← position) .badContinuation

/-- Takes the shape of a type. -/
def shape : Reader Shape := do
  let here ← position
  match ← byte with
  | 0x60 => return .func (← signature)
  | 0x5f => return .struct (← limited fieldLimit "struct fields" field)
  | 0x5e => return .array (← field)
  | 0x5d => return .cont (← contType)
  | b => refuse here (.badLead b.toNat "type")

/-- Takes the mark with a byte, if it follows. -/
def marked (mark : UInt8) : Reader Bool := do
  if (← peek) = mark then
    let _ ← byte
    return true
  return false

/-- Takes the index of a type after a mark, if it follows. -/
def link (mark : UInt8) : Reader (Option Nat) := do
  if ← marked mark then return some (← bounded (← u32))
  return none

/-- Takes a type after what is said about its place. -/
def composite (isFinal : Bool) (parent : Option Nat) : Reader TypeDef := do
  let isShared ← marked 0x65
  let describes ← link 0x4c
  let descriptor ← link 0x4d
  return { isFinal, parent, isShared, describes, descriptor, shape := ← shape }

/-- Takes a type after the mark that tells whether others may be declared below it. -/
def declared (isFinal : Bool) : Reader TypeDef := do
  let parents ← limited 1 "supertype idxs" u32
  let parent ← parents.head?.mapM bounded
  composite isFinal parent

/-- Takes the definition of a type. -/
def typeDef : Reader TypeDef := do
  if ← marked 0x50 then declared false
  else if ← marked 0x4f then declared true
  else composite true none

/-- The most types that a group may have. -/
def groupLimit : Nat := 1000000

/-- Takes a group of types; a type outside a group is one of its own. -/
def typeGroup : Reader (List TypeDef) := do
  if ← marked 0x4e then limited groupLimit "rec group types" typeDef
  else return [← typeDef]

end Reader

end Wasm
end WasmLowering
