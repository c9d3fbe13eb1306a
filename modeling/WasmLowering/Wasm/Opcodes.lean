/-
# Opcode bytes

The byte of each instruction.  The operations on the two kinds are numbered in
the same order from two starting points, and the same holds for comparisons:

| kind  | comparisons from | arithmetic from |
|-------|------------------|-----------------|
| `i32` | `0x46`           | `0x6a`          |
| `i64` | `0x51`           | `0x7c`          |
-/

import WasmLowering.Wasm.Instr

namespace WasmLowering
namespace Wasm

/-- The byte of a kind as a value type. -/
def kindByte : Kind → UInt8
  | .i32 => 0x7f
  | .i64 => 0x7e

namespace IntOp

/-- The operations in the order of their opcodes. -/
def all : List IntOp :=
  [add, sub, mul, divS, divU, remS, remU, and, or, xor, shl, shrS, shrU]

/-- The opcode of addition at a kind. -/
def firstByte : Kind → UInt8
  | .i32 => 0x6a
  | .i64 => 0x7c

/-- The opcode of an operation at a kind. -/
def opcode (k : Kind) (op : IntOp) : UInt8 := firstByte k + (all.idxOf op).toUInt8

end IntOp

namespace IntRel

/-- The comparisons in the order of their opcodes. -/
def all : List IntRel := [eq, ne, ltS, ltU, gtS, gtU, leS, leU, geS, geU]

/-- The opcode of equality at a kind. -/
def firstByte : Kind → UInt8
  | .i32 => 0x46
  | .i64 => 0x51

/-- The opcode of a comparison at a kind. -/
def opcode (k : Kind) (rel : IntRel) : UInt8 := firstByte k + (all.idxOf rel).toUInt8

end IntRel

/-- The opcode of a conversion. -/
def Conversion.opcode : Conversion → UInt8
  | .wrap => 0xa7
  | .extendS => 0xac
  | .extendU => 0xad

/-- The opcode of a read. -/
def LoadOp.opcode : LoadOp → UInt8
  | .word32 => 0x28
  | .word64 => 0x29
  | .byte => 0x2d
  | .half => 0x2f

/-- The opcode of a write. -/
def StoreOp.opcode : StoreOp → UInt8
  | .word32 => 0x36
  | .word64 => 0x37
  | .byte => 0x3a
  | .half => 0x3b

end Wasm
end WasmLowering
