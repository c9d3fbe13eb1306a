/-
# Tables of opcodes

Most opcodes have no immediates and a fixed effect, and opcodes that stand next
to each other share one: the tables list ranges.  Opcodes of two numbers start
with one of these bytes:

| byte | instructions                                        |
|------|-----------------------------------------------------|
| `fb` | structures, arrays, casts                           |
| `fc` | saturating conversions, bulk operations             |
| `fd` | vectors                                             |
| `fe` | atomic accesses                                     |

Accesses to a memory are listed with the binary logarithm of their size.
-/

import WasmLowering.Wasm.Operation

namespace WasmLowering
namespace Wasm

/-- Opcodes that share an effect. -/
structure OpcodeRange where
  first : Nat
  last : Nat
  effect : Effect
  /-- Whether constant expressions may use them. -/
  isConst : Bool
  deriving DecidableEq, Repr

/-- Opcodes that access memory in the same way. -/
structure AccessRange where
  first : Nat
  last : Nat
  natural : Nat
  effect : Effect
  deriving DecidableEq, Repr

namespace OpcodeTables

/-- Takes words of some types and leaves one. -/
def computes (first last : Nat) (takes : List ValType) (leaves : ValType) : OpcodeRange :=
  ⟨first, last, ⟨takes, [leaves]⟩, false⟩

/-- Takes words of some types and leaves one, also in constant expressions. -/
def folds (first last : Nat) (takes : List ValType) (leaves : ValType) : OpcodeRange :=
  ⟨first, last, ⟨takes, [leaves]⟩, true⟩

/-- The opcodes of one byte without immediates. -/
def plain : List OpcodeRange :=
  [ ⟨0x01, 0x01, ⟨[], []⟩, false⟩
  , computes 0x45 0x45 [.i32] .i32, computes 0x46 0x4f [.i32, .i32] .i32
  , computes 0x50 0x50 [.i64] .i32, computes 0x51 0x5a [.i64, .i64] .i32
  , computes 0x5b 0x60 [.f32, .f32] .i32, computes 0x61 0x66 [.f64, .f64] .i32
  , computes 0x67 0x69 [.i32] .i32
  , folds 0x6a 0x6c [.i32, .i32] .i32, computes 0x6d 0x78 [.i32, .i32] .i32
  , computes 0x79 0x7b [.i64] .i64
  , folds 0x7c 0x7e [.i64, .i64] .i64, computes 0x7f 0x8a [.i64, .i64] .i64
  , computes 0x8b 0x91 [.f32] .f32, computes 0x92 0x98 [.f32, .f32] .f32
  , computes 0x99 0x9f [.f64] .f64, computes 0xa0 0xa6 [.f64, .f64] .f64
  , computes 0xa7 0xa7 [.i64] .i32
  , computes 0xa8 0xa9 [.f32] .i32, computes 0xaa 0xab [.f64] .i32
  , computes 0xac 0xad [.i32] .i64
  , computes 0xae 0xaf [.f32] .i64, computes 0xb0 0xb1 [.f64] .i64
  , computes 0xb2 0xb3 [.i32] .f32, computes 0xb4 0xb5 [.i64] .f32
  , computes 0xb6 0xb6 [.f64] .f32
  , computes 0xb7 0xb8 [.i32] .f64, computes 0xb9 0xba [.i64] .f64
  , computes 0xbb 0xbb [.f32] .f64
  , computes 0xbc 0xbc [.f32] .i32, computes 0xbd 0xbd [.f64] .i64
  , computes 0xbe 0xbe [.i32] .f32, computes 0xbf 0xbf [.i64] .f64
  , computes 0xc0 0xc1 [.i32] .i32, computes 0xc2 0xc4 [.i64] .i64 ]

/-- Accesses that read a word. -/
def reads (first last natural : Nat) (type : ValType) : AccessRange :=
  ⟨first, last, natural, ⟨[], [type]⟩⟩

/-- Accesses that write a word. -/
def writes (first last natural : Nat) (type : ValType) : AccessRange :=
  ⟨first, last, natural, ⟨[type], []⟩⟩

/-- The opcodes of one byte that access memory. -/
def plainAccess : List AccessRange :=
  [ reads 0x28 0x28 2 .i32, reads 0x29 0x29 3 .i64, reads 0x2a 0x2a 2 .f32, reads 0x2b 0x2b 3 .f64
  , reads 0x2c 0x2d 0 .i32, reads 0x2e 0x2f 1 .i32
  , reads 0x30 0x31 0 .i64, reads 0x32 0x33 1 .i64, reads 0x34 0x35 2 .i64
  , writes 0x36 0x36 2 .i32, writes 0x37 0x37 3 .i64, writes 0x38 0x38 2 .f32
  , writes 0x39 0x39 3 .f64
  , writes 0x3a 0x3a 0 .i32, writes 0x3b 0x3b 1 .i32
  , writes 0x3c 0x3c 0 .i64, writes 0x3d 0x3d 1 .i64, writes 0x3e 0x3e 2 .i64 ]

/-- The saturating conversions, which follow `fc`. -/
def saturating : List OpcodeRange :=
  [ computes 0 1 [.f32] .i32, computes 2 3 [.f64] .i32
  , computes 4 5 [.f32] .i64, computes 6 7 [.f64] .i64 ]

/-- Takes one vector and leaves one. -/
def unary (first last : Nat) : OpcodeRange := computes first last [.v128] .v128

/-- Takes two vectors and leaves one. -/
def binary (first last : Nat) : OpcodeRange := computes first last [.v128, .v128] .v128

/-- Takes three vectors and leaves one. -/
def ternary (first last : Nat) : OpcodeRange := computes first last [.v128, .v128, .v128] .v128

/-- Takes a vector and leaves a word that tells something about it. -/
def tests (first last : Nat) : OpcodeRange := computes first last [.v128] .i32

/-- Takes a number of bits and a vector, and leaves a vector. -/
def shifts (first last : Nat) : OpcodeRange := computes first last [.i32, .v128] .v128

/-- The opcodes without immediates that follow `fd`. -/
def vector : List OpcodeRange :=
  [ binary 0x0e 0x0e
  , computes 0x0f 0x11 [.i32] .v128, computes 0x12 0x12 [.i64] .v128
  , computes 0x13 0x13 [.f32] .v128, computes 0x14 0x14 [.f64] .v128
  , binary 0x23 0x4c, unary 0x4d 0x4d, binary 0x4e 0x51, ternary 0x52 0x52, tests 0x53 0x53
  , unary 0x5e 0x62, tests 0x63 0x64, binary 0x65 0x66, unary 0x67 0x6a, shifts 0x6b 0x6d
  , binary 0x6e 0x73, unary 0x74 0x75, binary 0x76 0x79, unary 0x7a 0x7a, binary 0x7b 0x7b
  , unary 0x7c 0x81, binary 0x82 0x82, tests 0x83 0x84, binary 0x85 0x86, unary 0x87 0x8a
  , shifts 0x8b 0x8d, binary 0x8e 0x93, unary 0x94 0x94, binary 0x95 0x99, binary 0x9b 0x9f
  , unary 0xa0 0xa1, tests 0xa3 0xa4, unary 0xa7 0xaa, shifts 0xab 0xad, binary 0xae 0xae
  , binary 0xb1 0xb1, binary 0xb5 0xba, binary 0xbc 0xbf, unary 0xc0 0xc1, tests 0xc3 0xc4
  , unary 0xc7 0xca, shifts 0xcb 0xcd, binary 0xce 0xce, binary 0xd1 0xd1, binary 0xd5 0xdf
  , unary 0xe0 0xe1, unary 0xe3 0xe3, binary 0xe4 0xeb, unary 0xec 0xed, unary 0xef 0xef
  , binary 0xf0 0xf7, unary 0xf8 0xff, binary 0x100 0x100, unary 0x101 0x104
  , ternary 0x105 0x10c, binary 0x10d 0x112, ternary 0x113 0x113 ]

/-- The opcodes after `fd` that access a whole vector. -/
def vectorAccess : List AccessRange :=
  [ reads 0x00 0x00 4 .v128, reads 0x01 0x06 3 .v128
  , reads 0x07 0x07 0 .v128, reads 0x08 0x08 1 .v128, reads 0x09 0x09 2 .v128
  , reads 0x0a 0x0a 3 .v128, writes 0x0b 0x0b 4 .v128
  , reads 0x5c 0x5c 2 .v128, reads 0x5d 0x5d 3 .v128 ]

/-- The opcodes after `fd` that access one lane; a vector has `16` bytes. -/
def laneAccess : List AccessRange :=
  [ ⟨0x54, 0x54, 0, ⟨[.v128], [.v128]⟩⟩, ⟨0x55, 0x55, 1, ⟨[.v128], [.v128]⟩⟩
  , ⟨0x56, 0x56, 2, ⟨[.v128], [.v128]⟩⟩, ⟨0x57, 0x57, 3, ⟨[.v128], [.v128]⟩⟩
  , writes 0x58 0x58 0 .v128, writes 0x59 0x59 1 .v128
  , writes 0x5a 0x5a 2 .v128, writes 0x5b 0x5b 3 .v128 ]

/-- The opcodes after `fd` that get or set a lane, with the number of lanes. -/
def lanes : List (OpcodeRange × Nat) :=
  [ (computes 0x15 0x16 [.v128] .i32, 16), (computes 0x17 0x17 [.i32, .v128] .v128, 16)
  , (computes 0x18 0x19 [.v128] .i32, 8), (computes 0x1a 0x1a [.i32, .v128] .v128, 8)
  , (computes 0x1b 0x1b [.v128] .i32, 4), (computes 0x1c 0x1c [.i32, .v128] .v128, 4)
  , (computes 0x1d 0x1d [.v128] .i64, 2), (computes 0x1e 0x1e [.i64, .v128] .v128, 2)
  , (computes 0x1f 0x1f [.v128] .f32, 4), (computes 0x20 0x20 [.f32, .v128] .v128, 4)
  , (computes 0x21 0x21 [.v128] .f64, 2), (computes 0x22 0x22 [.f64, .v128] .v128, 2) ]

/-- The sizes and types of the atomic accesses, in the order of their opcodes. -/
def atomicWords : List (Nat × ValType) :=
  [(2, .i32), (3, .i64), (0, .i32), (1, .i32), (0, .i64), (1, .i64), (2, .i64)]

/-- A family of atomic accesses from an opcode on. -/
def family (first : Nat) (effect : ValType → Effect) : List AccessRange :=
  atomicWords.zipIdx.map fun ((natural, type), i) => ⟨first + i, first + i, natural, effect type⟩

/-- The opcodes after `fe` that access memory. -/
def atomicAccess : List AccessRange :=
  [ ⟨0x00, 0x00, 2, ⟨[.i32], [.i32]⟩⟩
  , ⟨0x01, 0x01, 2, ⟨[.i64, .i32], [.i32]⟩⟩
  , ⟨0x02, 0x02, 3, ⟨[.i64, .i64], [.i32]⟩⟩ ]
    ++ family 0x10 (fun t => ⟨[], [t]⟩) ++ family 0x17 (fun t => ⟨[t], []⟩)
    ++ family 0x1e (fun t => ⟨[t], [t]⟩) ++ family 0x25 (fun t => ⟨[t], [t]⟩)
    ++ family 0x2c (fun t => ⟨[t], [t]⟩) ++ family 0x33 (fun t => ⟨[t], [t]⟩)
    ++ family 0x3a (fun t => ⟨[t], [t]⟩) ++ family 0x41 (fun t => ⟨[t], [t]⟩)
    ++ family 0x48 (fun t => ⟨[t, t], [t]⟩)

/-- The range of a table that holds an opcode. -/
def range? (table : List OpcodeRange) (code : Nat) : Option OpcodeRange :=
  table.find? fun r => r.first ≤ code ∧ code ≤ r.last

/-- The range of a table of accesses that holds an opcode. -/
def access? (table : List AccessRange) (code : Nat) : Option AccessRange :=
  table.find? fun r => r.first ≤ code ∧ code ≤ r.last

end OpcodeTables

end Wasm
end WasmLowering
