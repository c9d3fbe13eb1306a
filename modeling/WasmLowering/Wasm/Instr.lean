/-
# Instructions

The instructions that are emitted, as structured code: a conditional holds its
two arms and a loop its body, so blocks are always closed.  Branch targets count
the enclosing blocks outwards from the branch.

A conditional with an empty second arm is written without it.
-/

import WasmLowering.Value

namespace WasmLowering
namespace Wasm

/-- Arithmetic on two words of one kind, with a result of that kind. -/
inductive IntOp where
  | add
  | sub
  | mul
  | divS
  | divU
  | remS
  | remU
  | and
  | or
  | xor
  | shl
  | shrS
  | shrU
  deriving DecidableEq, Repr

/-- The name of an operation, without the kind it works on. -/
def IntOp.text : IntOp → String
  | .add => "Add"
  | .sub => "Sub"
  | .mul => "Mul"
  | .divS => "DivS"
  | .divU => "DivU"
  | .remS => "RemS"
  | .remU => "RemU"
  | .and => "And"
  | .or => "Or"
  | .xor => "Xor"
  | .shl => "Shl"
  | .shrS => "ShrS"
  | .shrU => "ShrU"

/-- Comparisons of two words of one kind, with a truth value of kind `i32` as result. -/
inductive IntRel where
  | eq
  | ne
  | ltS
  | ltU
  | leS
  | leU
  | gtS
  | gtU
  | geS
  | geU
  deriving DecidableEq, Repr

/-- The name of a comparison, without the kind it works on. -/
def IntRel.text : IntRel → String
  | .eq => "Eq"
  | .ne => "Ne"
  | .ltS => "LtS"
  | .ltU => "LtU"
  | .leS => "LeS"
  | .leU => "LeU"
  | .gtS => "GtS"
  | .gtU => "GtU"
  | .geS => "GeS"
  | .geU => "GeU"

/-- Conversions between the two kinds. -/
inductive Conversion where
  /-- The low half of a 64-bit word. -/
  | wrap
  /-- A 32-bit word, sign-extended. -/
  | extendS
  /-- A 32-bit word, zero-extended. -/
  | extendU
  deriving DecidableEq, Repr

namespace Conversion

/-- The kind that a conversion takes. -/
def source : Conversion → Kind
  | wrap => .i64
  | extendS | extendU => .i32

/-- The kind that a conversion gives. -/
def target : Conversion → Kind
  | wrap => .i32
  | extendS | extendU => .i64

/-- The name of a conversion. -/
def text : Conversion → String
  | wrap => "I32WrapI64"
  | extendS => "I64ExtendI32S"
  | extendU => "I64ExtendI32U"

end Conversion

/-- Memory reads: a whole word, or some low bytes with zeros above them. -/
inductive LoadOp where
  | word32
  | byte
  | half
  | word64
  deriving DecidableEq, Repr

namespace LoadOp

/-- The kind of the word that is read. -/
def kind : LoadOp → Kind
  | word64 => .i64
  | _ => .i32

/-- The number of bytes that are read. -/
def size : LoadOp → Nat
  | byte => 1
  | half => 2
  | word32 => 4
  | word64 => 8

/-- The logarithm of the size: the largest alignment hint that is allowed. -/
def naturalAlign : LoadOp → Nat
  | byte => 0
  | half => 1
  | word32 => 2
  | word64 => 3

/-- The name of a read. -/
def text : LoadOp → String
  | word32 => "i32.load"
  | byte => "i32.load8_u"
  | half => "i32.load16_u"
  | word64 => "i64.load"

end LoadOp

/-- Memory writes: a whole word, or its low bytes. -/
inductive StoreOp where
  | word32
  | byte
  | half
  | word64
  deriving DecidableEq, Repr

namespace StoreOp

/-- The kind of the word that is written. -/
def kind : StoreOp → Kind
  | word64 => .i64
  | _ => .i32

/-- The number of bytes that are written. -/
def size : StoreOp → Nat
  | byte => 1
  | half => 2
  | word32 => 4
  | word64 => 8

/-- The logarithm of the size: the largest alignment hint that is allowed. -/
def naturalAlign : StoreOp → Nat
  | byte => 0
  | half => 1
  | word32 => 2
  | word64 => 3

/-- The name of a write. -/
def text : StoreOp → String
  | word32 => "i32.store"
  | byte => "i32.store8"
  | half => "i32.store16"
  | word64 => "i64.store"

end StoreOp

/-- The constant part of a memory access: an alignment hint, as a logarithm, and an offset. -/
structure MemArg where
  align : Nat
  offset : Nat
  deriving DecidableEq, Repr

/-- An instruction that neither calls nor branches. -/
inductive Plain where
  | const (value : Value)
  | arith (kind : Kind) (op : IntOp)
  | compare (kind : Kind) (rel : IntRel)
  | convert (conv : Conversion)
  | localGet (index : Nat)
  | localSet (index : Nat)
  | localTee (index : Nat)
  | globalGet (index : Nat)
  | drop
  | load (op : LoadOp) (arg : MemArg)
  | store (op : StoreOp) (arg : MemArg)
  deriving DecidableEq, Repr

/-- An instruction. -/
inductive Instr where
  | plain (instr : Plain)
  | call (index : Nat)
  | br (depth : Nat)
  /-- A conditional with at most one result. -/
  | cond (result : Option Kind) (whenTrue whenFalse : List Instr)
  /-- A loop without results; branching to it starts it again. -/
  | loop (body : List Instr)
  deriving Repr

/-- A sequence of instructions. -/
abbrev Code := List Instr

namespace Instr

/-- Leaves a constant. -/
abbrev const (v : Value) : Instr := plain (.const v)

/-- Leaves the constant `n` of kind `i32`, reduced modulo `2 ^ 32`. -/
abbrev constI32 (n : Nat) : Instr := const (.i32 (BitVec.ofNat 32 n))

/-- Leaves the unit value. -/
abbrev unit : Instr := const .unit

/-- Applies an operation to the two topmost words. -/
abbrev arith (k : Kind) (op : IntOp) : Instr := plain (.arith k op)

/-- Compares the two topmost words. -/
abbrev compare (k : Kind) (rel : IntRel) : Instr := plain (.compare k rel)

/-- Converts the topmost word. -/
abbrev convert (c : Conversion) : Instr := plain (.convert c)

/-- Leaves the word in a local. -/
abbrev localGet (i : Nat) : Instr := plain (.localGet i)

/-- Takes the topmost word to a local. -/
abbrev localSet (i : Nat) : Instr := plain (.localSet i)

/-- Copies the topmost word to a local. -/
abbrev localTee (i : Nat) : Instr := plain (.localTee i)

/-- Leaves the word in a global. -/
abbrev globalGet (i : Nat) : Instr := plain (.globalGet i)

/-- Takes the topmost word away. -/
abbrev drop : Instr := plain .drop

/-- Reads from the memory at the topmost word. -/
abbrev load (op : LoadOp) (arg : MemArg) : Instr := plain (.load op arg)

/-- Writes the topmost word to the memory at the word below it. -/
abbrev store (op : StoreOp) (arg : MemArg) : Instr := plain (.store op arg)

end Instr

/-- One opcode of the linear form of code, in which marks separate and close the blocks. -/
inductive Opcode where
  | plain (instr : Plain)
  | call (index : Nat)
  | br (depth : Nat)
  | cond (result : Option Kind)
  | loop
  /-- The mark between the arms of a conditional. -/
  | otherwise
  /-- The mark that closes a block. -/
  | finish
  deriving DecidableEq, Repr

mutual

/-- The opcodes of an instruction. -/
def Instr.flatten : Instr → List Opcode
  | .plain i => [.plain i]
  | .call i => [.call i]
  | .br d => [.br d]
  | .cond result t [] => .cond result :: Code.flatten t ++ [.finish]
  | .cond result t (i :: f) =>
    .cond result :: Code.flatten t ++ .otherwise :: (i.flatten ++ Code.flatten f) ++ [.finish]
  | .loop body => .loop :: Code.flatten body ++ [.finish]

/-- The opcodes of a sequence of instructions. -/
def Code.flatten : Code → List Opcode
  | [] => []
  | i :: is => i.flatten ++ Code.flatten is

end

end Wasm
end WasmLowering
