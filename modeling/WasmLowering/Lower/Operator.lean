/-
# Code for operators

`lower_operator` with `operator_instruction`, `bool_operator_instruction` and
`mask`.

An operator at a width is one instruction on words of the width's kind, chosen
by the width's sign where the result depends on it.  Results at a narrow width
are cut back to its bits; comparisons need no cut.

Narrow words hold zeros above their bits, so the sign of a narrow value is not
the sign of its word, and the operators that read a sign have no code there.
-/

import WasmLowering.Fault
import WasmLowering.Wasm.Instr

namespace WasmLowering

open Wasm

/-- The word whose set bits are the bits of a width. -/
def Width.maskWord (w : Width) : Nat := w.modulus - 1

/-- Code that clears the bits above a narrow width; nothing at the other widths. -/
def Width.mask (w : Width) : Code :=
  if w.narrow then [.constI32 w.maskWord, .arith .i32 .and] else []

namespace Operator

/-- The arithmetic instruction of an operator on integers. -/
def arith? (signed : Bool) : Operator → Option IntOp
  | add | addW => some .add
  | sub | subW => some .sub
  | mult | multW => some .mul
  | div | divW => some (if signed then .divS else .divU)
  | mod => some (if signed then .remS else .remU)
  | bOr => some .or
  | bAnd => some .and
  | bXor => some .xor
  | bShiftL => some .shl
  | bShiftR => some (if signed then .shrS else .shrU)
  | _ => none

/-- The comparison instruction of an operator on integers. -/
def rel? (signed : Bool) : Operator → Option IntRel
  | eq => some .eq
  | neq => some .ne
  | lt => some (if signed then .ltS else .ltU)
  | lte => some (if signed then .leS else .leU)
  | gt => some (if signed then .gtS else .gtU)
  | gte => some (if signed then .geS else .geU)
  | _ => none

/-- The instruction of an operator on truth values. -/
def boolInstr? : Operator → Option Instr
  | and => some (.arith .i32 .and)
  | or => some (.arith .i32 .or)
  | xor => some (.arith .i32 .xor)
  | eq => some (.compare .i32 .eq)
  | neq => some (.compare .i32 .ne)
  | _ => none

/-- The instruction of an operator on the integers of a width. -/
def intInstr? (w : Width) (op : Operator) : Option Instr :=
  ((op.arith? w.signed).map (.arith w.kind)).or ((op.rel? w.signed).map (.compare w.kind))

/-- The instruction of an operator at a width. -/
def instr (w : Width) (op : Operator) : Except Fault Instr :=
  if w = .bool then (op.boolInstr?).elim (.error (.unmappedOperator op w)) .ok
  else if w.narrow && w.signed && op.isSignAware then .error (.signedNarrow op w)
  else (op.intInstr? w).elim (.error (.unmappedOperator op w)) .ok

/-- Code that applies an operator at a width to the two topmost words. -/
def lower (w : Width) (op : Operator) : Except Fault Code :=
  (op.instr w).map fun i => if op.isComparison then [i] else i :: w.mask

end Operator

end WasmLowering
