/-
# Global initializers

`fold_global_initializer`, which gives a `FoldedConstant`, with `fold_value` and
`fold_operator`.

A global starts as a constant or as a copy of an imported global.  Constants are
literals and sums, differences, products, bit operations and left shifts of
constants, computed in words of the operator's kind and cut back at narrow
widths, as the emitted code for the same operators computes them.
-/

import WasmLowering.Literal
import WasmLowering.Lower.Operator
import WasmLowering.Scope

namespace WasmLowering

/-- What a global starts as. -/
inductive Initializer where
  | value (v : Value)
  /-- A copy of the imported global with an index. -/
  | imported (index : Nat)
  deriving DecidableEq, Repr

namespace Initializer

/-- An operator on constants; shifts count modulo the size of the word. -/
def compute? {n : Nat} (op : Operator) (a b : BitVec n) : Option (BitVec n) :=
  match op with
  | .add | .addW => some (a + b)
  | .sub | .subW => some (a - b)
  | .mult | .multW => some (a * b)
  | .bAnd => some (a &&& b)
  | .bOr => some (a ||| b)
  | .bXor => some (a ^^^ b)
  | .bShiftL => some (a <<< (b.toNat % n))
  | _ => none

/-- Cuts a word back to the bits of a narrow width. -/
def cut (w : Width) (v : BitVec 32) : BitVec 32 :=
  if w.narrow then v &&& BitVec.ofNat 32 w.maskWord else v

/-- An operator at a width on two constants. -/
def binary (op : Operator) (w : Width) : Value → Value → Except Fault Value
  | .i32 a, .i32 b =>
    if w.kind = .i32 then
      (compute? op a b).elim (.error (.constantOperator op w)) fun v => .ok (.i32 (cut w v))
    else .error (.constantOperands op w)
  | .i64 a, .i64 b =>
    if w.kind = .i64 then
      (compute? op a b).elim (.error (.constantOperator op w)) fun v => .ok (.i64 v)
    else .error (.constantOperands op w)
  | _, _ => .error (.constantOperands op w)

/-- The value of a constant expression. -/
def eval : Expr → Except Fault Value
  | .literal w text => Literal.parse w text
  | .binary op w lhs rhs => do
    let a ← eval lhs
    let b ← eval rhs
    binary op w a b
  | e => .error (.initializerNotConstant e.construct)

/-- What a global of a unit starts as. -/
def ofGlobal (scope : Scope) (g : Global) : Except Fault Initializer :=
  match g.init with
  | .global name => do
    let index ← scope.global name
    if index < scope.importedGlobals then return .imported index
    else throw (.initializerReadsOwn g.name name)
  | init =>
    match eval init with
    | .error fault => .error (.inInitializer g.name fault)
    | .ok v =>
      if v.kind = g.width.kind then .ok (.value v)
      else .error (.initializerKind g.name v.kind g.width)

end Initializer

end WasmLowering
