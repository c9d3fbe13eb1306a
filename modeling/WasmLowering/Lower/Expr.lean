/-
# Code for expressions

`ExpressionLowerer`, whose `lower_expr` is `Expr.lower`.

The code of an expression runs its operands from left to right and leaves one
word; a construct run for its effect leaves the unit value.

Lowering keeps, across the expressions of a function, the strings met so far and
the number of open allocation frames.  Frame `d` saves the highwater mark in the
slot `d` behind the declared locals, so a function has as many slots as it ever
has frames open.  The arms of a conditional and the body of a loop must close
the frames they open.

A failure leaves the state as far as lowering had come.
-/

import WasmLowering.Literal
import WasmLowering.Lower.Cast
import WasmLowering.Lower.Highwater
import WasmLowering.Scope
import WasmLowering.Segment

namespace WasmLowering

open Wasm

/-- The variables of a function: its arguments and its declared locals. -/
structure Frame where
  args : Nat
  locals : Nat
  deriving DecidableEq, Repr

namespace Frame

/-- The scratch registers, right after the parameters. -/
def registers (f : Frame) : Registers := ⟨f.args⟩

/-- `local_index`, the local of a variable: declared locals stand behind the scratch registers. -/
def localIndex (f : Frame) (index : Nat) : Except Fault Nat :=
  if index < f.args then .ok index
  else if index < f.args + f.locals then .ok (index + scratchKinds.length)
  else .error (.variableRange index f.args f.locals)

/-- `frame_slot`: the local that saves the highwater mark of the frame opened at a depth. -/
def slot (f : Frame) (depth : Nat) : Nat :=
  f.args + scratchKinds.length + f.locals + depth

end Frame

/-- What lowering keeps: the strings met, the frames open now, and the most ever open. -/
structure LowerState where
  segment : Segment
  depth : Nat
  slots : Nat
  deriving DecidableEq, Repr

/-- The state at the start of a function. -/
def LowerState.start (segment : Segment) : LowerState := ⟨segment, 0, 0⟩

/-- Lowering: a computation on the state that may fail and then keeps the state it reached. -/
abbrev Lower := EStateM Fault LowerState

namespace Lower

/-- A result that needs no state. -/
def ofExcept {α : Type} : Except Fault α → Lower α
  | .ok a => pure a
  | .error f => throw f

/-- Places a string in the unit's segment. -/
def intern (s : String) : Lower Nat :=
  modifyGet fun st => ((st.segment.intern s).1, { st with segment := (st.segment.intern s).2 })

/-- Opens a frame and gives its depth. -/
def openFrame : Lower Nat :=
  modifyGet fun st =>
    (st.depth, { st with depth := st.depth + 1, slots := max st.slots (st.depth + 1) })

/-- Closes a frame and gives its depth. -/
def closeFrame : Lower Nat := do
  let st ← get
  match st.depth with
  | 0 => throw .unmatchedPop
  | d + 1 =>
    set { st with depth := d }
    return d

/-- `expect_balanced_frames`: fails unless as many frames are open as there were before. -/
def expectDepth (construct : String) (before : Nat) : Lower Unit := do
  let now := (← get).depth
  unless now = before do
    throw (.unbalanced construct now before)

end Lower

/-- `buffer_memarg`: the access to an element at its own address. -/
def elementArg (align : Nat) : MemArg := { align, offset := 0 }

/-- `load_instruction`: the instruction that reads an element of a size; narrow elements are zero-extended. -/
def loadElement : Nat → Except Fault Instr
  | 1 => .ok (.load .byte (elementArg 0))
  | 2 => .ok (.load .half (elementArg 1))
  | 4 => .ok (.load .word32 (elementArg 2))
  | 8 => .ok (.load .word64 (elementArg 3))
  | size => .error (.elementLoad size)

/-- `store_instruction`: the instruction that writes an element of a size. -/
def storeElement : Nat → Except Fault Instr
  | 1 => .ok (.store .byte (elementArg 0))
  | 2 => .ok (.store .half (elementArg 1))
  | 4 => .ok (.store .word32 (elementArg 2))
  | 8 => .ok (.store .word64 (elementArg 3))
  | size => .error (.elementStore size)

/-- The end of `lower_element_address`: code that replaces a base and an index by the address of the element. -/
def elementAddress (size : Nat) : Code :=
  [.constI32 size, .arith .i32 .mul, .arith .i32 .add]

namespace Expr

mutual

/-- `lower_expr`, with `lower_if_then_else` and `lower_while`: the code of an expression. -/
def lower (scope : Scope) (frame : Frame) : Expr → Lower Code
  | var index => do
    return [.localGet (← Lower.ofExcept (frame.localIndex index))]
  | global name => do
    return [.globalGet (← Lower.ofExcept (scope.global name))]
  | literal width text => do
    return [.const (← Lower.ofExcept (Literal.parse width text))]
  | string text => do
    return Segment.address (← Lower.intern text)
  | binary op width lhs rhs => do
    let left ← lower scope frame lhs
    let right ← lower scope frame rhs
    let apply ← Lower.ofExcept (op.lower width)
    return left ++ right ++ apply
  | call name args => do
    let index ← Lower.ofExcept (scope.function name)
    let operands ← lowerArgs scope frame args
    return operands ++ .call index :: if scope.hasResult index then [] else [.unit]
  | bufCreate size count => do
    let number ← lower scope frame count
    return Highwater.read ++ number ++ [.constI32 size, .arith .i32 .mul]
      ++ Highwater.grow frame.registers
  | bufRead size base index => do
    let start ← lower scope frame base
    let position ← lower scope frame index
    let load ← Lower.ofExcept (loadElement size)
    return start ++ position ++ elementAddress size ++ [load]
  | bufWrite size base index value => do
    let start ← lower scope frame base
    let position ← lower scope frame index
    let word ← lower scope frame value
    let store ← Lower.ofExcept (storeElement size)
    return start ++ position ++ elementAddress size ++ word ++ [store, .unit]
  | bufSub size base index => do
    let start ← lower scope frame base
    let position ← lower scope frame index
    return start ++ position ++ elementAddress size
  | cast operand source target => do
    let word ← lower scope frame operand
    let convert ← Lower.ofExcept (source.castTo target)
    return word ++ convert
  | ifThenElse cond whenTrue whenFalse width => do
    let test ← lower scope frame cond
    let before := (← get).depth
    let first ← lower scope frame whenTrue
    Lower.expectDepth "IfThenElse" before
    let second ← lower scope frame whenFalse
    Lower.expectDepth "IfThenElse" before
    return test ++ [.cond (some width.kind) first second]
  | assign index value => do
    let word ← lower scope frame value
    let target ← Lower.ofExcept (frame.localIndex index)
    return word ++ [.localSet target, .unit]
  | whileLoop cond body => do
    let before := (← get).depth
    let test ← lower scope frame cond
    let step ← lower scope frame body
    Lower.expectDepth "While" before
    return [.loop (test ++ [.cond none (step ++ [.drop, .br 1]) []]), .unit]
  | ignore operand => do
    let word ← lower scope frame operand
    return word ++ [.drop, .unit]
  | sequence items => lowerItems scope frame items
  | pushFrame => do
    let depth ← Lower.openFrame
    return Highwater.read ++ [.localSet (frame.slot depth), .unit]
  | popFrame => do
    let depth ← Lower.closeFrame
    return .localGet (frame.slot depth) :: Highwater.write frame.registers ++ [.unit]
  | e => throw (.unsupported e.construct)

/-- The code of the arguments of a call, from left to right. -/
def lowerArgs (scope : Scope) (frame : Frame) : List Expr → Lower Code
  | [] => return []
  | e :: es => do
    let first ← lower scope frame e
    let rest ← lowerArgs scope frame es
    return first ++ rest

/-- The code of a sequence: every value but the last is dropped. -/
def lowerItems (scope : Scope) (frame : Frame) : List Expr → Lower Code
  | [] => return [.unit]
  | [e] => lower scope frame e
  | e :: es => do
    let first ← lower scope frame e
    let rest ← lowerItems scope frame es
    return first ++ .drop :: rest

end

end Expr

end WasmLowering
