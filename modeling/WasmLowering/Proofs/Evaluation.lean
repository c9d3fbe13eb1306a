/-
# The meaning of expressions

Expressions are evaluated strictly from left to right over the variables of a
function, one byte memory and a stack of saved highwater marks; every effect of
an operand is seen by the operands after it.

| construct         | meaning                                                              |
|-------------------|----------------------------------------------------------------------|
| operator, cast    | the instructions that are selected for it, on the operands           |
| string            | the address of the unit's segment plus the string's offset there     |
| call              | what the instance does for the function, on the arguments in order   |
| new buffer        | the mark; then the count; then the mark goes up by `count * size`    |
| element access    | at `base + index * size`                                             |
| opening a frame   | saves the mark                                                       |
| closing a frame   | takes the mark that was saved last and restores it                   |

Addresses, sizes and marks wrap at `2 ^ 32`.  Fuel bounds how often the body of
each loop is run, as it does for the machine.
-/

import WasmLowering.Proofs.Machine
import WasmLowering.Lower.Expr

namespace WasmLowering

open Wasm

/-- What evaluation changes. -/
structure Store where
  /-- The variables: the arguments, then the declared locals. -/
  vars : List Value
  /-- The saved marks, the last one saved last. -/
  marks : List (BitVec 32)
  memory : Memory

/-- Where expressions are evaluated: what names stand for, where strings are placed, and the instance that
holds the globals and runs the functions. -/
structure Setting (spaces : IndexSpaces) where
  scope : Scope
  segment : Segment
  inst : Instance spaces

/-- An evaluation: a computation on the store that may halt. -/
abbrev Eval := StateT Store (Except Halt)

namespace Eval

/-- A result that is always there for expressions that have code. -/
def need {α : Type} : Option α → Eval α
  | some a => pure a
  | none => throw .stuck

/-- A result that is always there for expressions that have code. -/
def ofExcept {α : Type} (x : Except Fault α) : Eval α := need x.toOption

/-- A result that may be missing for a trap. -/
def trapping {α : Type} (x : Option α) : Eval α := liftM (orTrap x)

/-- The word of kind `i32` that a value is. -/
def word : Value → Eval (BitVec 32)
  | .i32 w => pure w
  | .i64 _ => throw .stuck

/-- What the instructions of an operator or a cast leave of its operands, the last one topmost. -/
def apply (code : Code) (operands : List Value) : Eval Value := do
  match ← liftM (code.onWords operands) with
  | [v] => return v
  | _ => throw .stuck

/-- The highwater mark. -/
def mark : Eval (BitVec 32) := do trapping (← get).memory.mark

/-- Changes the highwater mark. -/
def setMark (mark : BitVec 32) : Eval Unit := do
  let s ← get
  let memory ← trapping (s.memory.setMark mark)
  set { s with memory }

/-- The address of an element. -/
def address (size : Nat) (base index : Value) : Eval (BitVec 32) := do
  return (← word base) + (← word index) * BitVec.ofNat 32 size

/-- Reads an element of a size. -/
def read (size : Nat) (address : BitVec 32) : Eval Value := do
  let n ← trapping ((← get).memory.load size address.toNat)
  return .ofNat (elementKind size) n

/-- Writes an element of a size. -/
def write (size : Nat) (address : BitVec 32) (v : Value) : Eval Unit := do
  let s ← get
  let memory ← trapping (s.memory.store size address.toNat v.toNat)
  set { s with memory }

/-- Writes a variable. -/
def assign (i : Nat) (v : Value) : Eval Unit :=
  modify fun s => { s with vars := s.vars.set i v }

/-- Calls a function; a function without a result gives the unit value. -/
def call {spaces : IndexSpaces} (inst : Instance spaces) (i : Nat) (args : List Value) :
    Eval Value := do
  let s ← get
  let (results, memory) ← liftM (inst.call i args s.memory)
  set { s with memory }
  return results.headD .unit

/-- Saves the mark. -/
def openFrame : Eval Unit := do
  let saved ← mark
  modify fun s => { s with marks := s.marks ++ [saved] }

/-- The mark that was saved last. -/
def savedMark : Eval (BitVec 32) := do need (← get).marks.getLast?

/-- Restores the mark that was saved last. -/
def closeFrame : Eval Unit := do
  setMark (← savedMark)
  modify fun s => { s with marks := s.marks.dropLast }

/-- Runs a body as long as a condition is not zero, at most `fuel` times. -/
def loop (cond body : Eval Value) : (fuel : Nat) → Eval Unit
  | 0 => throw .timeout
  | fuel + 1 => do
    if (← word (← cond)) = 0 then return ()
    let _ ← body
    loop cond body fuel

/-! ### Steps -/

variable (s : Store)

theorem mark_eq : mark s = (orTrap s.memory.mark).map (·, s) := by
  show trapping s.memory.mark s = _
  cases s.memory.mark <;> rfl

theorem setMark_eq (w : BitVec 32) :
    setMark w s = (orTrap (s.memory.setMark w)).map fun memory => ((), { s with memory }) := by
  show (trapping (s.memory.setMark w) >>= fun memory => set { s with memory } : Eval Unit) s = _
  cases s.memory.setMark w <;> rfl

theorem read_eq (size : Nat) (a : BitVec 32) :
    read size a s =
      (orTrap (s.memory.load size a.toNat)).map fun n => (.ofNat (elementKind size) n, s) := by
  show (trapping (s.memory.load size a.toNat) >>= fun n =>
    pure (.ofNat (elementKind size) n) : Eval Value) s = _
  cases s.memory.load size a.toNat <;> rfl

theorem write_eq (size : Nat) (a : BitVec 32) (v : Value) :
    write size a v s =
      (orTrap (s.memory.store size a.toNat v.toNat)).map fun memory => ((), { s with memory }) := by
  show (trapping (s.memory.store size a.toNat v.toNat) >>= fun memory =>
    set { s with memory } : Eval Unit) s = _
  cases s.memory.store size a.toNat v.toNat <;> rfl

theorem call_eq {spaces : IndexSpaces} (inst : Instance spaces) (i : Nat) (args : List Value) :
    call inst i args s =
      (inst.call i args s.memory).map fun p => (p.1.headD .unit, { s with memory := p.2 }) := by
  show (liftM (inst.call i args s.memory) >>= fun p => do
    set { s with memory := p.2 }
    return p.1.headD .unit : Eval Value) s = _
  cases inst.call i args s.memory <;> rfl

theorem loop_succ (cond body : Eval Value) (fuel : Nat) :
    loop cond body (fuel + 1) =
      cond >>= fun v => word v >>= fun w =>
        if w = 0 then pure () else body >>= fun _ => loop cond body fuel := rfl

end Eval

namespace Expr

open Eval

mutual

/-- The value of an expression. -/
def eval {spaces : IndexSpaces} (g : Setting spaces) (fuel : Nat) : Expr → Eval Value
  | var i => do need (← get).vars[i]?
  | global name => do need (g.inst.globals[← Eval.ofExcept (g.scope.global name)]?)
  | literal w text => Eval.ofExcept (Literal.parse w text)
  | string text => do
    let start ← word (← need g.inst.globals[Layout.dataStartGlobal]?)
    return .i32 (start + BitVec.ofNat 32 (← need (g.segment.offset? text)))
  | binary op w lhs rhs => do
    let a ← eval g fuel lhs
    let b ← eval g fuel rhs
    apply (← Eval.ofExcept (op.lower w)) [b, a]
  | call name args => do
    let args ← evalArgs g fuel args
    Eval.call g.inst (← Eval.ofExcept (g.scope.function name)) args
  | bufCreate size count => do
    let base ← mark
    let n ← word (← eval g fuel count)
    setMark ((← mark) + n * BitVec.ofNat 32 size)
    return .i32 base
  | bufRead size base index => do
    let a ← eval g fuel base
    let i ← eval g fuel index
    read size (← address size a i)
  | bufWrite size base index value => do
    let a ← eval g fuel base
    let i ← eval g fuel index
    let target ← address size a i
    let v ← eval g fuel value
    write size target v
    return .unit
  | bufSub size base index => do
    let a ← eval g fuel base
    let i ← eval g fuel index
    return .i32 (← address size a i)
  | cast operand source target => do
    let a ← eval g fuel operand
    apply (← Eval.ofExcept (source.castTo target)) [a]
  | ifThenElse cond whenTrue whenFalse _ => do
    if (← word (← eval g fuel cond)) = 0 then eval g fuel whenFalse else eval g fuel whenTrue
  | assign i value => do
    Eval.assign i (← eval g fuel value)
    return .unit
  | whileLoop cond body => do
    loop (eval g fuel cond) (eval g fuel body) fuel
    return .unit
  | ignore operand => do
    let _ ← eval g fuel operand
    return .unit
  | sequence items => evalItems g fuel items
  | pushFrame => do
    openFrame
    return .unit
  | popFrame => do
    closeFrame
    return .unit
  | _ => throw .stuck

/-- The values of the arguments of a call, from left to right. -/
def evalArgs {spaces : IndexSpaces} (g : Setting spaces) (fuel : Nat) :
    List Expr → Eval (List Value)
  | [] => return []
  | e :: es => do
    let v ← eval g fuel e
    let vs ← evalArgs g fuel es
    return v :: vs

/-- The value of a sequence: that of the last expression. -/
def evalItems {spaces : IndexSpaces} (g : Setting spaces) (fuel : Nat) : List Expr → Eval Value
  | [] => return .unit
  | [e] => eval g fuel e
  | e :: es => do
    let _ ← eval g fuel e
    evalItems g fuel es

end

end Expr

end WasmLowering
