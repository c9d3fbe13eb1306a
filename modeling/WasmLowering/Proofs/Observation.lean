/-
# Watching a run

What the code of an expression does to buffers and frames is told by the events
of its run, in order:

| event         | noted when                                                    |
|---------------|---------------------------------------------------------------|
| `buffer b`    | a buffer was made; its count, and what that did, come before  |
| `store a n`   | an element of `n` bytes was written at the address `a`        |
| `call m m'`   | a function was called in the memory `m` and returned in `m'`  |
| `opened`      | a frame was opened                                            |
| `closed`      | a frame was closed                                            |

A watched run goes through the code of an expression piece by piece and notes
the events of the pieces.  It changes the machine as the code does, so that it
is the run of the code itself (`Lowers.steps`).
-/

import WasmLowering.Proofs.Evaluation
import WasmLowering.Proofs.Lowering
import WasmLowering.Lower.Function

namespace WasmLowering

open Wasm

/-- A buffer that was made. -/
structure Buffer where
  /-- The mark that was read for the buffer, before its count was computed. -/
  base : BitVec 32
  /-- The number of elements. -/
  count : BitVec 32
  /-- The size of an element. -/
  size : Nat
  /-- The mark that was moved up for the buffer, after its count was computed. -/
  mark : BitVec 32
  /-- How many buffers were made while the count was computed. -/
  inner : Nat
  /-- The word on top of the stack when the buffer was made: what the construct returns. -/
  result : Option Value
  deriving DecidableEq, Repr

namespace Buffer

/-- The first byte of a buffer. -/
def start (b : Buffer) : Nat := b.base.toNat

/-- The bytes of a buffer. -/
def bytes (b : Buffer) : Nat := b.count.toNat * b.size

/-- The byte behind a buffer. -/
def stop (b : Buffer) : Nat := b.start + b.bytes

end Buffer

/-- Something that a run does. -/
inductive Event where
  | buffer (b : Buffer)
  | store (address size : Nat)
  | call (before after : Memory)
  | opened
  | closed

namespace Event

/-- The buffer that is made, if one is. -/
def buffer? : Event → Option Buffer
  | buffer b => some b
  | _ => none

end Event

/-- The buffers that are made, in order. -/
def buffers (log : List Event) : List Buffer := log.filterMap Event.buffer?

/-- A watched run: the events, and the machine at the end. -/
abbrev Run := Machine → Except Halt (List Event × Machine)

namespace Run

/-- One run after another. -/
def seq (first second : Run) : Run := fun m => do
  let (log, m₁) ← first m
  let (log', m₂) ← second m₁
  return (log ++ log', m₂)

section Pieces

variable {spaces : IndexSpaces} (inst : Instance spaces) (fuel : Nat)

/-- Runs code to its end and notes what the machines before and after it show. -/
def noting (note : Machine → Machine → Option (List Event)) (code : Code) : Run := fun m =>
  match Code.exec inst fuel code m with
  | .next m' => (note m m').elim (.error .stuck) fun log => .ok (log, m')
  | .branch _ _ => .error .stuck
  | .halt cause => .error cause

/-- Runs code in which nothing is to be noted. -/
def silent (code : Code) : Run := noting inst fuel (fun _ _ => some []) code

/-- Runs code in which nothing is to be noted, if it was selected. -/
def selected : Except Fault Code → Run
  | .ok code => silent inst fuel code
  | .error _ => fun _ => .error .stuck

/-- Calls a function. -/
def call (index : Nat) : Run :=
  noting inst fuel (fun m m' => some [.call m.memory m'.memory]) [.call index]

/-- Writes an element of a size: the address stands below the element. -/
def store (size : Nat) (store : Instr) : Run :=
  noting inst fuel
    (fun m _ => match m.stack with
      | _ :: .i32 address :: _ => some [.store address.toNat size]
      | _ => none)
    [store]

/-- The buffer that moving the mark up makes, by the mark that was read for it and the number of buffers
made since.  Its count is the topmost word before the mark is moved. -/
def made (size : Nat) (base : Option (BitVec 32)) (inner : Nat) (m m' : Machine) : Option (List Event) :=
  match base, m.stack, m.memory.mark with
  | some base, .i32 count :: _, some mark =>
    some [.buffer { base, count, size, mark, inner, result := m'.stack.head? }]
  | _, _, _ => none

/-- Makes a buffer: the mark is read, the count is computed, and the mark is moved up. -/
def create (size : Nat) (r : Registers) (count : Run) : Run := fun m => do
  let (_, m₁) ← silent inst fuel Highwater.read m
  let (log, m₂) ← count m₁
  let (log', m₃) ← noting inst fuel (made size m.memory.mark (buffers log).length)
    ([.constI32 size, .arith .i32 .mul] ++ Highwater.grow r) m₂
  return (log ++ log', m₃)

end Pieces

/-- Runs one of two arms as a block, by the topmost word. -/
def choose (whenTrue whenFalse : Run) : Run := fun m =>
  match m.stack with
  | .i32 c :: hidden => do
    let (log, m₁) ← (if c = 0 then whenFalse else whenTrue) { m with stack := [] }
    return (log, { m₁ with stack := m₁.stack ++ hidden })
  | _ => .error .stuck

/-- Runs a body as a block as long as a test leaves a word that is not zero, at most `fuel` times. -/
def rounds (test body : Run) (hidden : List Value) : (fuel : Nat) → Run
  | 0, _ => .error .timeout
  | fuel + 1, m => do
    let (log, m₁) ← test { m with stack := [] }
    match m₁.stack with
    | .i32 c :: ws =>
      if c = 0 then return (log, { m₁ with stack := ws ++ hidden })
      let (log', m₂) ← body { m₁ with stack := [] }
      let (log'', m₃) ← rounds test body hidden fuel m₂
      return (log ++ (log' ++ log''), m₃)
    | _ => .error .stuck

end Run

namespace Expr

/-- The frames that are open after an expression, by those that are open before it. -/
def after (e : Expr) (depth : Nat) : Nat := (depth + e.shift).toNat

open Run

mutual

/-- The watched run of an expression's code, with so many frames open. -/
def watch {spaces : IndexSpaces} (g : Setting spaces) (frame : Frame) (fuel : Nat) :
    Expr → (depth : Nat) → Run
  | var i, _ => selected g.inst fuel ((frame.localIndex i).map fun j => [.localGet j])
  | global name, _ => selected g.inst fuel ((g.scope.global name).map fun i => [.globalGet i])
  | literal w text, _ => selected g.inst fuel ((Literal.parse w text).map fun v => [.const v])
  | string text, _ =>
    match g.segment.offset? text with
    | some offset => silent g.inst fuel (Segment.address offset)
    | none => fun _ => .error .stuck
  | binary op w lhs rhs, d =>
    ((lhs.watch g frame fuel d).seq (rhs.watch g frame fuel (lhs.after d))).seq
      (selected g.inst fuel (op.lower w))
  | call name args, d =>
    match g.scope.function name with
    | .ok i =>
      (watchArgs g frame fuel args d).seq ((Run.call g.inst fuel i).seq
        (silent g.inst fuel (if g.scope.hasResult i then [] else [.unit])))
    | .error _ => fun _ => .error .stuck
  | bufCreate size count, d => create g.inst fuel size frame.registers (count.watch g frame fuel d)
  | bufRead size base index, d =>
    (((base.watch g frame fuel d).seq (index.watch g frame fuel (base.after d))).seq
      (silent g.inst fuel (elementAddress size))).seq
      (selected g.inst fuel ((loadElement size).map fun load => [load]))
  | bufWrite size base index value, d =>
    match storeElement size with
    | .ok store =>
      ((((base.watch g frame fuel d).seq (index.watch g frame fuel (base.after d))).seq
        (silent g.inst fuel (elementAddress size))).seq
        (value.watch g frame fuel (index.after (base.after d)))).seq
        ((Run.store g.inst fuel size store).seq (silent g.inst fuel [.unit]))
    | .error _ => fun _ => .error .stuck
  | bufSub size base index, d =>
    ((base.watch g frame fuel d).seq (index.watch g frame fuel (base.after d))).seq
      (silent g.inst fuel (elementAddress size))
  | cast operand source target, d =>
    (operand.watch g frame fuel d).seq (selected g.inst fuel (source.castTo target))
  | ifThenElse cond whenTrue whenFalse _, d =>
    (cond.watch g frame fuel d).seq
      (choose (whenTrue.watch g frame fuel (cond.after d)) (whenFalse.watch g frame fuel (cond.after d)))
  | assign i value, d =>
    (value.watch g frame fuel d).seq
      (selected g.inst fuel ((frame.localIndex i).map fun j => [.localSet j, .unit]))
  | whileLoop cond body, d =>
    seq
      (fun m => rounds (cond.watch g frame fuel d)
        ((body.watch g frame fuel (cond.after d)).seq (silent g.inst fuel [.drop])) m.stack fuel m)
      (silent g.inst fuel [.unit])
  | ignore operand, d => (operand.watch g frame fuel d).seq (silent g.inst fuel [.drop, .unit])
  | sequence items, d => watchItems g frame fuel items d
  | pushFrame, d =>
    noting g.inst fuel (fun _ _ => some [.opened]) (Highwater.read ++ [.localSet (frame.slot d), .unit])
  | popFrame, d =>
    noting g.inst fuel (fun _ _ => some [.closed])
      (.localGet (frame.slot (d - 1)) :: Highwater.write frame.registers ++ [.unit])
  | _, _ => fun _ => .error .stuck

/-- The watched run of the code of a call's arguments. -/
def watchArgs {spaces : IndexSpaces} (g : Setting spaces) (frame : Frame) (fuel : Nat) :
    List Expr → (depth : Nat) → Run
  | [], _ => silent g.inst fuel []
  | e :: es, d => (e.watch g frame fuel d).seq (watchArgs g frame fuel es (e.after d))

/-- The watched run of a sequence's code. -/
def watchItems {spaces : IndexSpaces} (g : Setting spaces) (frame : Frame) (fuel : Nat) :
    List Expr → (depth : Nat) → Run
  | [], _ => silent g.inst fuel [.unit]
  | [e], d => e.watch g frame fuel d
  | e :: es, d =>
    (e.watch g frame fuel d).seq ((silent g.inst fuel [.drop]).seq (watchItems g frame fuel es (e.after d)))

end

end Expr

/-- The watched run of the code that writes a trace record and calls the hook. -/
def Trace.watch {spaces : IndexSpaces} (inst : Instance spaces) (fuel : Nat) (fields : List TraceField) :
    Run :=
  (Run.silent inst fuel (Trace.stores Layout.traceStart fields)).seq (Run.call inst fuel Layout.traceHook)

namespace Function

variable {spaces : IndexSpaces} (g : Setting spaces) (fuel : Nat) (f : Function)

/-- The watched run of the code that traces the entry into a function. -/
def watchEntry : Run :=
  match g.segment.offset? f.name with
  | some offset => Trace.watch g.inst fuel (Trace.entryFields offset (f.args.map Width.kind))
  | none => fun _ => .error .stuck

/-- The watched run of the code that traces the return from a function. -/
def watchExit : Run :=
  match g.segment.offset? Trace.returnMarker with
  | some offset =>
    (Run.silent g.inst fuel (f.resultKind.map f.frame.registers.tee).toList).seq
      (Trace.watch g.inst fuel (Trace.exitFields offset f.resultKind f.frame.registers))
  | none => fun _ => .error .stuck

/-- The watched run of a function's code. -/
def watch (traced : Bool) : Run :=
  (((if traced then f.watchEntry g fuel else Run.silent g.inst fuel []).seq
    (f.body.watch g f.frame fuel 0)).seq
    (if traced then f.watchExit g fuel else Run.silent g.inst fuel [])).seq
    (Run.silent g.inst fuel (if f.resultKind.isNone then [.drop] else []))

end Function

end WasmLowering
