/-
# Running code

The machine that emitted code runs on.  Its state is the locals of the running
function, the memory and the stack of words.  Globals never change, and what a
called function does is told by the module instance: an arbitrary function from
arguments and memory to results and memory.

| run ends in  | when                                                             |
|--------------|------------------------------------------------------------------|
| `next`       | the code was run to its end                                      |
| `branch d`   | a branch leaves for the block `d` levels out                     |
| `halt`       | a trap, a loop that ran out of `fuel`, or code that fits no rule |

A block starts with no words of its own and hides the words below it; when it
ends they are below its results again.  Fuel bounds how often each loop is
entered anew, so a run that never ends is one that times out for every fuel.
-/

import WasmLowering.Proofs.Memory
import WasmLowering.LinkState
import WasmLowering.Wasm.Instr

namespace WasmLowering

/-- Why a run stops before its end. -/
inductive Halt where
  /-- The machine traps: a division, an address. -/
  | trap
  /-- No rule applies; code that is well typed never comes here. -/
  | stuck
  /-- A loop was entered as often as fuel allows. -/
  | timeout
  deriving DecidableEq, Repr

namespace Wasm

/-! ## Words -/

/-- An operation on words; `none` is a trap.  Shifts count modulo the size of the word. -/
def IntOp.compute {n : Nat} (a b : BitVec n) : IntOp → Option (BitVec n)
  | add => some (a + b)
  | sub => some (a - b)
  | mul => some (a * b)
  | divS => if b = 0 ∨ (a = BitVec.intMin n ∧ b = -1) then none else some (a.sdiv b)
  | divU => if b = 0 then none else some (a.udiv b)
  | remS => if b = 0 then none else some (a.srem b)
  | remU => if b = 0 then none else some (a.umod b)
  | and => some (a &&& b)
  | or => some (a ||| b)
  | xor => some (a ^^^ b)
  | shl => some (a <<< (b.toNat % n))
  | shrS => some (a.sshiftRight (b.toNat % n))
  | shrU => some (a >>> (b.toNat % n))

/-- Whether a comparison holds between two words. -/
def IntRel.holds {n : Nat} (a b : BitVec n) : IntRel → Bool
  | eq => a == b
  | ne => a != b
  | ltS => a.slt b
  | ltU => a.ult b
  | leS => a.sle b
  | leU => a.ule b
  | gtS => b.slt a
  | gtU => b.ult a
  | geS => b.sle a
  | geU => b.ule a

/-- The word of a truth value. -/
def truth (b : Bool) : Value := .i32 (if b then 1 else 0)

/-- A result that may be missing for a trap. -/
def orTrap {α : Type} : Option α → Except Halt α
  | some a => .ok a
  | none => .error .trap

/-- An operation on two words of a kind. -/
def IntOp.apply (op : IntOp) : Kind → Value → Value → Except Halt Value
  | .i32, .i32 a, .i32 b => (orTrap (op.compute a b)).map .i32
  | .i64, .i64 a, .i64 b => (orTrap (op.compute a b)).map .i64
  | _, _, _ => .error .stuck

/-- A comparison of two words of a kind. -/
def IntRel.apply (rel : IntRel) : Kind → Value → Value → Except Halt Value
  | .i32, .i32 a, .i32 b => .ok (truth (rel.holds a b))
  | .i64, .i64 a, .i64 b => .ok (truth (rel.holds a b))
  | _, _, _ => .error .stuck

/-- A conversion of a word. -/
def Conversion.apply : Conversion → Value → Except Halt Value
  | wrap, .i64 a => .ok (.i32 (a.setWidth 32))
  | extendS, .i32 a => .ok (.i64 (a.signExtend 64))
  | extendU, .i32 a => .ok (.i64 (a.setWidth 64))
  | _, _ => .error .stuck

/-- The words, topmost first, after an instruction that looks at nothing else. -/
def Plain.onWords : Plain → List Value → Except Halt (List Value)
  | const v, ws => .ok (v :: ws)
  | arith k op, b :: a :: ws => (op.apply k a b).map (· :: ws)
  | compare k rel, b :: a :: ws => (rel.apply k a b).map (· :: ws)
  | convert c, a :: ws => (c.apply a).map (· :: ws)
  | drop, _ :: ws => .ok ws
  | _, _ => .error .stuck

/-- The words after code that looks at nothing else. -/
def Code.onWords : Code → List Value → Except Halt (List Value)
  | [], ws => .ok ws
  | .plain p :: is, ws => p.onWords ws >>= Code.onWords is
  | _ :: _, _ => .error .stuck

/-! ## States -/

/-- The state of a running function: its locals, the memory, and the words at hand, topmost first. -/
structure Machine where
  locals : List Value
  memory : Memory
  stack : List Value

/-- The index spaces of a module: the types of its functions and the kinds of its globals, in order. -/
structure IndexSpaces where
  functions : List FuncType
  globals : List Kind
  deriving DecidableEq, Repr

/-- An instance of a module: the values of its globals, and what calling its functions does.  A call gives
words of the result kinds, unless it traps or never returns. -/
structure Instance (spaces : IndexSpaces) where
  globals : List Value
  kind_globals : globals.map Value.kind = spaces.globals
  call : Nat → List Value → Memory → Except Halt (List Value × Memory)
  kind_call {i : Nat} {t : FuncType} {args results : List Value} {before after : Memory} :
    spaces.functions[i]? = some t → call i args before = .ok (results, after) →
      results.map Value.kind = t.results
  call_ne_stuck (i : Nat) (args : List Value) (memory : Memory) : call i args memory ≠ .error .stuck

/-- How a run of code ends. -/
inductive Outcome where
  | next (m : Machine)
  /-- A branch to the block so many levels out. -/
  | branch (depth : Nat) (m : Machine)
  | halt (cause : Halt)

namespace Outcome

/-- Goes on where a run came to its end. -/
def andThen : Outcome → (Machine → Outcome) → Outcome
  | next m, f => f m
  | branch d m, _ => branch d m
  | halt h, _ => halt h

/-- The end of a step that cannot branch. -/
def ofExcept : Except Halt Machine → Outcome
  | .ok m => next m
  | .error h => halt h

/-- Leaves a block with a number of results; the words that it hid are below them again. -/
def leave (results : Nat) (hidden : List Value) : Outcome → Outcome
  | next m => next { m with stack := m.stack ++ hidden }
  | branch 0 m => next { m with stack := m.stack.take results ++ hidden }
  | branch (d + 1) m => branch d m
  | halt h => halt h

/-- Runs the body of a loop until it does not branch back, at most `fuel` times. -/
def iterate (body : Machine → Outcome) (hidden : List Value) : (fuel : Nat) → Machine → Outcome
  | 0, _ => halt .timeout
  | fuel + 1, m =>
    match body { m with stack := [] } with
    | branch 0 m => iterate body hidden fuel m
    | o => o.leave 0 hidden

end Outcome

/-! ## Instructions -/

/-- The state after a plain instruction. -/
def Plain.step (globals : List Value) : Plain → Machine → Except Halt Machine
  | localGet i, m =>
    match m.locals[i]? with
    | some v => .ok { m with stack := v :: m.stack }
    | none => .error .stuck
  | localSet i, m =>
    match m.stack with
    | v :: ws =>
      if i < m.locals.length then .ok { m with locals := m.locals.set i v, stack := ws }
      else .error .stuck
    | [] => .error .stuck
  | localTee i, m =>
    match m.stack with
    | v :: _ => if i < m.locals.length then .ok { m with locals := m.locals.set i v } else .error .stuck
    | [] => .error .stuck
  | globalGet i, m =>
    match globals[i]? with
    | some v => .ok { m with stack := v :: m.stack }
    | none => .error .stuck
  | load op arg, m =>
    match m.stack with
    | .i32 a :: ws => do
      let n ← orTrap (m.memory.load op.size (a.toNat + arg.offset))
      return { m with stack := .ofNat op.kind n :: ws }
    | _ => .error .stuck
  | store op arg, m =>
    match m.stack with
    | v :: .i32 a :: ws =>
      if v.kind = op.kind then do
        let memory ← orTrap (m.memory.store op.size (a.toNat + arg.offset) v.toNat)
        return { m with memory, stack := ws }
      else .error .stuck
    | _ => .error .stuck
  | p, m => (p.onWords m.stack).map fun ws => { m with stack := ws }

/-- The state after a call: the arguments are the topmost words, the last one topmost. -/
def Machine.call {spaces : IndexSpaces} (inst : Instance spaces) (i : Nat) (m : Machine) :
    Except Halt Machine :=
  match spaces.functions[i]? with
  | none => .error .stuck
  | some t =>
    if m.stack.length < t.params.length then .error .stuck
    else do
      let args := (m.stack.take t.params.length).reverse
      let (results, memory) ← inst.call i args m.memory
      return { m with memory, stack := results.reverse ++ m.stack.drop t.params.length }

mutual

/-- Runs an instruction. -/
def Instr.exec {spaces : IndexSpaces} (inst : Instance spaces) (fuel : Nat) : Instr → Machine → Outcome
  | .plain p, m => .ofExcept (p.step inst.globals m)
  | .call i, m => .ofExcept (m.call inst i)
  | .br d, m => .branch d m
  | .cond result t f, m =>
    match m.stack with
    | .i32 c :: ws =>
      (if c = 0 then Code.exec inst fuel f { m with stack := [] }
        else Code.exec inst fuel t { m with stack := [] }).leave result.toList.length ws
    | _ => .halt .stuck
  | .loop body, m => .iterate (fun m => Code.exec inst fuel body m) m.stack fuel m

/-- Runs code. -/
def Code.exec {spaces : IndexSpaces} (inst : Instance spaces) (fuel : Nat) : Code → Machine → Outcome
  | [], m => .next m
  | i :: is, m => (i.exec inst fuel m).andThen fun m => Code.exec inst fuel is m

end

/-! ## Laws -/

namespace Outcome

/-- **Going on is associative.** -/
theorem andThen_assoc (o : Outcome) (f g : Machine → Outcome) :
    (o.andThen f).andThen g = o.andThen fun m => (f m).andThen g := by
  cases o <;> rfl

/-- **Going on with nothing changes nothing.** -/
theorem andThen_next (o : Outcome) : o.andThen next = o := by
  cases o <;> rfl

end Outcome

variable {spaces : IndexSpaces} (inst : Instance spaces)

/-- **Code runs piece by piece.** -/
theorem Code.exec_append (fuel : Nat) (a b : Code) (m : Machine) :
    Code.exec inst fuel (a ++ b) m =
      (Code.exec inst fuel a m).andThen fun m => Code.exec inst fuel b m := by
  induction a generalizing m with
  | nil => rfl
  | cons i is ih =>
    simp only [List.cons_append, Code.exec, ih, Outcome.andThen_assoc]

section Steps

variable {globals : List Value} {m : Machine} {i : Nat} {v : Value} {ws : List Value}

theorem Plain.step_localGet (h : m.locals[i]? = some v) :
    (localGet i).step globals m = .ok { m with stack := v :: m.stack } := by
  rw [Plain.step, h]

theorem Plain.step_localSet (h : m.stack = v :: ws) (hi : i < m.locals.length) :
    (localSet i).step globals m = .ok { m with locals := m.locals.set i v, stack := ws } := by
  rw [Plain.step, h]
  exact if_pos hi

theorem Plain.step_drop (h : m.stack = v :: ws) :
    drop.step globals m = .ok { m with stack := ws } := by
  rw [Plain.step, h]
  · rfl
  all_goals exact nofun

theorem Plain.step_globalGet (h : globals[i]? = some v) :
    (globalGet i).step globals m = .ok { m with stack := v :: m.stack } := by
  rw [Plain.step, h]

theorem Plain.step_load {op : LoadOp} {arg : MemArg} {a : BitVec 32} (h : m.stack = .i32 a :: ws) :
    (load op arg).step globals m = (orTrap (m.memory.load op.size (a.toNat + arg.offset))).map
      fun n => { m with stack := .ofNat op.kind n :: ws } := by
  rw [Plain.step, h]
  rfl

theorem Plain.step_store {op : StoreOp} {arg : MemArg} {a : BitVec 32}
    (h : m.stack = v :: .i32 a :: ws) (hk : v.kind = op.kind) :
    (store op arg).step globals m =
      (orTrap (m.memory.store op.size (a.toNat + arg.offset) v.toNat)).map
        fun memory => { m with memory, stack := ws } := by
  rw [Plain.step, h]
  exact if_pos hk

end Steps

/-- **A plain instruction that goes on** is followed by the code behind it. -/
theorem Code.exec_plain {fuel : Nat} {p : Plain} {m m' : Machine} (h : p.step inst.globals m = .ok m')
    (code : Code) : Code.exec inst fuel (.plain p :: code) m = Code.exec inst fuel code m' := by
  rw [Code.exec, Instr.exec, h]
  rfl

/-- **A conditional** runs one of its arms as a block. -/
theorem Instr.exec_cond {fuel : Nat} {result : Option Kind} {first second : Code} {m : Machine}
    {c : BitVec 32} {rest : List Value} (hm : m.stack = .i32 c :: rest) :
    (Instr.cond result first second).exec inst fuel m =
      (if c = 0 then Code.exec inst fuel second { m with stack := [] }
        else Code.exec inst fuel first { m with stack := [] }).leave result.toList.length rest := by
  rw [Instr.exec, hm]

/-- **A call** replaces the arguments by the results. -/
theorem Machine.call_eq {i : Nat} {t : FuncType} {m : Machine} {args rest : List Value}
    (ht : spaces.functions[i]? = some t) (hlen : t.params.length = args.length)
    (hm : m.stack = args.reverse ++ rest) :
    m.call inst i = (inst.call i args m.memory).map fun p =>
      { m with memory := p.2, stack := p.1.reverse ++ rest } := by
  have htake : (m.stack.take t.params.length).reverse = args := by
    rw [hm, hlen, ← List.length_reverse, List.take_left, List.reverse_reverse]
  have hdrop : m.stack.drop t.params.length = rest := by
    rw [hm, hlen, ← List.length_reverse, List.drop_left]
  have hle : ¬ m.stack.length < t.params.length := by
    rw [hm, List.length_append, List.length_reverse]
    omega
  unfold Machine.call
  rw [ht]
  simp only [if_neg hle, htake, hdrop]
  cases inst.call i args m.memory <;> rfl

/-- **Words below those that an instruction uses stay.** -/
theorem Plain.onWords_append (rest : List Value) :
    ∀ {p : Plain} {ws : List Value}, p.onWords ws ≠ .error .stuck →
      p.onWords (ws ++ rest) = (p.onWords ws).map (· ++ rest)
  | .const _, _, _ => rfl
  | .arith k op, b :: a :: _, _ => by
    show (op.apply k a b).map _ = ((op.apply k a b).map _).map _
    cases op.apply k a b <;> rfl
  | .compare k rel, b :: a :: _, _ => by
    show (rel.apply k a b).map _ = ((rel.apply k a b).map _).map _
    cases rel.apply k a b <;> rfl
  | .convert c, a :: _, _ => by
    show (c.apply a).map _ = ((c.apply a).map _).map _
    cases c.apply a <;> rfl
  | .drop, _ :: _, _ => rfl
  | .arith .., [], h | .arith .., [_], h | .compare .., [], h | .compare .., [_], h
  | .convert _, [], h | .drop, [], h | .localGet _, _, h | .localSet _, _, h | .localTee _, _, h
  | .globalGet _, _, h | .load .., _, h | .store .., _, h => absurd rfl h

/-- **An instruction that looks at words only acts on the stack alone.** -/
theorem Plain.step_onWords {globals : List Value} {p : Plain} {m : Machine}
    (h : p.onWords m.stack ≠ .error .stuck) :
    p.step globals m = (p.onWords m.stack).map fun ws => { m with stack := ws } := by
  cases p with
  | const | arith | compare | convert | drop => rfl
  | localGet | localSet | localTee | globalGet | load | store => exact absurd rfl h

/-- **Words below those that code uses stay.** -/
theorem Code.onWords_append (rest : List Value) :
    ∀ {code : Code} {ws : List Value}, code.onWords ws ≠ .error .stuck →
      code.onWords (ws ++ rest) = (code.onWords ws).map (· ++ rest)
  | [], _, _ => rfl
  | .plain p :: is, ws, h => by
    rw [Code.onWords] at h ⊢
    rw [Code.onWords]
    have hp : p.onWords ws ≠ .error .stuck := by
      intro hs
      rw [hs] at h
      exact h rfl
    rw [Plain.onWords_append rest hp]
    cases hw : p.onWords ws with
    | error e => rfl
    | ok ws' =>
      rw [hw] at h
      exact Code.onWords_append rest h
  | .call _ :: _, _, h | .br _ :: _, _, h | .cond .. :: _, _, h | .loop _ :: _, _, h => absurd rfl h

/-- **Code that looks at words only runs on the stack alone.** -/
theorem Code.exec_onWords (fuel : Nat) :
    ∀ {code : Code} {m : Machine}, code.onWords m.stack ≠ .error .stuck →
      Code.exec inst fuel code m =
        .ofExcept ((code.onWords m.stack).map fun ws => { m with stack := ws })
  | [], _, _ => rfl
  | .plain p :: is, m, h => by
    have hp : p.onWords m.stack ≠ .error .stuck := by
      intro hs
      rw [Code.onWords, hs] at h
      exact h rfl
    rw [Code.exec, Instr.exec, Plain.step_onWords hp, Code.onWords]
    rw [Code.onWords] at h
    cases hw : p.onWords m.stack with
    | error e => rfl
    | ok ws =>
      rw [hw] at h
      show Code.exec inst fuel is { m with stack := ws } = _
      exact Code.exec_onWords fuel h
  | .call _ :: _, _, h | .br _ :: _, _, h | .cond .. :: _, _, h | .loop _ :: _, _, h => absurd rfl h

/-- **Code that looks at words only keeps the words below.** -/
theorem Code.exec_onWords_append (fuel : Nat) {code : Code} {m : Machine}
    {takes leaves rest : List Value} (hm : m.stack = takes ++ rest)
    (h : code.onWords takes = .ok leaves) :
    Code.exec inst fuel code m = .next { m with stack := leaves ++ rest } := by
  have hw : code.onWords m.stack = .ok (leaves ++ rest) := by
    rw [hm, Code.onWords_append rest (by rw [h]; exact nofun), h]
    rfl
  rw [Code.exec_onWords inst fuel (by rw [hw]; exact nofun), hw]
  rfl

end Wasm
end WasmLowering
