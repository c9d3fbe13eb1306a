/-
# Running linked programs

A program is loaded with an address for each segment and a hook.  The modules
share one memory, and an import stands for what has its index in the module
before:

| index in module `k`         | function                     | global                        |
|-----------------------------|------------------------------|-------------------------------|
| `0`                         | the hook                     | the address of its segment    |
| of any other import         | the one of module `k - 1`    | the one of module `k - 1`     |
| behind the imports          | its own                      | its own, from its initializer |

So functions are numbered through the program, the hook first.  A call runs the
body of the function on its arguments and zeros; fuel bounds the depth of calls
and the rounds of each loop.

While a call runs, it comes to points: some code is left to run in some state of
a function that was called (`Loading.Step`).  Code is left after any part in front
of it has run, in the arms of conditionals, in each round of a loop, and in the
functions that are called.
-/

import Mathlib.Logic.Relation
import WasmLowering.Link
import WasmLowering.Proofs.ModuleTyping

namespace WasmLowering

open Wasm

/-! ## Loaded programs -/

namespace Wasm

/-- The value of a constant expression, given the imported globals. -/
def ConstExpr.value (imported : List Value) : ConstExpr → Value
  | const v => v
  | globalGet i => (imported[i]?).getD .unit

/-- The imported globals of a module, given the address of its segment and the globals of the module before. -/
def Module.importedValues (m : Module) (start : BitVec 32) (before : List Value) : List Value :=
  .i32 start :: (before.take m.importedGlobals.length).tail

/-- The globals of a module in index order, given the same. -/
def Module.globalValues (m : Module) (start : BitVec 32) (before : List Value) : List Value :=
  m.importedValues start before ++ m.globals.map fun d => d.init.value (m.importedValues start before)

end Wasm

/-- A function of a program: the number of its module and its body. -/
structure Routine where
  home : Nat
  body : FuncBody

/-- The state in which a function starts: its locals are its arguments and zeros. -/
def Routine.enter (r : Routine) (args : List Value) (memory : Memory) : Machine :=
  ⟨args ++ r.body.locals.map (Value.ofNat · 0), memory, []⟩

/-- The functions that a module defines. -/
def Assembled.routines (home : Nat) (a : Assembled) : List Routine := a.code.bodies.map (⟨home, ·⟩)

namespace Program

variable (p : Program)

/-- The functions of a program, in the order of their indices behind the hook. -/
def routines : List Routine := p.modules.zipIdx.flatMap fun a => a.1.routines a.2

/-- What the code of a module may refer to. -/
def spaces (k : Nat) : IndexSpaces := (p.modules[k]?).elim ⟨[], []⟩ (·.code.spaces)

/-- The globals of a module in index order, given the addresses of the segments. -/
def globals (start : Nat → BitVec 32) : (k : Nat) → List Value
  | 0 => (p.modules[0]?).elim [] (·.code.globalValues (start 0) [])
  | k + 1 => (p.modules[k + 1]?).elim [] (·.code.globalValues (start (k + 1)) (globals start k))

end Program

/-- A program with what its loader supplies.  The globals have the kinds that the modules ask for. -/
structure Loading (p : Program) where
  start : Nat → BitVec 32
  hook : Memory → Except Halt Memory
  kinds (k : Nat) : (p.globals start k).map Value.kind = (p.spaces k).globals

/-- What a call gives its caller.  Results of other kinds than those of the type, and code that fits no rule,
are traps; typed code has neither. -/
def settle (type : Option FuncType) : Except Halt (List Value × Memory) → Except Halt (List Value × Memory)
  | .ok (results, memory) =>
    if type.all fun t => decide (results.map Value.kind = t.results) then .ok (results, memory)
    else .error .trap
  | .error .stuck => .error .trap
  | .error cause => .error cause

/-- **What a caller is given** is what the call gave, of the kinds of its type. -/
theorem settle_eq_ok {type : Option FuncType} {x : Except Halt (List Value × Memory)} {results : List Value}
    {memory : Memory} (h : settle type x = .ok (results, memory)) :
    x = .ok (results, memory) ∧ ∀ t ∈ type, results.map Value.kind = t.results := by
  unfold settle at h
  split at h
  · split at h
    · rename_i hkinds
      cases h
      refine ⟨rfl, ?_⟩
      rintro t rfl
      exact of_decide_eq_true hkinds
    · cases h
  · cases h
  · cases h

theorem settle_ne_stuck (type : Option FuncType) (x : Except Halt (List Value × Memory)) :
    settle type x ≠ .error .stuck := by
  unfold settle
  split
  · split
    · rintro ⟨⟩
    · rintro ⟨⟩
  · rintro ⟨⟩
  · rename_i hne
    rintro ⟨⟩
    exact hne rfl

namespace Loading

variable {p : Program} (L : Loading p)

/-- The instance of a module, given what calls do. -/
def instanceOf (k : Nat) (call : Nat → List Value → Memory → Except Halt (List Value × Memory)) :
    Instance (p.spaces k) where
  globals := p.globals L.start k
  kind_globals := L.kinds k
  call i args memory := settle (p.spaces k).functions[i]? (call i args memory)
  kind_call ht h := (settle_eq_ok h).2 _ ht
  call_ne_stuck _ _ _ := settle_ne_stuck _ _

/-- Calls the function with an index. -/
def call : (fuel index : Nat) → List Value → Memory → Except Halt (List Value × Memory)
  | 0, _, _, _ => .error .timeout
  | _ + 1, 0, _, memory => (L.hook memory).map fun memory => ([], memory)
  | fuel + 1, i + 1, args, memory =>
    match p.routines[i]? with
    | none => .error .stuck
    | some r =>
      match Code.exec (L.instanceOf r.home (call fuel)) fuel r.body.code (r.enter args memory) with
      | .next m => .ok (m.stack.reverse, m.memory)
      | .branch _ _ => .error .stuck
      | .halt cause => .error cause

end Loading

/-! ## Points of a run -/

/-- Where a run has come to: the code that is left of a block of a function, and the state of the function. -/
structure Point where
  fuel : Nat
  /-- The number of the function among those of the program. -/
  routine : Nat
  code : Code
  machine : Machine

namespace Loading

variable {p : Program} (L : Loading p)

/-- Runs code of a function. -/
def exec (fuel : Nat) (r : Routine) (code : Code) (m : Machine) : Outcome :=
  Code.exec (L.instanceOf r.home (L.call fuel)) fuel code m

/-- A run goes from one point to another. -/
inductive Step : Point → Point → Prop
  /-- Some code in front is run to its end. -/
  | run {fuel i : Nat} {r : Routine} {first rest : Code} {m m' : Machine} :
    p.routines[i]? = some r → L.exec fuel r first m = .next m' →
      Step ⟨fuel, i, first ++ rest, m⟩ ⟨fuel, i, rest, m'⟩
  /-- A conditional runs one of its arms. -/
  | arm {fuel i : Nat} {result : Option Kind} {first second rest : Code} {m : Machine} {c : BitVec 32}
      {ws : List Value} : m.stack = .i32 c :: ws →
    Step ⟨fuel, i, .cond result first second :: rest, m⟩
      ⟨fuel, i, if c = 0 then second else first, { m with stack := [] }⟩
  /-- A loop runs its body. -/
  | enter {fuel i : Nat} {body rest : Code} {m : Machine} :
    Step ⟨fuel, i, .loop body :: rest, m⟩ ⟨fuel, i, body, { m with stack := [] }⟩
  /-- The body of a loop branches back to its start. -/
  | again {fuel i : Nat} {r : Routine} {body rest : Code} {m m' : Machine} :
    p.routines[i]? = some r → L.exec fuel r body { m with stack := [] } = .branch 0 m' →
      Step ⟨fuel, i, .loop body :: rest, m⟩ ⟨fuel, i, .loop body :: rest, { m' with stack := m.stack }⟩
  /-- A call runs the body of its function. -/
  | call {fuel i j : Nat} {r callee : Routine} {t : FuncType} {rest : Code} {m : Machine}
      {args ws : List Value} : p.routines[i]? = some r → (p.spaces r.home).functions[j + 1]? = some t →
    t.params.length = args.length → m.stack = args.reverse ++ ws → p.routines[j]? = some callee →
      Step ⟨fuel + 1, i, .call (j + 1) :: rest, m⟩ ⟨fuel, j, callee.body.code, callee.enter args m.memory⟩

/-- A run comes from one point to another. -/
def Reaches : Point → Point → Prop := Relation.ReflTransGen L.Step

end Loading

end WasmLowering
