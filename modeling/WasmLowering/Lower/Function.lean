/-
# Code for functions

`lower_function`.

The locals of a function are its parameters, the scratch registers, its declared
locals and one slot per level of allocation frames.  Its code is the code of its
body, whose value a function without a result drops.  With tracing on, the body
stands between the records of entry and return.
-/

import WasmLowering.Lower.Expr
import WasmLowering.Trace
import WasmLowering.Wasm.Module

namespace WasmLowering

open Wasm

namespace Function

/-- The variables of a function. -/
def frame (f : Function) : Frame := ⟨f.args.length, f.locals.length⟩

/-- The kind of a function's result, if it has one. -/
def resultKind (f : Function) : Option Kind := f.results.head?.map Width.kind

/-- The type of a function. -/
def type (f : Function) : FuncType :=
  { params := f.args.map Width.kind, results := f.results.map Width.kind }

/-- The locals behind the parameters, given the number of frame slots. -/
def localKinds (f : Function) (slots : Nat) : List Kind :=
  scratchKinds ++ f.locals.map Width.kind ++ List.replicate slots .i32

/-- Runs the lowering of a body on a segment; gives the code and the state it ends in. -/
def lowerBody (scope : Scope) (f : Function) : EStateM Fault Segment (Code × LowerState) :=
  fun segment =>
    match f.body.lower scope f.frame (.start segment) with
    | .ok code st => .ok (code, st) st.segment
    | .error fault st => .error fault st.segment

/-- The body of a function as the machine runs it; `traced` asks for trace records. -/
def lower (scope : Scope) (traced : Bool) (f : Function) : EStateM Fault Segment FuncBody := do
  if f.results.length > 1 then throw (.manyResults f.name f.results.length)
  let entry ← if traced then Trace.entry f.name (f.args.map Width.kind) else pure []
  let (code, st) ← f.lowerBody scope
  if st.depth ≠ 0 then throw (.openFrames f.name st.depth)
  let exit ← if traced then Trace.exit f.resultKind f.frame.registers else pure []
  let discard : Code := if f.resultKind.isNone then [.drop] else []
  return { locals := f.localKinds st.slots, code := entry ++ code ++ exit ++ discard }

end Function

end WasmLowering
