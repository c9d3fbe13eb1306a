/-
# Linking

`link_units` and `LinkedProgram`; `validate_module` and `defined_function_types`
for the bytes of one module.

Linking assembles units in order, each over the link state that the units before
it leave, and stops at the first unit that fails.  The modules are then checked,
if the settings ask for it.
-/

import WasmLowering.Manifest
import WasmLowering.Wasm.Validate

namespace WasmLowering

/-- A linked program: its modules in the order of instantiation. -/
structure Program where
  modules : List Assembled
  deriving Repr

namespace Program

/-- `LinkedProgram::module`, by the position of the first module with a name. -/
def position? (p : Program) (name : String) : Option Nat :=
  p.modules.findIdx? fun m => m.name == name

/-- The manifest of a program. -/
def manifest (p : Program) : String := WasmLowering.manifest (p.modules.map Assembled.summary)

end Program

/-- `validate_module`: checks the bytes of a unit's module. -/
def checkModule (unit : String) (bytes : Bytes) : Except Fault Unit :=
  (Wasm.validate bytes).mapError (.invalidModule unit)

/-- `defined_function_types`: the type of every function that a unit's module defines, read off its bytes. -/
def moduleFunctionTypes (unit : String) (bytes : Bytes) : Except Fault (List Nat) :=
  (Wasm.definedFunctionTypes bytes).mapError (.invalidModule unit)

namespace Link

/-- Assembles units over a link state. -/
def assembleAll (config : Config) : LinkState → List SourceUnit → Except Fault (List Assembled)
  | _, [] => .ok []
  | state, u :: us => do
    let (first, next) ← assemble config state u
    let rest ← assembleAll config next us
    return first :: rest

end Link

/-- `link_units`: links units into a program.  Of several modules that fail their check, the first is reported;
`link_units` checks them in parallel and leaves open which. -/
def link (config : Config) (units : List SourceUnit) : Except Fault Program := do
  let modules ← Link.assembleAll config (.base config.minPages) units
  if config.validated then modules.forM fun m => checkModule m.name m.bytes
  return { modules }

end WasmLowering
