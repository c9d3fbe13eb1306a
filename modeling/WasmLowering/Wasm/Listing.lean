/-
# Listings

Code as text, one line per opcode.
-/

import WasmLowering.Wasm.Instr

namespace WasmLowering
namespace Wasm

/-- The line of a memory access; there is one memory, number `0`. -/
def MemArg.line (name : String) (arg : MemArg) : String :=
  s!"{name} offset={arg.offset} align={arg.align} memory=0"

/-- The line of a plain instruction.  Constants are written in two's complement. -/
def Plain.line : Plain → String
  | const v => s!"{v.kind.valType}.const {v.toInt}"
  | arith k op => k.label ++ op.text
  | compare k rel => k.label ++ rel.text
  | convert c => c.text
  | localGet i => s!"local.get {i}"
  | localSet i => s!"local.set {i}"
  | localTee i => s!"local.tee {i}"
  | globalGet i => s!"global.get {i}"
  | drop => "Drop"
  | load op arg => arg.line op.text
  | store op arg => arg.line op.text

/-- The line of an opcode. -/
def Opcode.line : Opcode → String
  | plain i => i.line
  | call i => s!"call {i}"
  | br d => s!"br {d}"
  | cond none => "if"
  | cond (some k) => "if " ++ k.valType
  | loop => "loop"
  | otherwise => "Else"
  | finish => "End"

/-- The lines of a sequence of instructions. -/
def Code.lines (code : Code) : List String := code.flatten.map Opcode.line

end Wasm
end WasmLowering
