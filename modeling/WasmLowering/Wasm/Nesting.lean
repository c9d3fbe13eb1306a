/-
# Nesting of blocks

Code is a sequence of instructions that nests by marks: some open a block, some
pass to its next part, and one closes it.  Which marks may stand where can be
told from the first bytes of the instructions alone.

| byte                   | mark                        | stands in     |
|------------------------|-----------------------------|---------------|
| `02`, `03`, `04`, `1f` | opens a block               | any block     |
| `05`                   | passes to the second branch | a conditional |
| `0b`                   | closes a block              | any block     |
-/

import WasmLowering.Wasm.Violation

namespace WasmLowering
namespace Wasm

/-- The form of a block, which decides how it may go on and what a branch to it takes along. -/
inductive BlockForm where
  | body
  | block
  | loop
  | cond
  | otherwise
  | handler
  deriving DecidableEq, Repr

/-- The forms of the open blocks, innermost first. -/
abbrev Nesting := List BlockForm

namespace Nesting

/-- Code starts in a body. -/
def start : Nesting := [.body]

/-- Why an instruction with a first byte may not stand in the innermost block, if it may not. -/
def misplaced? (blocks : Nesting) : UInt8 → Option Violation
  | 0x05 => if blocks.head? = some .cond then none else some .misplacedElse
  | _ => none

/-- The open blocks after an instruction with a first byte. -/
def after (blocks : Nesting) : UInt8 → Nesting
  | 0x02 => .block :: blocks
  | 0x03 => .loop :: blocks
  | 0x04 => .cond :: blocks
  | 0x05 => .otherwise :: blocks.tail
  | 0x1f => .handler :: blocks
  | 0x0b => blocks.tail
  | _ => blocks

end Nesting

end Wasm
end WasmLowering
