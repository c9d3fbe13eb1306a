/-
# The highwater mark

`read_highwater`, `write_highwater` and `grow_highwater`.

Buffers are allocated by moving a mark up and released by moving it back.  The
mark is the first word of the memory.  A store takes its address below its
value, so the code that stores the mark swaps the two topmost words.
-/

import WasmLowering.Layout
import WasmLowering.Lower.Registers

namespace WasmLowering

open Wasm

namespace Highwater

/-- The access to the mark, a whole word at its own address. -/
def arg : MemArg := { align := 2, offset := 0 }

/-- Leaves the mark. -/
def read : Code := [.constI32 Layout.highwater, .load .word32 arg]

/-- Takes the topmost word as the new mark. -/
def write (r : Registers) : Code :=
  .constI32 Layout.highwater :: r.swap ++ [.store .word32 arg]

/-- Takes the topmost word as a number of bytes to move the mark up by. -/
def grow (r : Registers) : Code := read ++ .arith .i32 .add :: write r

end Highwater

end WasmLowering
