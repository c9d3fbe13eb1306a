/-
# Scratch registers

`RegisterFile` and `SCRATCH_LOCALS`.

The machine neither duplicates nor swaps.  Every function therefore keeps three
scratch locals right after its parameters, two of kind `i32` and one of kind
`i64`:

    parameters | first | second | wide | declared locals | frame slots
-/

import WasmLowering.Wasm.Instr

namespace WasmLowering

open Wasm

/-- The kinds of the scratch locals, in order. -/
def scratchKinds : List Kind := [.i32, .i32, .i64]

/-- The scratch locals of a function, by the number of its parameters. -/
structure Registers where
  base : Nat
  deriving DecidableEq, Repr

namespace Registers

/-- The first local of kind `i32`. -/
def first (r : Registers) : Nat := r.base

/-- The second local of kind `i32`. -/
def second (r : Registers) : Nat := r.base + 1

/-- The local of kind `i64`. -/
def wide (r : Registers) : Nat := r.base + 2

/-- The local that keeps a copy of a word of some kind. -/
def forKind (r : Registers) : Kind → Nat
  | .i32 => r.first
  | .i64 => r.wide

/-- Copies the topmost word, of the given kind, to its register. -/
def tee (r : Registers) (k : Kind) : Instr := .localTee (r.forKind k)

/-- Swaps the two topmost words, both of kind `i32`. -/
def swap (r : Registers) : Code :=
  [.localSet r.first, .localSet r.second, .localGet r.first, .localGet r.second]

end Registers

end WasmLowering
