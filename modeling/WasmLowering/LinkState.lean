/-
# Link states

`LinkerState` with `FunctionType`, `ImportKind` and `ImportEntry`, and
`base_linker_state`.

Units are linked one after the other, and each sees what was declared before it.
A link state holds what the next unit inherits: the functions, globals and
memories it imports, in order, and the type of every imported function.

Type `i` belongs to imported function `i`.  Private declarations are carried
along as well, so that indices stay the same from unit to unit; they are marked
as not exported.
-/

import WasmLowering.Width

namespace WasmLowering

/-- The type of a function. -/
structure FuncType where
  params : List Kind
  results : List Kind
  deriving DecidableEq, Repr, Inhabited

/-- What an import brings in. -/
inductive Entity where
  /-- A function, with the index of its type. -/
  | function (type : Nat)
  | global (kind : Kind)
  /-- A memory, with its least number of pages. -/
  | memory (minPages : Nat)
  deriving DecidableEq, Repr

/-- An import: the module that owns it, its name there, and what it brings in. -/
structure Import where
  owner : String
  name : String
  entity : Entity
  /-- Whether the owner exports it, so that a loader can supply it. -/
  exported : Bool := true
  deriving DecidableEq, Repr

/-- What the next unit inherits from the units before it. -/
structure LinkState where
  types : List FuncType
  imports : List Import
  deriving DecidableEq, Repr

/-! The names that the loader supplies or expects. -/

namespace Loader

/-- The module name of everything the loader supplies. -/
def owner : String := "runtime"

/-- The function that is called with a trace record. -/
def traceHook : String := "debug"

/-- The shared memory. -/
def memory : String := "mem"

/-- The address of the string segment of the module that reads it. -/
def dataStart : String := "data_start"

/-- The export that tells the loader the size of a module's string segment. -/
def dataSize : String := "data_size"

end Loader

/-- `base_linker_state`, what the first unit inherits: the hook, the memory and the segment's address. -/
def LinkState.base (minPages : Nat) : LinkState where
  types := [{ params := [], results := [] }]
  imports :=
    [ { owner := Loader.owner, name := Loader.traceHook, entity := .function 0 },
      { owner := Loader.owner, name := Loader.memory, entity := .memory minPages },
      { owner := Loader.owner, name := Loader.dataStart, entity := .global .i32 } ]

end WasmLowering
