/-
# Modules

A module as it is emitted: types, imports, functions, immutable globals,
exports, and one data segment at the address in the first global.
-/

import WasmLowering.Bytes
import WasmLowering.LinkState
import WasmLowering.Wasm.Instr
import WasmLowering.Wasm.ItemSort

namespace WasmLowering
namespace Wasm

/-- A constant expression. -/
inductive ConstExpr where
  | const (value : Value)
  | globalGet (index : Nat)
  deriving DecidableEq, Repr

/-- A defined global, which never changes. -/
structure GlobalDef where
  kind : Kind
  init : ConstExpr
  deriving DecidableEq, Repr

/-- An export. -/
structure Export where
  name : String
  sort : ItemSort
  index : Nat
  deriving DecidableEq, Repr

/-- The body of a function: its locals behind the parameters, and its code. -/
structure FuncBody where
  locals : List Kind
  code : Code
  deriving Repr

/-- A module. -/
structure Module where
  types : List FuncType
  imports : List Import
  /-- The types of the defined functions. -/
  functions : List Nat
  globals : List GlobalDef
  exports : List Export
  bodies : List FuncBody
  data : Bytes
  deriving Repr

end Wasm
end WasmLowering
