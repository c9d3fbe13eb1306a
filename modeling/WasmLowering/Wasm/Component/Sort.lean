/-
# Sorts of parts

What a component may import and export, and the types of values that need no
definition.
-/

import WasmLowering.Wasm.ItemSort

namespace WasmLowering
namespace Wasm

/-- Whether a part is imported or exported. -/
inductive Side where
  | needed
  | offered
  deriving DecidableEq, Repr

/-- The name of a side in messages. -/
def Side.text : Side → String
  | needed => "import"
  | offered => "export"

/-- The sort of a part. -/
inductive PartSort where
  | module
  | function
  | value
  | type
  | component
  | inst
  deriving DecidableEq, Repr

/-- The name of a sort in messages. -/
def PartSort.text : PartSort → String
  | .module => "module"
  | .function => "func"
  | .value => "value"
  | .type => "type"
  | .component => "component"
  | .inst => "instance"

/-- The types of values that need no definition. -/
inductive Primitive where
  | bool
  | s8
  | u8
  | s16
  | u16
  | s32
  | u32
  | s64
  | u64
  | f32
  | f64
  | char
  | string
  | errorContext
  deriving DecidableEq, Repr

namespace Primitive

/-- The name of a type in messages. -/
def text : Primitive → String
  | bool => "bool"
  | s8 => "s8"
  | u8 => "u8"
  | s16 => "s16"
  | u16 => "u16"
  | s32 => "s32"
  | u32 => "u32"
  | s64 => "s64"
  | u64 => "u64"
  | f32 => "f32"
  | f64 => "f64"
  | char => "char"
  | string => "string"
  | errorContext => "error-context"

end Primitive

end Wasm
end WasmLowering
