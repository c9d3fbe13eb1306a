/-
# Sorts of items

The items of a module are functions, tables, memories, globals and tags.  An item
stands for one that is wanted if it is of the same sort and its type is below the
one that is wanted.
-/

import WasmLowering.Wasm.TypeDef

namespace WasmLowering
namespace Wasm

/-- The sort of an item of a module. -/
inductive ItemSort where
  | function
  | table
  | memory
  | global
  | tag
  deriving DecidableEq, Repr

namespace ItemSort

/-- The name of a sort in messages. -/
def text : ItemSort → String
  | .function => "function"
  | .table => "table"
  | .memory => "memory"
  | .global => "global"
  | .tag => "tag"

/-- The short name of a sort. -/
def shortText : ItemSort → String
  | .function => "func"
  | s => s.text

/-- The name of many items of a sort. -/
def plural : ItemSort → String
  | .function => "functions"
  | .table => "tables"
  | .memory => "memories"
  | .global => "globals"
  | .tag => "tags"

end ItemSort

/-- Why an item cannot stand for one that is wanted. -/
inductive ItemMismatch where
  | sort (wanted found : String)
  | signature (wanted found : TypeDef)
  | tableElement (wanted found : RefType)
  | tableLimits
  | memoryShared
  | memoryAddress
  | memoryLimits
  | mutability
  | globalType (wanted found : ValType)
  deriving DecidableEq, Repr

/-- The wording of a mismatch. -/
def ItemMismatch.text : ItemMismatch → String
  | .sort w f => s!"expected {w}, found {f}"
  | .signature w f => s!"expected: {w.text}\nfound:    {f.text}"
  | .tableElement w f => s!"expected table element type {w.fullText}, found {f.fullText}"
  | .tableLimits => "mismatch in table limits"
  | .memoryShared => "mismatch in the shared flag for memories"
  | .memoryAddress => "mismatch in index type used for memories"
  | .memoryLimits => "mismatch in memory limits"
  | .mutability => "global types differ in mutability"
  | .globalType w f => s!"expected global type {w.fullText}, found {f.fullText}"

end Wasm
end WasmLowering
