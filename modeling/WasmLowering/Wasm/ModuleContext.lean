/-
# Contexts of modules

What the items of a module have given so far.

| limit                                     | number    |
|-------------------------------------------|-----------|
| tables, and memories, of a module         | `100`     |
| any other items of a sort                 | `1000000` |
| words in the types of imports and exports | `1000000` |
-/

import WasmLowering.Wasm.Declarations

namespace WasmLowering
namespace Wasm

/-- The name of an import: that of a module and that of an item of it. -/
abbrev ImportName := String × String

/-- What a module needs and what it offers. -/
structure ModuleType where
  imports : List (ImportName × ItemType)
  exports : List (String × ItemType)
  /-- The number of words in the types of imports and exports. -/
  size : Nat
  deriving DecidableEq, Repr

/-- What the items of a module have given so far. -/
structure ModuleContext where
  declarations : Declarations
  /-- The signatures of the defined functions. -/
  defined : Array Signature
  /-- The imports, the last one first. -/
  imports : List (ImportName × ItemType)
  /-- The exports, the last one first. -/
  exports : List (String × ItemType)
  /-- The number of words in the types of imports and exports. -/
  typeSize : Nat
  /-- The contents of the function bodies. -/
  bodies : List Slice
  deriving DecidableEq, Repr

namespace ModuleContext

/-- Nothing is given; other modules may have defined types. -/
def start (types : TypeSpace) : ModuleContext :=
  ⟨{ Declarations.empty with types := { types with numbers := #[] } }, #[], [], [], 1, []⟩

/-- The types of the module. -/
abbrev types (ctx : ModuleContext) : TypeSpace := ctx.declarations.types

/-- What constant expressions may refer to. -/
def code (ctx : ModuleContext) : CodeContext :=
  { declarations := ctx.declarations, locals := #[], results := [] }

/-- Changes what is declared. -/
def declare (ctx : ModuleContext) (f : Declarations → Declarations) : ModuleContext :=
  { ctx with declarations := f ctx.declarations }

/-- Adds an item. -/
def add (ctx : ModuleContext) (t : ItemType) : ModuleContext := ctx.declare (·.add t)

/-- Adds functions that bodies may refer to. -/
def refer (ctx : ModuleContext) (functions : List Nat) : ModuleContext :=
  ctx.declare fun d => { d with referenced := functions ++ d.referenced }

/-- Adds an element segment. -/
def addElements (ctx : ModuleContext) (t : RefType) : ModuleContext :=
  ctx.declare fun d => { d with elements := d.elements.push t }

/-- The most tables, and the most memories, of a module. -/
def spaceLimit : Nat := 100

/-- The most items of any other sort. -/
def itemLimit : Nat := 1000000

/-- The most items of a sort. -/
def sortLimit : ItemSort → Nat
  | .table | .memory => spaceLimit
  | _ => itemLimit

/-- The number that the words in the types of imports and exports stay below. -/
def typeSizeLimit : Nat := 1000000

/-- Refuses more things of a sort than a limit. -/
def checkCount (what : String) (limit count : Nat) : Except Violation Unit :=
  if limit < count then .error (.countLimit what limit) else .ok ()

/-- Adds the type of an import or an export to the size of all. -/
def measure (ctx : ModuleContext) (t : ItemType) : Except Violation ModuleContext :=
  let typeSize := ctx.typeSize + t.size ctx.types
  if typeSizeLimit ≤ typeSize then .error (.typeSizeLimit typeSizeLimit)
  else .ok { ctx with typeSize }

/-- Adds a group of types. -/
def define (ctx : ModuleContext) (group : List TypeDef) : Except Violation ModuleContext := do
  checkCount "types" itemLimit (ctx.types.numbers.size + group.length)
  let types ← ctx.types.define group
  return ctx.declare fun d => { d with types }

/-- Adds an import of a type as it is written. -/
def importItem (ctx : ModuleContext) (name : ImportName) (written : ItemType) :
    Except Violation ModuleContext := do
  let t ← written.resolve ctx.types
  let ctx := { ctx with imports := (name, t) :: ctx.imports }
  let ctx := ctx.add t
  checkCount t.sort.plural (sortLimit t.sort) (ctx.declarations.count t.sort)
  ctx.measure t

/-- Adds an export of an item. -/
def exportItem (ctx : ModuleContext) (name : String) (t : ItemType) :
    Except Violation ModuleContext := do
  let ctx ← ctx.measure t
  if ctx.exports.any fun e => e.1 == name then throw (.duplicateExport name)
  return { ctx with exports := (name, t) :: ctx.exports }

/-- What the module needs and offers, if its imports have different names. -/
def type (ctx : ModuleContext) : Except Violation ModuleType := do
  let imports := ctx.imports.reverse
  let names := imports.map Prod.fst
  if let some (m, i) := names.find? fun n => names.count n ≠ 1 then throw (.duplicateImport m i)
  return { imports, exports := ctx.exports.reverse, size := ctx.typeSize }

end ModuleContext

end Wasm
end WasmLowering
