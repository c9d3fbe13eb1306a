/-
# What code may refer to

The index spaces of a module as its items fill them, with all types resolved.
Function bodies see them complete, and constant expressions what precedes them.
-/

import WasmLowering.Wasm.ItemType

namespace WasmLowering
namespace Wasm

/-- What the items of a module declare. -/
structure Declarations where
  types : TypeSpace
  /-- The types of all functions, by number, the imported ones first. -/
  functions : Array Nat
  tables : Array TableType
  memories : Array MemoryType
  globals : Array GlobalType
  /-- The types of the tags, by number. -/
  tags : Array Nat
  /-- The types of the references in the element segments. -/
  elements : Array RefType
  /-- The number of data segments, if it is told ahead of them. -/
  dataCount : Option Nat
  /-- The functions that bodies may refer to, besides calling them. -/
  referenced : List Nat
  deriving DecidableEq, Repr

namespace Declarations

/-- Nothing is declared. -/
def empty : Declarations := ⟨.empty, #[], #[], #[], #[], #[], #[], none, []⟩

/-- The signature of the function with an index. -/
def signature? (d : Declarations) (function : Nat) : Option Signature :=
  (d.functions[function]?).bind d.types.signature?

/-- The type of the item of a sort with an index. -/
def item? (d : Declarations) (sort : ItemSort) (index : Nat) : Option ItemType :=
  match sort with
  | .function => (d.functions[index]?).map (.function · false)
  | .table => (d.tables[index]?).map .table
  | .memory => (d.memories[index]?).map .memory
  | .global => (d.globals[index]?).map .global
  | .tag => (d.tags[index]?).map .tag

/-- The number of items of a sort. -/
def count (d : Declarations) : ItemSort → Nat
  | .function => d.functions.size
  | .table => d.tables.size
  | .memory => d.memories.size
  | .global => d.globals.size
  | .tag => d.tags.size

/-- Adds an item. -/
def add (d : Declarations) : ItemType → Declarations
  | .function n _ => { d with functions := d.functions.push n }
  | .table t => { d with tables := d.tables.push t }
  | .memory t => { d with memories := d.memories.push t }
  | .global t => { d with globals := d.globals.push t }
  | .tag n => { d with tags := d.tags.push n }

end Declarations

/-- What code may refer to. -/
structure CodeContext where
  declarations : Declarations
  locals : Array ValType
  /-- The results of the function. -/
  results : List ValType
  deriving DecidableEq, Repr

namespace CodeContext

/-- The item with an index of an index space. -/
def get {α : Type} (space : Array α) (index : Nat) (cause : Violation) : Except Violation α :=
  (space[index]?).elim (.error cause) .ok

/-- The types that are defined. -/
abbrev types (ctx : CodeContext) : TypeSpace := ctx.declarations.types

/-- The definition of the type that an instruction names. -/
def typeDef (ctx : CodeContext) (index : Nat) : Except Violation TypeDef := do
  let n ← get ctx.types.numbers index .unknownCodeType
  get ctx.types.defs n .unknownCodeType

/-- The signature of the type of functions that an instruction names. -/
def signature (ctx : CodeContext) (index : Nat) : Except Violation Signature := do
  let d ← ctx.typeDef index
  match d.shape with
  | .func s => return s
  | _ => throw (.shapeMismatch "func" index d)

/-- The fields of the type of structures that an instruction names. -/
def fields (ctx : CodeContext) (index : Nat) : Except Violation (List Field) := do
  let d ← ctx.typeDef index
  match d.shape with
  | .struct fields => return fields
  | _ => throw (.shapeMismatch "struct" index d)

/-- A field of the type of structures that an instruction names. -/
def field (ctx : CodeContext) (index i : Nat) : Except Violation Field := do
  let fields ← ctx.fields index
  (fields[i]?).elim (.error .unknownField) .ok

/-- The elements of the type of arrays that an instruction names. -/
def element (ctx : CodeContext) (index : Nat) : Except Violation Field := do
  let d ← ctx.typeDef index
  match d.shape with
  | .array element => return element
  | _ => throw (.shapeMismatch "array" index d)

/-- The signature of a block. -/
def blockSignature (ctx : CodeContext) : BlockType → Except Violation Signature
  | .empty => .ok ⟨[], []⟩
  | .value t => do return ⟨[], [← ctx.types.resolveVal t]⟩
  | .index i => ctx.signature i

/-- The signature of the function with an index. -/
def functionSignature (ctx : CodeContext) (i : Nat) : Except Violation Signature :=
  (ctx.declarations.signature? i).elim (.error (.unknownFunction i)) .ok

/-- The type of the local with an index. -/
def localType (ctx : CodeContext) (i : Nat) : Except Violation ValType :=
  get ctx.locals i (.unknownLocal i)

/-- The global with an index. -/
def globalType (ctx : CodeContext) (i : Nat) : Except Violation GlobalType :=
  get ctx.declarations.globals i .unknownGlobal

/-- The memory with an index. -/
def memory (ctx : CodeContext) (i : Nat) : Except Violation MemoryType :=
  get ctx.declarations.memories i (.unknownMemory i)

/-- The type of the addresses of a memory. -/
def address (ctx : CodeContext) (i : Nat) : Except Violation ValType := do
  return (← ctx.memory i).limits.address

/-- The table with an index. -/
def table (ctx : CodeContext) (i : Nat) : Except Violation TableType :=
  get ctx.declarations.tables i (.unknownTable i)

/-- The signature of the tag with an index. -/
def tag (ctx : CodeContext) (i : Nat) : Except Violation Signature := do
  let n ← get ctx.declarations.tags i (.unknownTag i)
  (ctx.types.signature? n).elim (.error (.unknownTag i)) .ok

/-- The type of the references of an element segment. -/
def elements (ctx : CodeContext) (i : Nat) : Except Violation RefType :=
  get ctx.declarations.elements i (.unknownElements i)

/-- Checks the index of a data segment, which bodies know only if their number is told. -/
def data (ctx : CodeContext) (i : Nat) : Except Violation Unit :=
  match ctx.declarations.dataCount with
  | none => .error .missingDataCount
  | some n => if i < n then .ok () else .error (.unknownData i)

end CodeContext

end Wasm
end WasmLowering
