/-
# Items of a module

The items of each section are checked as they are read: they are well formed and
refer only to what precedes them.  There are at most `100000` element segments,
and as many data segments.
-/

import WasmLowering.Wasm.ModuleContext
import WasmLowering.Wasm.Payload
import WasmLowering.Wasm.Typing

namespace WasmLowering
namespace Wasm

namespace Items

open ModuleContext (checkCount)

/-- The most segments of a sort. -/
def segmentLimit : Nat := 100000

/-! ## Constant expressions -/

/-- What a constant expression may not do, if an operation does it. -/
def constViolation? (ctx : ModuleContext) (o : Located) : Option Violation :=
  match o.operation with
  | .globalGet i =>
    match ctx.declarations.globals[i]? with
    | none => some (.unknownConstGlobal i)
    | some g => if g.isMutable then some .mutableConst else none
  | op => if op.isConst then none else some (.notConstant o.operator)

/-- Checks the operations of a constant expression one by one. -/
def constRun (ctx : ModuleContext) : List Located → Blocks → Except Rejection Blocks
  | [], blocks => .ok blocks
  | o :: os, blocks =>
    match constViolation? ctx o with
    | some cause => .error ⟨o.offset, cause⟩
    | none =>
      match Typing.step ctx.code o.operation blocks with
      | .error cause => .error ⟨o.offset, cause⟩
      | .ok blocks => constRun ctx os blocks

/-- Checks a constant expression of a type. -/
def checkConst (ctx : ModuleContext) (type : ValType) (ops : List Located) : Reader Unit := do
  let _ ← constRun ctx ops [.opened .body ⟨[], [type]⟩ []]

/-- The functions that operations refer to. -/
def referredBy (ops : List Located) : List Nat :=
  ops.filterMap fun o =>
    match o.operation with
    | .refFunc i => some i
    | _ => none

/-- Checks a constant expression of a type.  It may refer to any function, and bodies may then too. -/
def constExpr (ctx : ModuleContext) (type : ValType) (ops : List Located) : Reader ModuleContext := do
  let ctx := ctx.refer (referredBy ops)
  checkConst ctx type ops
  return ctx

/-! ## Items -/

/-- Takes a group of types. -/
def typeEntry (ctx : ModuleContext) : Reader ModuleContext := do
  let here ← Reader.position
  let group ← Reader.typeGroup
  Reader.check here (ctx.define group)

/-- Refuses the shorter form in which imports may be written, which has an empty name and a mark of
its own. -/
def refuseCompact (item : String) : Reader Unit := do
  if item.isEmpty then
    let b ← Reader.peek
    if b = 0x7e ∨ b = 0x7f then Reader.refuse (← Reader.position) (.compactImport b.toNat)

/-- Takes an import. -/
def importEntry (ctx : ModuleContext) : Reader ModuleContext := do
  let here ← Reader.position
  let module ← Reader.name
  let item ← Reader.name
  refuseCompact item
  let written ← Reader.itemType
  Reader.check here (ctx.importItem (module, item) written)

/-- Takes the type index of a defined function. -/
def functionEntry (ctx : ModuleContext) : Reader ModuleContext := do
  let here ← Reader.position
  let n ← Reader.check here (ItemType.resolveFunction ctx.types (← Reader.u32))
  let s := (ctx.types.signature? n).getD ⟨[], []⟩
  let ctx := { ctx with defined := ctx.defined.push s }
  return ctx.add (.function n false)

/-- Takes a defined table, with the value of its elements if that is written. -/
def tableEntry (ctx : ModuleContext) : Reader ModuleContext := do
  let here ← Reader.position
  if (← Reader.peek) = 0x40 then
    let _ ← Reader.byte
    let markAt ← Reader.position
    if (← Reader.byte) ≠ 0x00 then Reader.refuse markAt .badTable
    let written ← Reader.tableType
    let init ← Decode.constExpr
    let t ← Reader.check here (ItemType.resolveTable ctx.types written)
    let ctx ← constExpr ctx (.ref t.element) init
    return ctx.add (.table t)
  else
    let written ← Reader.tableType
    let t ← Reader.check here (ItemType.resolveTable ctx.types written)
    unless t.element.nullable do Reader.refuse here .tableWithoutDefault
    return ctx.add (.table t)

/-- Takes a defined memory. -/
def memoryEntry (ctx : ModuleContext) : Reader ModuleContext := do
  let here ← Reader.position
  let t ← Reader.memoryType
  Reader.check here (ItemType.checkMemory t)
  return ctx.add (.memory t)

/-- Takes a defined tag. -/
def tagEntry (ctx : ModuleContext) : Reader ModuleContext := do
  let here ← Reader.position
  let n ← Reader.check here (ItemType.resolveTag ctx.types (← Reader.tagType))
  return ctx.add (.tag n)

/-- Takes a defined global. -/
def globalEntry (ctx : ModuleContext) : Reader ModuleContext := do
  let here ← Reader.position
  let written ← Reader.globalType
  let init ← Decode.constExpr
  let t ← Reader.check here (ItemType.resolveGlobal ctx.types written)
  let ctx ← constExpr ctx t.type init
  return ctx.add (.global t)

/-- Takes an export. -/
def exportEntry (ctx : ModuleContext) : Reader ModuleContext := do
  let here ← Reader.position
  let name ← Reader.name
  let sort ← Reader.exportSort
  let index ← Reader.u32
  match ctx.declarations.item? sort index with
  | none => Reader.refuse here (.unknownExport sort index)
  | some t =>
    let ctx ← Reader.check here (ctx.exportItem name t)
    return if sort = .function then ctx.refer [index] else ctx

/-- The elements of a segment as they are written. -/
inductive Elements where
  /-- Functions, each with the offset of its index. -/
  | functions (items : List (Nat × Nat))
  /-- Constant expressions of a type. -/
  | expressions (type : RefType) (items : List (List Located))
  deriving DecidableEq, Repr

/-- Takes the mark of functions. -/
def functionMark : Reader Unit := do
  let here ← Reader.position
  let b ← Reader.byte
  unless b ≤ 0x04 ∨ b = 0x20 do Reader.refuse here (.badLead b.toNat "external kind")
  unless b = 0x00 do Reader.refuse here .badElementKind

/-- Takes a count and as many items. -/
def list {α : Type} (item : Reader α) : Reader (List α) := do Reader.many item (← Reader.u32)

/-- Takes elements; `hasType` tells whether a type, or the mark of functions, stands before them. -/
def elements (areExpressions hasType : Bool) : Reader Elements := do
  if areExpressions then
    let type ← if hasType then Reader.refType else pure (.null .func)
    return .expressions type (← list Decode.constExpr)
  if hasType then functionMark
  return .functions (← list do
    let here ← Reader.position
    return (here, ← Reader.u32))

/-- The type of the elements of a segment at an offset, resolved. -/
def elementType (ctx : ModuleContext) (here : Nat) : Elements → Reader RefType
  | .functions _ => return .nonNull .func
  | .expressions type _ => Reader.check here (ctx.types.resolveRef type)

/-- Checks the elements of a segment, which are of a type. -/
def checkElements (ctx : ModuleContext) (type : RefType) : Elements → Reader ModuleContext
  | .functions items => do
    items.forM fun (here, i) => do
      let _ ← Reader.lookup here ctx.declarations.functions i (.unknownItemFunction i)
    return ctx.refer (items.map Prod.snd)
  | .expressions _ items => items.foldlM (fun ctx ops => constExpr ctx (.ref type) ops) ctx

/-- Takes an element segment.  Of its flags the first tells that it is not copied to a table on its
own, the second that a table or a type is written, and the third that elements are expressions. -/
def elementsEntry (ctx : ModuleContext) : Reader ModuleContext := do
  let here ← Reader.position
  let flags ← Reader.u32
  if 8 ≤ flags then Reader.refuse ((← Reader.position) - 1) .badElementFlags
  let areExpressions := flags.testBit 2
  if flags.testBit 0 then
    let items ← elements areExpressions true
    let type ← elementType ctx here items
    let ctx ← checkElements ctx type items
    return ctx.addElements type
  else
    let index ← if flags.testBit 1 then Reader.u32 else pure 0
    let address ← Decode.constExpr
    let items ← elements areExpressions (flags.testBit 1)
    let type ← elementType ctx here items
    let table ← Reader.lookup here ctx.declarations.tables index (.unknownTable index)
    unless ctx.types.refLe type table.element do
      Reader.refuse here (.elementMismatch type table.element)
    let ctx ← constExpr ctx table.limits.address address
    let ctx ← checkElements ctx type items
    return ctx.addElements type

/-- Takes a data segment, which is copied to a memory at a constant address unless it is passive.  Once
there are bodies, the address may refer to no functions but those that bodies may refer to. -/
def dataEntry (ctx : ModuleContext) : Reader ModuleContext := do
  let here ← Reader.position
  let flags ← Reader.u32
  if 3 ≤ flags then Reader.refuse here .badDataFlags
  if flags = 1 then
    let _ ← Reader.sized
    return ctx
  let index ← if flags = 2 then Reader.u32 else pure 0
  let address ← Decode.constExpr
  let _ ← Reader.sized
  let memory ← Reader.lookup here ctx.declarations.memories index (.unknownSegmentMemory index)
  if ctx.bodies.isEmpty then return ← constExpr ctx memory.limits.address address
  checkConst ctx memory.limits.address address
  return ctx

/-! ## Sections -/

/-- The reader of an item of a section, by its id. -/
def item? : Nat → Option (ModuleContext → Reader ModuleContext)
  | 1 => some typeEntry
  | 2 => some importEntry
  | 3 => some functionEntry
  | 4 => some tableEntry
  | 5 => some memoryEntry
  | 6 => some globalEntry
  | 7 => some exportEntry
  | 9 => some elementsEntry
  | 11 => some dataEntry
  | 13 => some tagEntry
  | _ => none

/-- Checks the function that a module starts with, for the section at an offset. -/
def start (ctx : ModuleContext) (index here : Nat) : Except Rejection Unit :=
  match ctx.declarations.signature? index with
  | none => .error ⟨here, .unknownItemFunction index⟩
  | some s => if s = ⟨[], []⟩ then .ok () else .error ⟨here, .startSignature⟩

/-- The sort of the items that a section with an id defines, if it has them. -/
def definedSort? : Nat → Option ItemSort
  | 3 => some .function
  | 4 => some .table
  | 5 => some .memory
  | 6 => some .global
  | 13 => some .tag
  | _ => none

/-- Checks the number of items of a section. -/
def checkQuota (ctx : ModuleContext) (id count : Nat) : Except Violation Unit :=
  match definedSort? id with
  | some sort =>
    checkCount sort.plural (ModuleContext.sortLimit sort) (ctx.declarations.count sort + count)
  | none =>
    match id with
    | 1 => checkCount "types" ModuleContext.itemLimit (ctx.types.numbers.size + count)
    | 2 => checkCount "imports" ModuleContext.itemLimit count
    | 7 => checkCount "exports" ModuleContext.itemLimit (ctx.exports.length + count)
    | 9 => checkCount "element segments" segmentLimit (ctx.declarations.elements.size + count)
    | 11 => checkCount "data segments" segmentLimit count
    | _ => .ok ()

/-- Checks a section of items. -/
def checkSection (ctx : ModuleContext) (id count here : Nat) (content : Slice) :
    Except Rejection ModuleContext := do
  (checkQuota ctx id count).mapError (Rejection.mk here)
  match item? id with
  | some item => (items item count ctx).run' content
  | none => throw ⟨here, .unknownSection id⟩

/-- Checks the number of data segments that is told ahead of them. -/
def checkDataCount (ctx : ModuleContext) (count here : Nat) : Except Rejection ModuleContext :=
  if segmentLimit < count then .error ⟨here, .tooManyData⟩
  else .ok (ctx.declare fun d => { d with dataCount := some count })

end Items

end Wasm
end WasmLowering
