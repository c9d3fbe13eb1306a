/-
# Types of items

A module imports, defines and exports functions, tables, memories, globals and
tags.  The type of an item is checked where it is declared, and then its defined
types are resolved.

| limit                                            | number      |
|--------------------------------------------------|-------------|
| pages of a memory with 32-bit addresses          | `65536`     |
| pages of a memory with 64-bit addresses          | `2 ^ 48`    |
| entries of a table with 32-bit, 64-bit addresses | all of them |
-/

import WasmLowering.Wasm.TypeReader

namespace WasmLowering
namespace Wasm

/-- The type of an item.  Functions and tags have a defined type. -/
inductive ItemType where
  /-- A function; `isExact` tells that types below its type are left out. -/
  | function (type : Nat) (isExact : Bool)
  | table (type : TableType)
  | memory (type : MemoryType)
  | global (type : GlobalType)
  | tag (type : Nat)
  deriving DecidableEq, Repr

namespace Reader

/-- Takes the type of an item. -/
def itemType : Reader ItemType := do
  let here ← position
  match ← byte with
  | 0x00 => return .function (← u32) false
  | 0x20 => return .function (← u32) true
  | 0x01 => return .table (← tableType)
  | 0x02 => return .memory (← memoryType)
  | 0x03 => return .global (← globalType)
  | 0x04 => return .tag (← tagType)
  | b => refuse here (.badLead b.toNat "external kind")

/-- The sort of an item with a mark. -/
def itemSort? : UInt8 → Option ItemSort
  | 0x00 => some .function
  | 0x01 => some .table
  | 0x02 => some .memory
  | 0x03 => some .global
  | 0x04 => some .tag
  | _ => none

/-- Takes the sort of an item that is exported. -/
def exportSort : Reader ItemSort := do
  let here ← position
  let b ← byte
  if b = 0x20 then refuse (← position) .exactExport
  match itemSort? b with
  | none => refuse here (.badLead b.toNat "external kind")
  | some sort => return sort

end Reader

namespace ItemType

/-- The sort of an item. -/
def sort : ItemType → ItemSort
  | function .. => .function
  | table _ => .table
  | memory _ => .memory
  | global _ => .global
  | tag _ => .tag

/-- The short name of the sort of an item. -/
def sortText : ItemType → String
  | function _ true => "func_exact"
  | t => t.sort.shortText

/-- The most pages of a memory with addresses of a type. -/
def pageLimit (address : ValType) : Nat :=
  if address = .i64 then 281474976710656 else 65536

/-- The most entries of a table with addresses of a type. -/
def entryLimit (address : ValType) : Nat :=
  if address = .i64 then 18446744073709551615 else 4294967295

/-- Refuses what does not hold. -/
def require (condition : Bool) (cause : Violation) : Except Violation Unit :=
  if condition then .ok () else .error cause

/-- **A requirement is met exactly when it holds.** -/
@[simp] theorem require_eq_ok {condition : Bool} {cause : Violation} :
    require condition cause = .ok () ↔ condition = true := by
  cases condition <;> simp [require]

/-- The number of the type of functions with an index. -/
def resolveFunction (types : TypeSpace) (index : Nat) : Except Violation Nat := do
  let n ← types.number index
  require (types.signature? n).isSome (.notFunctionType index)
  return n

/-- The number of the type of a tag with an index; a tag has no results. -/
def resolveTag (types : TypeSpace) (index : Nat) : Except Violation Nat := do
  let n ← resolveFunction types index
  require ((types.signature? n).all fun s => s.results.isEmpty) .tagSignature
  return n

/-- Checks that limits are in order. -/
def checkLimits (l : Limits) : Except Violation Unit :=
  require (l.most.all (l.least ≤ ·)) .limitsCrossed

/-- Checks the type of a memory. -/
def checkMemory (t : MemoryType) : Except Violation Unit := do
  checkLimits t.limits
  require t.pageSize.isNone .customPages
  let limit := pageLimit t.limits.address
  require (t.limits.least ≤ limit && t.limits.most.all (· ≤ limit)) (.memoryTooLarge limit)
  require (!t.isShared || t.limits.most.isSome) .unboundedShared

/-- Checks the type of a table, and resolves it. -/
def resolveTable (types : TypeSpace) (t : TableType) : Except Violation TableType := do
  let element ← types.resolveRef t.element
  checkLimits t.limits
  require (!t.isShared) .sharedTable
  let limit := entryLimit t.limits.address
  require (t.limits.least ≤ limit && t.limits.most.all (· ≤ limit)) (.tableTooLarge limit)
  return { t with element }

/-- Checks the type of a global, and resolves it. -/
def resolveGlobal (types : TypeSpace) (t : GlobalType) : Except Violation GlobalType := do
  let type ← types.resolveVal t.type
  require (!t.isShared) .sharedGlobal
  return { t with type }

/-- Checks the type of an item, and resolves it. -/
def resolve (types : TypeSpace) : ItemType → Except Violation ItemType
  | function i isExact => return function (← resolveFunction types i) isExact
  | table t => return table (← resolveTable types t)
  | memory t => do
    checkMemory t
    return memory t
  | global t => return global (← resolveGlobal types t)
  | tag i => return tag (← resolveTag types i)

/-- The number of words in the type of an item. -/
def size (types : TypeSpace) : ItemType → Nat
  | function n _ | tag n => 1 + ((types.shape? n).map Shape.size).getD 0
  | _ => 1

/-- Whether limits lie within others. -/
def within (found wanted : Limits) : Bool :=
  wanted.least ≤ found.least && wanted.most.all fun w => found.most.any (· ≤ w)

/-- Why a table cannot stand for another, if it cannot. -/
def tableMismatch? (found wanted : TableType) : Option ItemMismatch :=
  if found.element ≠ wanted.element then some (.tableElement wanted.element found.element)
  else if !within found.limits wanted.limits then some .tableLimits
  else none

/-- Why a memory cannot stand for another, if it cannot. -/
def memoryMismatch? (found wanted : MemoryType) : Option ItemMismatch :=
  if found.isShared ≠ wanted.isShared then some .memoryShared
  else if found.limits.address ≠ wanted.limits.address then some .memoryAddress
  else if !within found.limits wanted.limits then some .memoryLimits
  else none

/-- Why a global cannot stand for another, if it cannot. -/
def globalMismatch? (found wanted : GlobalType) : Option ItemMismatch :=
  if found.isMutable ≠ wanted.isMutable then some .mutability
  else if found.type ≠ wanted.type then some (.globalType wanted.type found.type)
  else none

/-- The mismatch between two types of functions. -/
def signatures? (types : TypeSpace) (found wanted : Nat) : Option ItemMismatch :=
  match types.defs[wanted]?, types.defs[found]? with
  | some w, some f => some (.signature w f)
  | _, _ => none

/-- Why a type of functions cannot stand for another, if it cannot. -/
def signatureMismatch? (types : TypeSpace) (found wanted : Nat) : Option ItemMismatch :=
  if types.reaches found found wanted then none else signatures? types found wanted

/-- Why an exact type of functions cannot stand for another, if it cannot. -/
def exactMismatch? (types : TypeSpace) (found wanted : Nat) : Option ItemMismatch :=
  if found = wanted then none else signatures? types found wanted

/-- Why an item cannot stand for one that is wanted, if it cannot. -/
def mismatch? (types : TypeSpace) (found wanted : ItemType) : Option ItemMismatch :=
  match found, wanted with
  | function f _, function w false | tag f, tag w => signatureMismatch? types f w
  | function f true, function w true => exactMismatch? types f w
  | table f, table w => tableMismatch? f w
  | memory f, memory w => memoryMismatch? f w
  | global f, global w => globalMismatch? f w
  | f, w => some (.sort w.sortText f.sortText)

end ItemType

end Wasm
end WasmLowering
