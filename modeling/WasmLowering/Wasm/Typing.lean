/-
# Stack typing

The rule of each operation: what it checks in its context, and what it does to
the open blocks.  Operands are taken from right to left, and the first check
that fails is the one reported, so the order of the steps of a rule matters.
-/

import WasmLowering.Wasm.Blocks
import WasmLowering.Wasm.Decode

namespace WasmLowering
namespace Wasm

namespace Typing

open Check

/-- A nullable reference to the type that an instruction names. -/
def refTo (index : Nat) : Check ValType := do
  return .ref (.null (.defined (← ask fun ctx => ctx.types.number index)))

/-- Leaves a reference to a new object of the type that an instruction names. -/
def pushNew (index : Nat) : Check Unit := do
  push (.ref (.nonNull (.defined (← ask fun ctx => ctx.types.number index))))

/-- Refuses what does not hold. -/
def require (condition : Bool) (cause : Violation) : Check Unit := do
  unless condition do throw cause

/-- The type of the lengths of what is copied between places with given addresses. -/
def lengthType (a b : ValType) : ValType := if a = .i64 ∧ b = .i64 then .i64 else .i32

/-- The number that the offset of an access with 32-bit addresses stays below. -/
def offsetBound : Nat := 4294967296

/-- The number of lanes of a vector whose lanes have a size, by its binary logarithm. -/
def laneCount (natural : Nat) : Nat := Nat.pow 2 (4 - natural)

/-- An access to a memory, for one lane of a vector if its number is given. -/
def access (a : Access) (lane : Option Nat) : Check Unit := do
  require (!a.isAtomic || a.align == a.natural) .alignmentNotNatural
  let address ← ask fun ctx => ctx.address a.memory
  require (a.align ≤ a.natural) .alignmentTooLarge
  require (address == .i64 || a.offset < offsetBound) .offsetTooLarge
  require (lane.all (· < laneCount a.natural)) .badLane
  popAll a.effect.takes
  pop address
  pushAll a.effect.leaves

/-- Picks the lanes of a vector from two vectors. -/
def shuffle (lanes : List Nat) : Check Unit := do
  popAll [.v128, .v128]
  require (lanes.all (· < 2 * laneCount 0)) .badLane
  push .v128

/-- Reads a local, which is set if it has no default value. -/
def localGet (i : Nat) : Check Unit := do
  let t ← ask fun ctx => ctx.localType i
  require (t.hasDefault || (← innermost).ready.contains i) (.unsetLocal i)
  push t

/-- Writes a global. -/
def globalSet (i : Nat) : Check Unit := do
  let g ← ask fun ctx => ctx.globalType i
  require g.isMutable .immutableGlobal
  pop g.type

/-- Selects one of two words, which are no references. -/
def select : Check Unit := do
  pop .i32
  let a ← popAny none
  let b ← popAny none
  match a, b with
  | .anyRef, _ | _, .anyRef | .anyRefTo _, _ | _, .anyRefTo _
  | .known (.ref _), _ | _, .known (.ref _) => throw .selectOfRefs
  | .any, w | w, .any => pushOperand w
  | .known t, .known u =>
    require (t == u) .selectOfTwoTypes
    push t

/-- Selects one of two words of a type that is written. -/
def selectOf : List ValType → Check Unit
  | [t] => do
    let t ← ask fun ctx => ctx.types.resolveVal t
    popAll [.i32, t, t]
    push t
  | _ => throw .selectArity

/-- Checks that words of some types can stand for words of others, type by type. -/
def fits : (found wanted : List ValType) → Check Unit
  | f :: fs, w :: ws => do
    require ((← read).types.valLe f w) (.typeMismatch w f)
    fits fs ws
  | _, _ => return ()

/-- Why what a handler takes to its label is not of the right number. -/
def handlerArity (h : Handler) : Violation :=
  match h.tag, h.withRef with
  | some _, false => .catchArity
  | some _, true => .catchRefArity
  | none, false => .catchAllArity
  | none, true => .catchAllRefArity

/-- What a handler takes to its label. -/
def handler (h : Handler) : Check Unit := do
  let caught ← match h.tag with
    | some tag => ask fun ctx => do return (← ctx.tag tag).params
    | none => pure []
  let exn : List ValType := if h.withRef then [.ref (.nonNull .exn)] else []
  let label ← labelTypes h.label
  require ((caught ++ exn).length == label.length) (handlerArity h)
  if h.tag.isSome then fits (caught ++ exn) label
  else require ((← read).types.allLe exn label) .catchAllRefLabel

/-- Opens a block of a written type. -/
def openBlock (form : BlockForm) (type : BlockType) : Check Unit := do
  let s ← ask fun ctx => ctx.blockSignature type
  if form = .cond then pop .i32
  popAll s.params.reverse
  enter form s

/-- Opens a block with handlers, whose labels count from outside the block. -/
def openHandler (type : BlockType) (handlers : List Handler) : Check Unit := do
  let s ← ask fun ctx => ctx.blockSignature type
  popAll s.params.reverse
  handlers.forM handler
  enter .handler s

/-- Passes from the first branch of a conditional to the second. -/
def otherwise : Check Unit := do
  let b ← leave
  enter .otherwise b.signature

/-- Closes a block.  A conditional without a second branch has an empty one. -/
def finish : Check Unit := do
  let b ← leave
  if b.form = .cond then
    enter .otherwise b.signature
    let _ ← leave
  pushOuter b.signature.results

/-- Takes words where a branch goes on, and leaves them there. -/
def popPush (types : List ValType) : Check Unit := do
  popAll types.reverse
  pushAll types

/-- Takes words, topmost first, and leaves them as they were. -/
def peekAll : List ValType → Check Unit
  | [] => return ()
  | t :: ts => do
    let w ← popAny (some t)
    peekAll ts
    pushOperand w

/-- A branch. -/
def br (depth : Nat) : Check Unit := do
  popAll (← labelTypes depth).reverse
  kill

/-- A branch by number. -/
def brTable (depths : List Nat) (last : Nat) : Check Unit := do
  pop .i32
  let types ← labelTypes last
  depths.forM fun depth => do
    let target ← labelTypes depth
    require (target.length == types.length) .branchTableArity
    peekAll target.reverse
  popAll types.reverse
  kill

/-- Calls a function of a signature; a call in place of a return gives the function's own results. -/
def callOf (isTail : Bool) (s : Signature) : Check Unit := do
  if isTail then
    let ctx ← read
    require (ctx.types.allLe s.results ctx.results) (.tailCallResults ctx.results s.results)
    popAll s.params.reverse
    kill
  else apply s

/-- Calls a function of a table. -/
def callTable (isTail : Bool) (type table : Nat) : Check Unit := do
  let t ← ask fun ctx => ctx.table table
  require ((← read).types.refLe t.element (.null .func)) .indirectCallTable
  pop t.limits.address
  callOf isTail (← ask fun ctx => ctx.signature type)

/-- Calls a function by reference. -/
def callRef (isTail : Bool) (type : Nat) : Check Unit := do
  pop (← refTo type)
  callOf isTail (← ask fun ctx => ctx.signature type)

/-- A reference to a function, which is declared to be referred to. -/
def refFunc (i : Nat) : Check Unit := do
  let ctx ← read
  let n ← ask fun ctx => CodeContext.get ctx.declarations.functions i (.unknownFunction i)
  require (ctx.declarations.referenced.contains i) .undeclaredFunction
  push (.ref (.nonNull (.defined n)))

/-- Branches if a reference is null, and goes on with it otherwise. -/
def brOnNull (depth : Nat) : Check Unit := do
  let r ← popRef
  popPush (← labelTypes depth)
  pushOperand r.asNonNull

/-- The types that a branch takes along besides the topmost, and that one if there is one. -/
def splitLabel (depth : Nat) : Check (List ValType × Option ValType) := do
  let types ← labelTypes depth
  return (types.dropLast, types.getLast?)

/-- Branches with a reference unless it is null. -/
def brOnNonNull (depth : Nat) : Check Unit := do
  match ← splitLabel depth with
  | (_, none) => throw .nonNullWithoutLabel
  | (rest, some (.ref label)) =>
    pop (.ref (.null label.heap))
    popPush rest
  | (_, some _) => throw .nonNullLabel

/-- The type that an instruction casts to; there are no casts to continuations. -/
def castType (type : RefType) : Check RefType := do
  let target ← ask fun ctx => type.renumber ctx.types.number
  let top := (← read).types.top target.heap
  require (top != .cont && top != .shared .cont) .castToContinuation
  return target

/-- Takes a reference that may be cast to a type, and gives that type. -/
def downcast (type : RefType) : Check RefType := do
  let target ← castType type
  pop (.ref (.null ((← read).types.top target.heap)))
  return target

/-- Branches with what a cast gives if it succeeds, and goes on with the rest. -/
def brOnSuccess (depth : Nat) (source target : RefType) : Check Unit := do
  match ← splitLabel depth with
  | (_, none) => throw .castWithoutLabel
  | (rest, some label) =>
    require ((← read).types.valLe (.ref target) label) (.castLabel target label)
    pop (.ref source)
    popPush rest
    push (.ref (source.minus target))

/-- Branches with the rest if a cast fails, and goes on with what it gives. -/
def brOnFailure (depth : Nat) (source target : RefType) : Check Unit := do
  match ← splitLabel depth with
  | (_, none) => throw .castFailWithoutLabel
  | (rest, some label) =>
    let failed := source.minus target
    require ((← read).types.valLe (.ref failed) label) (.castFailLabel label failed)
    pop (.ref source)
    popPush rest
    push (.ref target)

/-- Branches on a cast from a type to one below it. -/
def brOnCast (onFailure : Bool) (depth : Nat) (source target : RefType) : Check Unit := do
  let source ← ask fun ctx => source.renumber ctx.types.number
  let target ← castType target
  require ((← read).types.refLe target source) (.castUpward source target)
  if onFailure then brOnFailure depth source target else brOnSuccess depth source target

/-- Turns a reference of one hierarchy into one of another. -/
def convertRef (source target : HeapType) : Check Unit := do
  match ← popBelow source with
  | .known (.ref r) => push (.ref { r with heap := target.sharedLike r.heap })
  | _ => pushOperand (.anyRefTo target)

/-- Tells a number about references below some heap types; all are shared or none is. -/
def inspect (heaps : List HeapType) : Check Unit := do
  let found := (← heaps.mapM popBelow).filterMap Operand.isShared?
  require (found.all id || found.all (!·)) .sharedWithUnshared
  push .i32

/-- Copies within memories. -/
def memoryCopy (target source : Nat) : Check Unit := do
  let t ← ask fun ctx => ctx.address target
  let s ← ask fun ctx => ctx.address source
  popAll [lengthType t s, s, t]

/-- Copies within tables. -/
def tableCopy (target source : Nat) : Check Unit := do
  let s ← ask fun ctx => ctx.table source
  let t ← ask fun ctx => ctx.table target
  require ((← read).types.refLe s.element t.element) .tableMismatch
  popAll [lengthType t.limits.address s.limits.address, s.limits.address, t.limits.address]

/-- Copies an element segment into a table. -/
def tableInit (elements table : Nat) : Check Unit := do
  let t ← ask fun ctx => ctx.table table
  let e ← ask fun ctx => ctx.elements elements
  require ((← read).types.refLe e t.element) .tableMismatch
  popAll [.i32, .i32, t.limits.address]

/-- Checks that a field is read as it is kept: extended if and only if it is cut. -/
def readable (read : FieldRead) (of : String) (packed : Violation) (f : Field) : Check Unit := do
  match read with
  | .whole => require (!f.storage.isPacked) packed
  | _ => require f.storage.isPacked (.wholeField (read.text of))

/-- A new structure. -/
def structNew (type : Nat) : Check Unit := do
  let fields ← ask fun ctx => ctx.fields type
  popAll (fields.map fun f => f.storage.unpack).reverse
  pushNew type

/-- A new structure of default values. -/
def structDefault (type : Nat) : Check Unit := do
  let fields ← ask fun ctx => ctx.fields type
  fields.forM fun f =>
    require f.storage.unpack.hasDefault (.fieldWithoutDefault f.storage.unpack)
  pushNew type

/-- Reads a field of a structure. -/
def structGet (read : FieldRead) (type i : Nat) : Check Unit := do
  let f ← ask fun ctx => ctx.field type i
  readable read "struct" .packedField f
  pop (← refTo type)
  push f.storage.unpack

/-- Writes a field of a structure. -/
def structSet (type i : Nat) : Check Unit := do
  let f ← ask fun ctx => ctx.field type i
  require f.isMutable .immutableField
  pop f.storage.unpack
  pop (← refTo type)

/-- The elements of an array that may be written. -/
def mutableElement (type : Nat) : Check Field := do
  let e ← ask fun ctx => ctx.element type
  require e.isMutable .immutableArray
  return e

/-- A new array of one value. -/
def arrayNew (type : Nat) : Check Unit := do
  let e ← ask fun ctx => ctx.element type
  popAll [.i32, e.storage.unpack]
  pushNew type

/-- A new array of default values. -/
def arrayDefault (type : Nat) : Check Unit := do
  let e ← ask fun ctx => ctx.element type
  require e.storage.unpack.hasDefault (.elementWithoutDefault e.storage.unpack)
  pop .i32
  pushNew type

/-- A new array of values on the stack. -/
def arrayOf (type count : Nat) : Check Unit := do
  let e ← ask fun ctx => ctx.element type
  popSame e.storage.unpack count
  pushNew type

/-- A new array from a data segment. -/
def arrayOfData (type data : Nat) : Check Unit := do
  let e ← ask fun ctx => ctx.element type
  require e.storage.ref?.isNone .dataForRefs
  ask fun ctx => ctx.data data
  popAll [.i32, .i32]
  pushNew type

/-- Checks that the references of an element segment are elements of an array. -/
def holds (e : Field) (elements : Nat) (noRefs : Violation)
    (mismatch : (expected found : RefType) → Violation) : Check Unit := do
  match e.storage.ref? with
  | none => throw noRefs
  | some r =>
    let found ← ask fun ctx => ctx.elements elements
    require ((← read).types.refLe found r) (mismatch r found)

/-- A new array from an element segment. -/
def arrayOfElements (type elements : Nat) : Check Unit := do
  let e ← ask fun ctx => ctx.element type
  holds e elements .elementsForData (.newElementsMismatch elements)
  popAll [.i32, .i32]
  pushNew type

/-- Reads an element of an array. -/
def arrayGet (read : FieldRead) (type : Nat) : Check Unit := do
  let e ← ask fun ctx => ctx.element type
  readable read "array" .packedElement e
  pop .i32
  pop (← refTo type)
  push e.storage.unpack

/-- Writes an element of an array. -/
def arraySet (type : Nat) : Check Unit := do
  let e ← mutableElement type
  popAll [e.storage.unpack, .i32, ← refTo type]

/-- Writes a value to many elements of an array. -/
def arrayFill (type : Nat) : Check Unit := do
  let e ← mutableElement type
  popAll [.i32, e.storage.unpack, .i32, ← refTo type]

/-- Copies between arrays. -/
def arrayCopy (target source : Nat) : Check Unit := do
  let t ← mutableElement target
  let s ← ask fun ctx => ctx.element source
  require ((← read).types.storageLe s.storage t.storage) (.arrayMismatch t.storage s.storage)
  popAll [.i32, .i32, ← refTo source, .i32, ← refTo target]

/-- Copies a data segment into an array. -/
def arrayInitData (type data : Nat) : Check Unit := do
  let e ← mutableElement type
  require e.storage.ref?.isNone .dataIntoRefs
  ask fun ctx => ctx.data data
  popAll [.i32, .i32, .i32, ← refTo type]

/-- Copies an element segment into an array. -/
def arrayInitElements (type elements : Nat) : Check Unit := do
  let e ← mutableElement type
  holds e elements .elementsIntoData (.initElementsMismatch elements)
  popAll [.i32, .i32, .i32, ← refTo type]

/-- The rule of an operation. -/
def rule : Operation → Check Unit
  | .compute e _ => do
    popAll e.takes
    pushAll e.leaves
  | .access a lane => access a lane
  | .atLane lane lanes e => do
    require (lane < lanes) .badLane
    popAll e.takes
    pushAll e.leaves
  | .shuffle lanes => shuffle lanes
  | .inspect heaps => inspect heaps
  | .refused cause _ => throw cause
  | .localGet i => localGet i
  | .localSet i => do
    let t ← ask fun ctx => ctx.localType i
    pop t
    markReady i t
  | .localTee i => do
    let t ← ask fun ctx => ctx.localType i
    pop t
    markReady i t
    push t
  | .globalGet i => do push (← ask fun ctx => ctx.globalType i).type
  | .globalSet i => globalSet i
  | .drop => do
    let _ ← popAny none
  | .select => select
  | .selectOf types => selectOf types
  | .unreachable => kill
  | .block form type => openBlock form type
  | .handle type handlers => openHandler type handlers
  | .otherwise => otherwise
  | .finish => finish
  | .br depth => br depth
  | .brIf depth => do
    pop .i32
    popPush (← labelTypes depth)
  | .brTable depths last => brTable depths last
  | .ret => do
    popAll (← read).results.reverse
    kill
  | .call isTail i => do callOf isTail (← ask fun ctx => ctx.functionSignature i)
  | .callTable isTail type table => callTable isTail type table
  | .callRef isTail type => callRef isTail type
  | .throwTag tag => do
    popAll (← ask fun ctx => ctx.tag tag).params.reverse
    kill
  | .throwRef => do
    pop (.ref (.null .exn))
    kill
  | .refNull h => do push (.ref (← ask fun ctx => ctx.types.resolveRef (.null h)))
  | .refIsNull => do
    let _ ← popRef
    push .i32
  | .refFunc i => refFunc i
  | .refAsNonNull => do pushOperand (← popRef).asNonNull
  | .brOnNull depth => brOnNull depth
  | .brOnNonNull depth => brOnNonNull depth
  | .refTest type => do
    let _ ← downcast type
    push .i32
  | .refCast type => do push (.ref (← downcast type))
  | .brOnCast onFailure depth source target => brOnCast onFailure depth source target
  | .anyOfExternal => convertRef .external .any
  | .externalOfAny => convertRef .any .external
  | .memorySize i => do push (← ask fun ctx => ctx.address i)
  | .memoryGrow i => do
    let address ← ask fun ctx => ctx.address i
    pop address
    push address
  | .memoryFill i => do
    let address ← ask fun ctx => ctx.address i
    popAll [address, .i32, address]
  | .memoryCopy target source => memoryCopy target source
  | .memoryInit data i => do
    let address ← ask fun ctx => ctx.address i
    ask fun ctx => ctx.data data
    popAll [.i32, .i32, address]
  | .dataDrop data => ask fun ctx => ctx.data data
  | .tableGet i => do
    let t ← ask fun ctx => ctx.table i
    pop t.limits.address
    push (.ref t.element)
  | .tableSet i => do
    let t ← ask fun ctx => ctx.table i
    popAll [.ref t.element, t.limits.address]
  | .tableSize i => do push (← ask fun ctx => ctx.table i).limits.address
  | .tableGrow i => do
    let t ← ask fun ctx => ctx.table i
    popAll [t.limits.address, .ref t.element]
    push t.limits.address
  | .tableFill i => do
    let t ← ask fun ctx => ctx.table i
    popAll [t.limits.address, .ref t.element, t.limits.address]
  | .tableCopy target source => tableCopy target source
  | .tableInit elements i => tableInit elements i
  | .elementsDrop elements => do
    let _ ← ask fun ctx => ctx.elements elements
  | .structNew type => structNew type
  | .structDefault type => structDefault type
  | .structGet read type i => structGet read type i
  | .structSet type i => structSet type i
  | .arrayNew type => arrayNew type
  | .arrayDefault type => arrayDefault type
  | .arrayOf type count => arrayOf type count
  | .arrayOfData type data => arrayOfData type data
  | .arrayOfElements type elements => arrayOfElements type elements
  | .arrayGet read type => arrayGet read type
  | .arraySet type => arraySet type
  | .arrayFill type => arrayFill type
  | .arrayCopy target source => arrayCopy target source
  | .arrayInitData type data => arrayInitData type data
  | .arrayInitElements type elements => arrayInitElements type elements

/-- The open blocks after an operation. -/
def step (ctx : CodeContext) (op : Operation) (blocks : Blocks) : Except Violation Blocks := do
  let (_, blocks) ← (rule op).run ctx |>.run blocks
  return blocks

/-- Checks operations in order. -/
def run (ctx : CodeContext) : List Located → Blocks → Except Rejection Blocks
  | [], blocks => .ok blocks
  | o :: os, blocks =>
    match step ctx o.operation blocks with
    | .error cause => .error ⟨o.offset, cause⟩
    | .ok blocks => run ctx os blocks

/-- Checks the code of a body with given parameters, and then that reading it did not stop early. -/
def body (ctx : CodeContext) (params : Nat) (code : Decode.Code) : Except Rejection Unit := do
  let _ ← run ctx code.operations [.opened .body ⟨[], ctx.results⟩ (List.range params)]
  match code.stop with
  | some r => throw r
  | none => return ()

end Typing

end Wasm
end WasmLowering
