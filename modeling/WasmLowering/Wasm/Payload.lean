/-
# The frame of a module

A module is a header and a list of sections.  Sections come in a fixed order and
at most once, custom sections apart, and there are as many function bodies as
function types, and as many data segments as are told ahead of them.  A
component has the same form and may hold modules and components of its own,
each a section; its sections come in any order.

The frame can be read without looking into the items: it is the list of its
payloads, those of the modules and components within among them, up to the
first that cannot be read.
-/

import WasmLowering.Wasm.Encode
import WasmLowering.Wasm.Reader

namespace WasmLowering
namespace Wasm

/-- What a header announces. -/
inductive Layer where
  | module
  | component
  deriving DecidableEq, Repr

/-- The name of a layer. -/
def Layer.text : Layer → String
  | .module => "module"
  | .component => "component"

/-- A piece of a frame. -/
inductive Payload where
  /-- A header and its offset. -/
  | version (layer : Layer) (offset : Nat)
  /-- A section of items of a module: its id, the number of items, the offset of its content, and the
  bytes of the items. -/
  | items (id count offset : Nat) (content : Slice)
  /-- A section of one number: its id, the number, and the offset of its content. -/
  | single (id value offset : Nat)
  /-- The function bodies, without their sizes. -/
  | bodies (contents : List Slice)
  /-- A section of items of a component. -/
  | parts (id count offset : Nat) (content : Slice)
  /-- The function that a component starts with, and the offset of its section. -/
  | startPart (offset : Nat)
  /-- A module or a component of its own follows. -/
  | nested (layer : Layer) (offset : Nat)
  | custom
  /-- A section of an unknown id, and the offset of its content. -/
  | other (id offset : Nat)
  /-- A module or a component ends. -/
  | finish (offset : Nat)
  deriving DecidableEq, Repr

/-- How far a module has been read. -/
structure Progress where
  /-- The place of the last section in the order of sections. -/
  rank : Nat
  functions : Option Nat
  bodies : Option Nat
  /-- The number of data segments that is told ahead of them. -/
  dataCount : Option Nat
  segments : Option Nat
  /-- Whether it is told how a component starts. -/
  hasStart : Bool
  deriving DecidableEq, Repr

namespace Progress

/-- Nothing is read. -/
def start : Progress := ⟨0, none, none, none, none, false⟩

/-- Why the numbers of function types and bodies do not go together, if they do not. -/
def codeMismatch? (p : Progress) : Option Violation :=
  match p.functions, p.bodies with
  | some n, some m => if n = m then none else some .inconsistentCounts
  | some n, none => if n = 0 then none else some .missingCode
  | none, some m => if m = 0 then none else some .missingFunctions
  | none, none => none

/-- Why the numbers of data segments do not go together, if they do not. -/
def dataMismatch? (p : Progress) : Option Violation :=
  match p.dataCount, p.segments with
  | some n, some m => if n = m then none else some .inconsistentData
  | some n, none => if n = 0 then none else some .missingData
  | none, _ => none

/-- Why the numbers do not go together at the end of a module, if they do not. -/
def mismatch? (p : Progress) : Option Violation := p.codeMismatch?.or p.dataMismatch?

end Progress

/-- A module or a component that is being read. -/
structure Frame where
  /-- What it is, once the header is read. -/
  layer : Option Layer
  progress : Progress
  /-- The offset where it ends, if a section tells it. -/
  limit : Option Nat
  /-- The bytes that are not read. -/
  rest : Slice
  deriving DecidableEq, Repr

namespace Payload

/-- The ids of the sections of a module in the order in which they must come. -/
def order : List Nat := [1, 2, 3, 4, 5, 13, 6, 7, 8, 9, 12, 10, 11]

/-- The place of a section in the order, counted from one. -/
def rank? (id : Nat) : Option Nat := (order.idxOf? id).map (· + 1)

/-- The ids of the sections of a module that hold counted items. -/
def counted : List Nat := [1, 2, 3, 4, 5, 13, 6, 7, 9, 11]

/-- The ids of the sections of a component that hold counted items. -/
def countedParts : List Nat := [2, 3, 5, 6, 7, 8, 10, 11]

/-- Takes function bodies that fill `room` bytes exactly. -/
def readBodies (room : Nat) : (count : Nat) → Reader (List Slice)
  | 0 => do
    if room ≠ 0 then Reader.refuse (← Reader.position) .codeLeftover
    return []
  | count + 1 => do
    let start ← Reader.position
    let content ← Reader.sized
    let taken := (← Reader.position) - start
    if room < taken then Reader.refuse start .endOfFile
    let rest ← readBodies (room - taken) count
    return content :: rest

/-- Takes the content of the code section. -/
def readCode (p : Progress) (size : Nat) : Reader (Payload × Progress) := do
  let start ← Reader.position
  let count ← Reader.u32
  let taken := (← Reader.position) - start
  if size < taken then Reader.refuse start .endOfFile
  let p := { p with bodies := some count }
  match p.codeMismatch? with
  | some cause => Reader.refuse start cause
  | none => return (.bodies (← readBodies (size - taken) count), p)

/-- What is read once a section with counted items is. -/
def count (p : Progress) (id n : Nat) : Progress :=
  match id with
  | 3 => { p with functions := some n }
  | 11 => { p with segments := some n }
  | _ => p

/-- Takes the content of a section with counted items.  That there are too few or too many data segments
shows at its end, before they are looked at. -/
def readItems (p : Progress) (id size : Nat) : Reader (Payload × Progress) := do
  let content ← Reader.take size
  let (n, rest) ← Reader.u32.run content
  let p := count p id n
  match p.dataMismatch? with
  | some .inconsistentData => Reader.refuse (content.offset + size) .inconsistentData
  | _ => return (.items id n content.offset rest, p)

/-- The name of a section of one number. -/
def singleName (id : Nat) : String := if id = 12 then "data count" else "start"

/-- Takes the content of a section of one number. -/
def readSingle (p : Progress) (id size : Nat) : Reader (Payload × Progress) := do
  let content ← Reader.take size
  let (value, rest) ← Reader.u32.run content
  unless rest.bytes.isEmpty do Reader.refuse rest.offset (.singleLeftover (singleName id))
  return (.single id value content.offset, if id = 12 then { p with dataCount := some value } else p)

/-- Takes the content of a custom section. -/
def readCustom (size : Nat) : Reader Payload := do
  let content ← Reader.take size
  let _ ← Reader.name.run content
  return .custom

/-- Takes the content of a section of an unknown id. -/
def readOther (id size : Nat) : Reader Payload := do
  let content ← Reader.take size
  return .other id content.offset

/-- Takes the content of a section of a module. -/
def readSection (p : Progress) (id size : Nat) : Reader (Payload × Progress) := do
  if id = 0 then return (← readCustom size, p)
  match rank? id with
  | none => return (← readOther id size, p)
  | some rank =>
    if rank ≤ p.rank then Reader.refuse (← Reader.position) .sectionOrder
    let p := { p with rank }
    if id = 10 then readCode p size
    else if id ∈ counted then readItems p id size
    else readSingle p id size

/-- The most arguments of the function that a component starts with. -/
def startLimit : Nat := 1000

/-- Takes the content of the section that tells how a component starts; there is at most one. -/
def readStartPart (p : Progress) (size : Nat) : Reader Payload := do
  if p.hasStart then Reader.refuse (← Reader.position) .secondStart
  let content ← Reader.take size
  let (_, rest) ← (do
    let _ ← Reader.u32
    let _ ← Reader.limited startLimit "start function arguments" Reader.u32
    Reader.u32 : Reader Nat).run content
  unless rest.bytes.isEmpty do Reader.refuse rest.offset (.singleLeftover "component start")
  return .startPart content.offset

/-- Takes the content of a section of a component that is no module or component. -/
def readPart (p : Progress) (id size : Nat) : Reader (Payload × Progress) := do
  if id = 0 then return (← readCustom size, p)
  else if id ∈ countedParts then
    let content ← Reader.take size
    let (n, rest) ← Reader.u32.run content
    return (.parts id n content.offset rest, p)
  else if id = 9 then return (← readStartPart p size, { p with hasStart := true })
  else return (← readOther id size, p)

/-- Takes the id and the size of a section, which must fit in what holds it. -/
def readStart (limit : Option Nat) : Reader (Nat × Nat × Nat) := do
  let here ← Reader.position
  if (← get).bytes.take 4 = Encode.header.take 4 then Reader.refuse here .magicAsSection
  let id := (← Reader.byte).toNat
  if 128 ≤ id then Reader.refuse here .badSectionId
  let sizeAt ← Reader.position
  let size ← Reader.u32
  let start ← Reader.position
  if limit.any (· < start + size) then Reader.refuse sizeAt .sectionTooLarge
  return (id, size, sizeAt)

/-- The version of components. -/
def componentVersion : Bytes := [0x0d, 0x00, 0x01, 0x00]

/-- Takes the header: a magic number and the version. -/
def header : Reader Layer := do
  let magic ← Reader.take 4
  if magic.bytes ≠ Encode.header.take 4 then
    Reader.refuse magic.offset (.badMagic (magic.bytes.map UInt8.toNat))
  let version ← Reader.take 4
  if version.bytes = Encode.header.drop 4 then return .module
  if version.bytes = componentVersion then return .component
  Reader.refuse version.offset (.badVersion (version.bytes.foldr (fun b n => b.toNat + 256 * n) 0))

end Payload

namespace Frame

/-- What a slice is before its header is read. -/
def ofSlice (limit : Option Nat) (s : Slice) : Frame := ⟨none, .start, limit, s⟩

/-- The layer that a section of a component with an id holds, if it holds one. -/
def nested? : Nat → Option Layer
  | 1 => some .module
  | 4 => some .component
  | _ => none

/-- The name of the section that holds a layer. -/
def nestedName : Layer → String
  | .module => "module"
  | .component => "component "

/-- The most bytes of a module or a component within another. -/
def nestedLimit : Nat := 1073741824

/-- The next section of a component, and what is read after it. -/
def nextPart (f : Frame) : Except Rejection (Payload × List Frame) := do
  let ((id, size, sizeAt), rest) ← (Payload.readStart f.limit).run f.rest
  match nested? id with
  | some layer =>
    if nestedLimit < size then throw ⟨sizeAt, .nestedTooLarge (nestedName layer)⟩
    let inner := ofSlice (some (rest.offset + size)) { rest with bytes := rest.bytes.take size }
    let rest : Slice := ⟨rest.offset + size, rest.bytes.drop size⟩
    return (.nested layer (rest.offset - size), [inner, { f with rest }])
  | none =>
    let ((payload, progress), rest) ← (Payload.readPart f.progress id size).run rest
    return (payload, [{ f with progress, rest }])

/-- The next section of a module, and what is read after it. -/
def nextSection (f : Frame) : Except Rejection (Payload × List Frame) := do
  let ((id, size, _), rest) ← (Payload.readStart f.limit).run f.rest
  let ((payload, progress), rest) ← (Payload.readSection f.progress id size).run rest
  return (payload, [{ f with progress, rest }])

/-- The next payload, and what is read after it, innermost first. -/
def next (f : Frame) : Except Rejection (Payload × List Frame) :=
  match f.layer with
  | none => do
    let (layer, rest) ← Payload.header.run f.rest
    return (.version layer f.rest.offset, [{ f with layer := some layer, rest }])
  | some layer =>
    if f.rest.bytes.isEmpty then
      match f.progress.mismatch? with
      | some cause => throw ⟨f.rest.offset, cause⟩
      | none => return (.finish f.rest.offset, [])
    else match layer with
      | .module => f.nextSection
      | .component => f.nextPart

end Frame

namespace Payload

/-- The payloads of what is being read, innermost first, at most `limit` of them, and why reading
stopped early if it did. -/
def upTo : (limit : Nat) → List Frame → List Payload × Option Rejection
  | 0, _ | _, [] => ([], none)
  | limit + 1, f :: outer =>
    match f.next with
    | .error r => ([], some r)
    | .ok (payload, frames) =>
      let later := upTo limit (frames ++ outer)
      (payload :: later.1, later.2)

/-- The payloads of a module, and why reading stopped early if it did.  Headers and sections take
bytes, and a module or component ends once. -/
def ofBytes (bytes : Bytes) : List Payload × Option Rejection :=
  upTo (2 * bytes.length + 2) [.ofSlice none ⟨0, bytes⟩]

/-- Runs a check over payloads in order; what stopped their reading comes last. -/
def foldM {α : Type} (check : α → Payload → Except Rejection α) (init : α)
    (payloads : List Payload × Option Rejection) : Except Rejection α := do
  let result ← payloads.1.foldlM check init
  match payloads.2 with
  | some r => throw r
  | none => return result

end Payload

/-- Takes the items that a section counts, to its end. -/
def items {α : Type} (item : α → Reader α) : (count : Nat) → α → Reader α
  | 0, a => do
    unless ← Reader.atEnd do Reader.refuse (← Reader.position) .sectionLeftover
    return a
  | count + 1, a => do items item count (← item a)

/-- Adds the types of defined functions that a payload holds. -/
def addFunctionTypes (types : Array Nat) : Payload → Except Rejection (Array Nat)
  | .items 3 count _ content =>
    (items (fun types => return types.push (← Reader.u32)) count types).run' content
  | _ => .ok types

/-- The type of every function that a module defines, in order. -/
def definedFunctionTypes (bytes : Bytes) : Except Rejection (List Nat) :=
  (Payload.foldM addFunctionTypes #[] (Payload.ofBytes bytes)).map Array.toList

end Wasm
end WasmLowering
