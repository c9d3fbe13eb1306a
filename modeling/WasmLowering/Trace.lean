/-
# Trace records

`TraceField` and `encode_record`, and the records of `function_prologue` and
`function_epilogue`.

With tracing on, a function writes a record to the trace window when it is
entered and when it returns, and calls the hook, which reads the window.  A
record is a sequence of fields, each a tag byte and a payload, and an end tag:

| tag | payload     | field                          |
|----:|-------------|--------------------------------|
|   1 | 4 bytes     | the address of a string        |
|   2 | 4 bytes     | a word of kind `i32`           |
|   3 | 8 bytes     | a word of kind `i64`           |
|   4 | none        | one call level deeper          |
|   5 | none        | one call level back            |
|   0 | none        | the end of the record          |

Payloads are unaligned.  A record that does not fit the window is refused.
-/

import WasmLowering.Fault
import WasmLowering.Lower.Registers
import WasmLowering.Segment

namespace WasmLowering

open Wasm

/-- A field of a trace record. -/
inductive TraceField where
  /-- The string at an offset of the unit's segment. -/
  | string (offset : Nat)
  /-- The word in a local. -/
  | word (index : Nat) (kind : Kind)
  | increment
  | decrement
  deriving DecidableEq, Repr

namespace TraceField

/-- The tag of the end of a record. -/
def endTag : Nat := 0

/-- The tag of a field. -/
def tag : TraceField → Nat
  | string _ => 1
  | word _ .i32 => 2
  | word _ .i64 => 3
  | increment => 4
  | decrement => 5

/-- `encoded_size`: the bytes of a field, tag included. -/
def size : TraceField → Nat
  | string _ => 5
  | word _ .i32 => 5
  | word _ .i64 => 9
  | increment | decrement => 1

/-- The store that writes a word of some kind. -/
def storeOp : Kind → StoreOp
  | .i32 => .word32
  | .i64 => .word64

/-- `store_tag`: code that writes a tag at a position of the memory. -/
def storeTag (position tag : Nat) : Code :=
  [.constI32 0, .constI32 tag, .store .byte { align := 0, offset := position }]

/-- Code that writes what some code leaves, a word of some kind, at a position of the memory. -/
def storeWord (position : Nat) (kind : Kind) (code : Code) : Code :=
  .constI32 0 :: code ++ [.store (storeOp kind) { align := 0, offset := position }]

/-- Code that writes the payload of a field at a position of the memory. -/
def storePayload (position : Nat) : TraceField → Code
  | string offset => storeWord position .i32 (Segment.address offset)
  | word index kind => storeWord position kind [.localGet index]
  | increment | decrement => []

/-- Code that writes a field at a position of the memory. -/
def store (position : Nat) (f : TraceField) : Code :=
  storeTag position f.tag ++ f.storePayload (position + 1)

/-- **A field takes a byte at least, its tag.** -/
theorem size_pos (f : TraceField) : 0 < f.size := by
  unfold size
  split <;> decide

end TraceField

namespace Trace

/-- The bytes of a record, its end tag included. -/
def size : List TraceField → Nat
  | [] => 1
  | f :: fs => f.size + size fs

/-- Code that writes fields one after the other from a position on, and the end tag. -/
def stores (position : Nat) : List TraceField → Code
  | [] => TraceField.storeTag position TraceField.endTag
  | f :: fs => f.store position ++ stores (position + f.size) fs

/-- `encode_record`: code that writes a record to the trace window and calls the hook. -/
def record (fields : List TraceField) : Except Fault Code :=
  if size fields ≤ Layout.traceBudget then
    .ok (stores Layout.traceStart fields ++ [.call Layout.traceHook])
  else .error (.recordTooLong Layout.traceBudget (size fields))

/-- The string that marks the record of a return. -/
def returnMarker : String := "return"

/-- The fields of a function's parameters. -/
def argFields (args : List Kind) : List TraceField :=
  args.zipIdx.map fun a => .word a.2 a.1

/-- The fields written on entry: the function's name, its arguments, one level deeper. -/
def entryFields (nameOffset : Nat) (args : List Kind) : List TraceField :=
  .string nameOffset :: argFields args ++ [.increment]

/-- The fields written on return: the return mark, one level back, the result if there is one. -/
def exitFields (markerOffset : Nat) (result : Option Kind) (r : Registers) : List TraceField :=
  .string markerOffset :: .decrement :: (result.map fun k => .word (r.forKind k) k).toList

/-- Places a string in the segment at hand. -/
def intern (s : String) : EStateM Fault Segment Nat :=
  modifyGet fun seg => seg.intern s

/-- `function_prologue`: code that traces the entry into a function. -/
def entry (name : String) (args : List Kind) : EStateM Fault Segment Code := do
  let offset ← intern name
  MonadExcept.ofExcept (record (entryFields offset args))

/-- `function_epilogue`: code that traces the return from a function and keeps the result on the stack. -/
def exit (result : Option Kind) (r : Registers) : EStateM Fault Segment Code := do
  let offset ← intern returnMarker
  let code ← MonadExcept.ofExcept (record (exitFields offset result r))
  return (result.map r.tee).toList ++ code

end Trace

end WasmLowering
