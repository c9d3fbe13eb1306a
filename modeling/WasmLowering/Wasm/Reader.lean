/-
# Reading bytes

A reader takes what it needs from the front of the bytes at hand and knows the
offset of each byte in the module, since a module is refused at an offset.  What
is cut out of a module keeps its offset.
-/

import WasmLowering.Bytes
import WasmLowering.Wasm.Violation

namespace WasmLowering
namespace Wasm

/-- Bytes of a module and the offset of the first of them. -/
structure Slice where
  offset : Nat
  bytes : Bytes
  deriving DecidableEq, Repr

/-- A computation that takes bytes from the front of a slice. -/
abbrev Reader := StateT Slice (Except Rejection)

namespace Reader

/-- Refuses the module at an offset. -/
def refuse {α : Type} (offset : Nat) (cause : Violation) : Reader α :=
  throw ⟨offset, cause⟩

/-- The offset of the next byte. -/
def position : Reader Nat := return (← get).offset

/-- Whether all bytes are taken. -/
def atEnd : Reader Bool := return (← get).bytes.isEmpty

/-- The next byte, which stays in place. -/
def peek : Reader UInt8 := do
  let s ← get
  match s.bytes with
  | [] => refuse s.offset .endOfFile
  | b :: _ => return b

/-- Takes one byte. -/
def byte : Reader UInt8 := do
  let s ← get
  match s.bytes with
  | [] => refuse s.offset .endOfFile
  | b :: bs =>
    set (⟨s.offset + 1, bs⟩ : Slice)
    return b

/-- Takes a number of bytes, as a slice of their own. -/
def take (n : Nat) : Reader Slice := do
  let s ← get
  let front := s.bytes.take n
  if front.length < n then refuse s.offset .endOfFile
  set (⟨s.offset + n, s.bytes.drop n⟩ : Slice)
  return ⟨s.offset, front⟩

/-- Takes an unsigned integer of up to `more` bytes and one byte of `lastBits` bits. -/
def unsigned (encoding : VarInt) (lastBits : Nat) : (more : Nat) → Reader Nat
  | 0 => do
    let here ← position
    let b := (← byte).toNat
    if b < Nat.pow 2 lastBits then return b
    refuse here (if b < 128 then .integerTooLarge encoding else .integerTooLong encoding)
  | more + 1 => do
    let b := (← byte).toNat
    if b < 128 then return b
    return b - 128 + 128 * (← unsigned encoding lastBits more)

/-- The number in the seven low bits of a byte, in two's complement. -/
def low7 (b : Nat) : Int := if b % 128 < 64 then b % 128 else b % 128 - 128

/-- Takes a signed integer of up to `more` bytes and one byte of `lastBits` bits.  A number of 33 bits
that does not fit counts as too long. -/
def signed (encoding : VarInt) (lastBits : Nat) : (more : Nat) → Reader Int
  | 0 => do
    let here ← position
    let b := (← byte).toNat
    if 128 ≤ b then refuse here (.integerTooLong encoding)
    let half := Nat.pow 2 (lastBits - 1)
    if -(half : Int) ≤ low7 b ∧ low7 b < half then return low7 b
    refuse here (if encoding = .s33 then .integerTooLong encoding else .integerTooLarge encoding)
  | more + 1 => do
    let b := (← byte).toNat
    if b < 128 then return low7 b
    return b - 128 + 128 * (← signed encoding lastBits more)

/-- Takes an unsigned 32-bit integer. -/
def u32 : Reader Nat := unsigned .u32 4 4

/-- Takes an unsigned 64-bit integer. -/
def u64 : Reader Nat := unsigned .u64 1 9

/-- Takes a signed 33-bit integer. -/
def s33 : Reader Int := signed .s33 5 4

/-- Takes a signed 32-bit integer. -/
def s32 : Reader Int := signed .s32 4 4

/-- Takes a signed 64-bit integer. -/
def s64 : Reader Int := signed .s64 1 9

/-- Takes a size and as many bytes. -/
def sized : Reader Slice := do take (← u32)

/-- The most bytes of a name. -/
def nameLimit : Nat := 100000

/-- Takes a name. -/
def name : Reader String := do
  let size ← u32
  if nameLimit < size then refuse ((← position) - 1) .nameTooLong
  let content ← take size
  match String.fromUTF8? ⟨content.bytes.toArray⟩ with
  | some s => return s
  | none => refuse (content.offset + content.bytes.length - 1) .badName

/-- What a check gives; the module is refused at an offset if it fails. -/
def check {α : Type} (offset : Nat) : Except Violation α → Reader α
  | .ok a => return a
  | .error cause => refuse offset cause

/-- The item with an index of an index space; the module is refused at an offset if there is none. -/
def lookup {α : Type} (offset : Nat) (space : Array α) (index : Nat) (cause : Violation) : Reader α :=
  match space[index]? with
  | some a => return a
  | none => refuse offset cause

/-- Takes a number of items. -/
def many {α : Type} (item : Reader α) : Nat → Reader (List α)
  | 0 => return []
  | n + 1 => do
    let first ← item
    let rest ← many item n
    return first :: rest

/-- Takes the count of something, which is refused above a limit. -/
def size (limit : Nat) (what : String) : Reader Nat := do
  let here ← position
  let count ← u32
  if limit < count then refuse here (.sizeLimit what)
  return count

/-- Takes a count, which is refused above a limit, and as many items. -/
def limited {α : Type} (limit : Nat) (what : String) (item : Reader α) : Reader (List α) := do
  many item (← size limit what)

end Reader

end Wasm
end WasmLowering
