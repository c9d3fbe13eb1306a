/-
# String segments

`DataSegment` and `string_address`.

The strings of a unit are placed one after the other in the order of their
first use, each followed by a zero byte, and equal strings are placed once.

A table of strings says this three times over:

| field      | holds                                      | read by             |
|------------|--------------------------------------------|---------------------|
| `offsets`  | the offset of each string                  | `intern`, `offset?` |
| `literals` | the strings and their offsets, as placed   | `bytes`             |
| `size`     | the number of bytes so far                 | `intern`, `bytes`   |

Offsets and size are words of 32 bits and wrap.  The fields agree: all of them
follow from the list of the strings (`StringTable.Consistent`), and to place one
more string keeps this (`StringTable.Consistent.intern`).  A segment is a table
whose fields agree, and its numbers are those of the list below `2³²`.
-/

import WasmLowering.Bytes
import WasmLowering.Layout
import WasmLowering.Wasm.Instr

namespace WasmLowering

/-! ## Tables -/

/-- `DataSegment`: a table of placed strings. -/
structure StringTable where
  /-- The offset of each string, the latest in front. -/
  offsets : List (String × UInt32)
  /-- The strings with their offsets, in placement order. -/
  literals : List (UInt32 × String)
  /-- The number of bytes. -/
  size : UInt32
  deriving DecidableEq, Repr

namespace StringTable

/-- `DataSegment::new`: the table without strings. -/
def empty : StringTable := ⟨[], [], 0⟩

/-- `DataSegment::offset_of`: the offset of a string, if it is placed. -/
def offset? (t : StringTable) (s : String) : Option UInt32 := t.offsets.lookup s

/-- `DataSegment::intern`, the offset of a string and the table with it: a new string goes to the end, with a
zero byte behind it. -/
def intern (t : StringTable) (s : String) : UInt32 × StringTable :=
  match t.offset? s with
  | some o => (o, t)
  | none =>
    (t.size,
      { offsets := (s, t.size) :: t.offsets
        literals := t.literals ++ [(t.size, s)]
        size := t.size + (UInt32.ofNat s.utf8ByteSize + 1) })

/-- Writes bytes over an image, from a position on. -/
def copy (image : Array UInt8) (start : Nat) : Bytes → Array UInt8
  | [] => image
  | b :: bs => copy (image.setIfInBounds start b) (start + 1) bs

/-- **Writing over an image** keeps its size. -/
theorem size_copy (image : Array UInt8) (start : Nat) (bs : Bytes) : (copy image start bs).size = image.size := by
  induction bs generalizing image start with
  | nil => rfl
  | cons b bs ih => rw [copy, ih, Array.size_setIfInBounds]

/-- `DataSegment::bytes`: as many zeros as the size says, with each string written over them at its offset. -/
def bytes (t : StringTable) : Bytes :=
  (t.literals.foldl (fun image l => copy image l.1.toNat (utf8 l.2)) (Array.replicate t.size.toNat 0)).toList

/-- **Strings written over an image** keep its size. -/
theorem size_foldl_copy (ls : List (UInt32 × String)) (image : Array UInt8) :
    (ls.foldl (fun image l => copy image l.1.toNat (utf8 l.2)) image).size = image.size := by
  induction ls generalizing image with
  | nil => rfl
  | cons l ls ih => rw [List.foldl_cons, ih, size_copy]

/-- The strings, in placement order. -/
def strings (t : StringTable) : List String := t.literals.map Prod.snd

end StringTable

/-! ## Lists of strings -/

namespace Segment

/-- The space of a string: its bytes and a zero. -/
def space (s : String) : Nat := s.utf8ByteSize + 1

/-- The image of a string: its bytes and a zero. -/
def image (s : String) : Bytes := utf8 s ++ [0]

/-- The space of strings placed one after the other. -/
def spaceOf : List String → Nat
  | [] => 0
  | s :: ss => space s + spaceOf ss

/-- The offset of a string within a list of placed strings. -/
def offsetIn? (s : String) : List String → Option Nat
  | [] => none
  | t :: ts => if t = s then some 0 else (offsetIn? s ts).map (· + space t)

/-- Strings with their offsets as words, from an offset on. -/
def place : (first : Nat) → List String → List (UInt32 × String)
  | _, [] => []
  | first, s :: ss => (UInt32.ofNat first, s) :: place (first + space s) ss

theorem spaceOf_append (ss ts : List String) : spaceOf (ss ++ ts) = spaceOf ss + spaceOf ts := by
  induction ss with
  | nil => simp [spaceOf]
  | cons s ss ih => simp [spaceOf, ih, Nat.add_assoc]

/-- **More strings are placed behind the first ones.** -/
theorem place_append (first : Nat) (ss ts : List String) :
    place first (ss ++ ts) = place first ss ++ place (first + spaceOf ss) ts := by
  induction ss generalizing first with
  | nil => simp [place, spaceOf]
  | cons s ss ih => simp [place, spaceOf, ih, Nat.add_assoc]

/-- **A new string goes behind the others.** -/
theorem offsetIn?_append_self {s : String} {ss : List String} (h : offsetIn? s ss = none) :
    offsetIn? s (ss ++ [s]) = some (spaceOf ss) := by
  induction ss with
  | nil => simp [offsetIn?, spaceOf]
  | cons t ts ih =>
    rw [offsetIn?] at h
    rw [List.cons_append, offsetIn?, spaceOf]
    split at h
    · cases h
    · rename_i ht
      rw [if_neg ht, ih (Option.map_eq_none_iff.1 h), Option.map_some, Nat.add_comm]

/-- **A new string hides no other.** -/
theorem offsetIn?_append_of_ne {r s : String} (h : r ≠ s) (ss : List String) :
    offsetIn? r (ss ++ [s]) = offsetIn? r ss := by
  induction ss with
  | nil => simp [offsetIn?, h.symm]
  | cons t ts ih => rw [List.cons_append, offsetIn?, offsetIn?, ih]

end Segment

/-! ## Tables and lists -/

namespace StringTable

open Segment

/-- The fields of a table are those of its strings, placed one after the other. -/
structure Consistent (t : StringTable) : Prop where
  offsets : ∀ s, t.offset? s = (offsetIn? s t.strings).map UInt32.ofNat
  literals : t.literals = place 0 t.strings
  size : t.size = UInt32.ofNat (spaceOf t.strings)

namespace Consistent

/-- **The fields of the empty table agree.** -/
theorem empty : StringTable.empty.Consistent := ⟨fun _ => rfl, rfl, rfl⟩

/-- **Placing a string keeps the fields in agreement.** -/
theorem intern {t : StringTable} (h : t.Consistent) (s : String) : (t.intern s).2.Consistent := by
  unfold StringTable.intern
  cases ho : t.offset? s with
  | some o => exact h
  | none =>
    have hnew : offsetIn? s t.strings = none := by
      rw [h.offsets, Option.map_eq_none_iff] at ho
      exact ho
    have hstrings : (t.literals ++ [(t.size, s)]).map Prod.snd = t.strings ++ [s] := by
      rw [List.map_append]
      rfl
    refine ⟨fun r => ?_, ?_, ?_⟩
    · show ((s, t.size) :: t.offsets).lookup r = (offsetIn? r ((t.literals ++ [(t.size, s)]).map Prod.snd)).map _
      rw [hstrings, List.lookup_cons]
      by_cases hr : r = s
      · rw [hr, offsetIn?_append_self hnew, h.size]
        simp
      · rw [offsetIn?_append_of_ne hr, ← h.offsets, beq_eq_false_iff_ne.2 hr]
        rfl
    · show t.literals ++ [(t.size, s)] = place 0 ((t.literals ++ [(t.size, s)]).map Prod.snd)
      rw [hstrings, place_append, ← h.literals, Nat.zero_add, h.size]
      rfl
    · show t.size + (UInt32.ofNat s.utf8ByteSize + 1) =
        UInt32.ofNat (spaceOf ((t.literals ++ [(t.size, s)]).map Prod.snd))
      rw [hstrings, spaceOf_append, UInt32.ofNat_add, ← h.size, spaceOf, spaceOf, space, Nat.add_zero,
        UInt32.ofNat_add]
      rfl

end Consistent

end StringTable

/-! ## Segments -/

/-- The strings of a unit: a table whose fields agree. -/
structure Segment where
  table : StringTable
  consistent : table.Consistent
  deriving DecidableEq, Repr

namespace Segment

open Wasm

/-- The segment without strings. -/
def empty : Segment := ⟨.empty, .empty⟩

/-- The strings of a segment, in placement order. -/
def strings (seg : Segment) : List String := seg.table.strings

/-- `DataSegment::size`: the number of bytes of a segment. -/
def size (seg : Segment) : Nat := seg.table.size.toNat

/-- `DataSegment::is_empty`: whether a segment has no bytes. -/
def isEmpty (seg : Segment) : Bool := seg.table.size == 0

/-- The bytes of a segment. -/
def bytes (seg : Segment) : Bytes := seg.table.bytes

/-- The offset of a string, if it is placed. -/
def offset? (seg : Segment) (s : String) : Option Nat := (seg.table.offset? s).map UInt32.toNat

/-- The offset of a string and the segment with it. -/
def intern (seg : Segment) (s : String) : Nat × Segment :=
  let r := seg.table.intern s
  (r.1.toNat, ⟨r.2, seg.consistent.intern s⟩)

/-- **The size is the length.**  A segment has as many bytes as its size says. -/
theorem length_bytes (seg : Segment) : seg.bytes.length = seg.size := by
  unfold bytes StringTable.bytes
  rw [Array.length_toList, StringTable.size_foldl_copy, Array.size_replicate]
  rfl

/-- `string_address`: code that leaves the address of the string at an offset. -/
def address (offset : Nat) : Code :=
  [.globalGet Layout.dataStartGlobal, .constI32 offset, .arith .i32 .add]

end Segment

end WasmLowering
