/-
# Widths and machine kinds

`Width` and `ValueKind`.

Every integer of a source program has a width.  A machine word has one of two
kinds, and a width is carried by the smallest kind that holds its bits:

| width                       | bits | kind  | signed |
|-----------------------------|-----:|-------|--------|
| `bool`                      |    1 | `i32` | no     |
| `u8`, `i8`                  |    8 | `i32` | `i8`   |
| `u16`, `i16`                |   16 | `i32` | `i16`  |
| `u32`, `i32`                |   32 | `i32` | `i32`  |
| `u64`, `i64`                |   64 | `i64` | `i64`  |
| `nativeUInt`, `nativeInt`   |   64 | `i64` | `nativeInt` |

The narrow widths, 8 and 16 bits, leave the upper part of their word zero.
-/

namespace WasmLowering

/-- The kind of a machine word. -/
inductive Kind where
  | i32
  | i64
  deriving DecidableEq, Repr, Inhabited

namespace Kind

/-- The number of bits of a word: `32` or `64`. -/
def bits : Kind → Nat
  | i32 => 32
  | i64 => 64

/-- The number of words of a kind: two to the power of its bits. -/
def modulus : Kind → Nat
  | i32 => 0x100000000
  | i64 => 0x10000000000000000

/-- The name of a kind in messages, manifests and instruction names. -/
def label : Kind → String
  | i32 => "I32"
  | i64 => "I64"

/-- The name of a kind as a value type of the target's text format. -/
def valType : Kind → String
  | i32 => "i32"
  | i64 => "i64"

/-- **A kind of `b` bits has `2^b` words.** -/
theorem modulus_eq (k : Kind) : k.modulus = Nat.pow 2 k.bits := by
  cases k <;> rfl

end Kind

/-- The width of a source integer. -/
inductive Width where
  | u8
  | u16
  | u32
  | u64
  | i8
  | i16
  | i32
  | i64
  | nativeInt
  | nativeUInt
  | bool
  deriving DecidableEq, Repr, Inhabited

namespace Width

/-- The kind of word that carries a width. -/
def kind : Width → Kind
  | u64 | i64 | nativeInt | nativeUInt => .i64
  | _ => .i32

/-- The number of value bits. -/
def bits : Width → Nat
  | bool => 1
  | u8 | i8 => 8
  | u16 | i16 => 16
  | u32 | i32 => 32
  | u64 | i64 | nativeInt | nativeUInt => 64

/-- The number of values: two to the power of the bits. -/
def modulus : Width → Nat
  | bool => 2
  | u8 | i8 => 0x100
  | u16 | i16 => 0x10000
  | u32 | i32 => 0x100000000
  | u64 | i64 | nativeInt | nativeUInt => 0x10000000000000000

/-- Whether values are read in two's complement. -/
def signed : Width → Bool
  | i8 | i16 | i32 | i64 | nativeInt => true
  | _ => false

/-- Whether a width is an integer narrower than its word. -/
def narrow : Width → Bool
  | u8 | u16 | i8 | i16 => true
  | _ => false

/-- The name of a width in messages. -/
def text : Width → String
  | u8 => "uint8"
  | u16 => "uint16"
  | u32 => "uint32"
  | u64 => "uint64"
  | i8 => "int8"
  | i16 => "int16"
  | i32 => "int32"
  | i64 => "int64"
  | nativeInt => "native_int"
  | nativeUInt => "native_uint"
  | bool => "bool"

/-- **A width fits its word.** -/
theorem bits_le_kind_bits (w : Width) : w.bits ≤ w.kind.bits := by
  cases w <;> decide

/-- **A width of `b` bits has `2^b` values.** -/
theorem modulus_eq (w : Width) : w.modulus = Nat.pow 2 w.bits := by
  cases w <;> rfl

/-- **Every width has a value.** -/
theorem modulus_pos (w : Width) : 0 < w.modulus := by
  cases w <;> decide

/-- **A word has room for every value of its widths.** -/
theorem modulus_le_kind_modulus (w : Width) : w.modulus ≤ w.kind.modulus := by
  cases w <;> decide

/-- **The other widths fill their word.**  Only the narrow widths and `bool` leave bits unused. -/
theorem bits_eq_kind_bits {w : Width} (h : w.narrow = false) (hb : w ≠ bool) :
    w.bits = w.kind.bits := by
  cases w <;> simp_all [narrow, bits, kind, Kind.bits]

end Width

end WasmLowering
