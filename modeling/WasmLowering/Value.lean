/-
# Machine values

`MachineValue`.

A machine value is a word of one of the two kinds.  Words are bit vectors;
where a number is printed or written it is read in two's complement.
-/

import WasmLowering.Width

namespace WasmLowering

/-- A machine word. -/
inductive Value where
  | i32 (word : BitVec 32)
  | i64 (word : BitVec 64)
  deriving DecidableEq, Repr

namespace Value

/-- The kind of a word. -/
def kind : Value → Kind
  | i32 _ => .i32
  | i64 _ => .i64

/-- The word read in two's complement. -/
def toInt : Value → Int
  | i32 w => w.toInt
  | i64 w => w.toInt

/-- The word read as a natural number. -/
def toNat : Value → Nat
  | i32 w => w.toNat
  | i64 w => w.toNat

/-- The word of kind `k` congruent to `n` modulo `k.modulus`. -/
def ofNat : Kind → Nat → Value
  | .i32, n => i32 (BitVec.ofNat 32 n)
  | .i64, n => i64 (BitVec.ofNat 64 n)

/-- The zero of kind `i32`, the result of everything run for its effect. -/
def unit : Value := i32 0

/-- **A word made for a kind is of that kind.** -/
@[simp] theorem kind_ofNat (k : Kind) (n : Nat) : (ofNat k n).kind = k := by
  cases k <;> rfl

/-- **A word keeps a number modulo the words of its kind.** -/
@[simp] theorem toNat_ofNat (k : Kind) (n : Nat) : (ofNat k n).toNat = n % k.modulus := by
  cases k <;> simp [ofNat, toNat, Kind.modulus]

instance : Inhabited Value := ⟨unit⟩

end Value

end WasmLowering
