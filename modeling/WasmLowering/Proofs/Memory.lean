/-
# Byte memories

A memory has a size and a byte at every address below it.  A word of `n` bytes
is read and written lowest byte first, and every access stays below the size:

| access        | result                                              |
|---------------|-----------------------------------------------------|
| `load n a`    | the number in the bytes `a .. a + n`                |
| `store n a v` | the memory with `v` modulo `256 ^ n` in these bytes |

The highwater mark is the word at address `0` (`WasmLowering.Layout`).
-/

import WasmLowering.Layout
import WasmLowering.Value

namespace WasmLowering

/-- The kind of the elements of a size. -/
def elementKind (size : Nat) : Kind := if size = 8 then .i64 else .i32

/-- A byte memory.  Bytes from the size on are never looked at. -/
structure Memory where
  size : Nat
  byte : Nat → UInt8

namespace Memory

/-- The number in `n` bytes from an address on, lowest byte first. -/
def read (m : Memory) : (n a : Nat) → Nat
  | 0, _ => 0
  | n + 1, a => (m.byte a).toNat + 256 * m.read n (a + 1)

/-- The memory with a number in `n` bytes from an address on, lowest byte first. -/
def write (m : Memory) (n a v : Nat) : Memory :=
  { m with byte := fun i => if a ≤ i ∧ i < a + n then (v >>> (8 * (i - a))).toUInt8 else m.byte i }

/-- The number in `n` bytes from an address on, if all of them exist. -/
def load (m : Memory) (n a : Nat) : Option Nat :=
  if a + n ≤ m.size then some (m.read n a) else none

/-- The memory with a number in `n` bytes from an address on, if all of them exist. -/
def store (m : Memory) (n a v : Nat) : Option Memory :=
  if a + n ≤ m.size then some (m.write n a v) else none

/-- The highwater mark, if the memory has room for it. -/
def mark (m : Memory) : Option (BitVec 32) := (m.load 4 Layout.highwater).map (BitVec.ofNat 32)

/-- The memory with another highwater mark, if it has room for one. -/
def setMark (m : Memory) (mark : BitVec 32) : Option Memory := m.store 4 Layout.highwater mark.toNat

/-! ## Laws -/

/-- **What is read is told by the bytes that are read.** -/
theorem read_congr {m m' : Memory} : {n a : Nat} → (∀ i, a ≤ i → i < a + n → m'.byte i = m.byte i) →
    m'.read n a = m.read n a
  | 0, _, _ => rfl
  | n + 1, a, h => by
    have hrest : m'.read n (a + 1) = m.read n (a + 1) :=
      read_congr fun i hi hn => h i (by omega) (by omega)
    rw [read, read, hrest, h a (Nat.le_refl a) (by omega)]

/-- **A number written in no bytes changes nothing.** -/
theorem write_zero (m : Memory) (a v : Nat) : m.write 0 a v = m := by
  have hbyte (i : Nat) : ¬ (a ≤ i ∧ i < a + 0) := by omega
  simp only [write, if_neg (hbyte _)]

/-- **A number is read back where it was written,** up to the bytes that it was written to. -/
theorem read_write (m : Memory) (n a v : Nat) : (m.write n a v).read n a = v % Nat.pow 256 n := by
  induction n generalizing m a v with
  | zero => exact (Nat.mod_one v).symm
  | succ n ih =>
    have hbyte : (m.write (n + 1) a v).byte a = v.toUInt8 := by
      simp [write]
    have hrest : (m.write (n + 1) a v).read n (a + 1) = v / 256 % Nat.pow 256 n := by
      rw [← ih (m.write (n + 1) a v) (a + 1) (v / 256)]
      refine read_congr fun i hi hn => ?_
      have hpos : 8 * (i - a) = 8 + 8 * (i - (a + 1)) := by omega
      have hshift : v >>> (8 * (i - a)) = (v / 256) >>> (8 * (i - (a + 1))) := by
        rw [hpos, Nat.shiftRight_add, Nat.shiftRight_eq_div_pow v 8]
      simp only [write]
      rw [if_pos (by omega), if_pos (by omega), hshift]
    have hpow : Nat.pow 256 (n + 1) = 256 * Nat.pow 256 n := Nat.mul_comm ..
    rw [read, hbyte, hrest, Nat.toUInt8_eq, UInt8.toNat_ofNat', hpow, Nat.mod_mul]

/-- **A number of some bytes** is read from them. -/
theorem read_lt (m : Memory) (n a : Nat) : m.read n a < Nat.pow 256 n := by
  induction n generalizing a with
  | zero => exact Nat.one_pos
  | succ n ih =>
    have hbyte : (m.byte a).toNat < 256 := (m.byte a).toNat_lt
    have hrest := ih (a + 1)
    have hpow : Nat.pow 256 (n + 1) = 256 * Nat.pow 256 n := Nat.mul_comm ..
    rw [read, hpow]
    omega

/-- **The mark is what it was set to.** -/
theorem mark_setMark {m m' : Memory} {w : BitVec 32} (h : m.setMark w = some m') : m'.mark = some w := by
  unfold setMark store at h
  split at h
  · rename_i hroom
    cases h
    have hload : (m.write 4 Layout.highwater w.toNat).load 4 Layout.highwater = some w.toNat := by
      have hword : w.toNat % Nat.pow 256 4 = w.toNat := Nat.mod_eq_of_lt (Nat.lt_of_lt_of_eq w.isLt (by decide))
      unfold load
      rw [read_write, hword]
      exact if_pos hroom
    rw [mark, hload, Option.map_some, BitVec.ofNat_toNat, BitVec.setWidth_eq]
  · cases h

/-- **A store behind the mark keeps it.** -/
theorem mark_store {m m' : Memory} {n a v : Nat} (h : m.store n a v = some m') (ha : 4 ≤ a) :
    m'.mark = m.mark := by
  unfold store at h
  split at h
  · cases h
    have hread : (m.write n a v).read 4 Layout.highwater = m.read 4 Layout.highwater := by
      refine read_congr fun i _ hi => ?_
      have hbelow : ¬ (a ≤ i ∧ i < a + n) := by
        unfold Layout.highwater at hi
        omega
      exact if_neg hbelow
    unfold mark load
    rw [hread]
    rfl
  · cases h

/-! ## Memories that agree outside a range -/

/-- Two memories of one size with the same bytes below `lo` and from `hi` on. -/
structure AgreeOff (lo hi : Nat) (m m' : Memory) : Prop where
  size : m'.size = m.size
  byte : ∀ a, a < lo ∨ hi ≤ a → m'.byte a = m.byte a

namespace AgreeOff

variable {lo hi : Nat} {m m₁ m₂ : Memory}

theorem trans (h : AgreeOff lo hi m m₁) (h' : AgreeOff lo hi m₁ m₂) : AgreeOff lo hi m m₂ :=
  ⟨h'.size.trans h.size, fun a ha => (h'.byte a ha).trans (h.byte a ha)⟩

/-- **A wider range allows more.** -/
theorem mono {lo' hi' : Nat} (h : AgreeOff lo hi m m₁) (hlo : lo' ≤ lo) (hhi : hi ≤ hi') :
    AgreeOff lo' hi' m m₁ :=
  ⟨h.size, fun a ha => h.byte a (by omega)⟩

/-- **A word is written in its own bytes.** -/
theorem write (m : Memory) (n a v : Nat) : AgreeOff a (a + n) m (m.write n a v) := by
  refine ⟨rfl, fun i hi => if_neg ?_⟩
  omega

/-- **A number outside the range is read as before.** -/
theorem read (h : AgreeOff lo hi m m₁) {n a : Nat} (hapart : a + n ≤ lo ∨ hi ≤ a) :
    m₁.read n a = m.read n a :=
  read_congr fun i ha hn => h.byte i (by omega)

end AgreeOff

end Memory

end WasmLowering
