/-
# Numbers at a width

A value at a width of `b` bits is a pattern, a number below `2 ^ b`, and the
pattern stands for an integer, in two's complement if the width is signed:

| pattern `p` at a width   | stands for  | if                |
|--------------------------|-------------|-------------------|
| without sign             | `p`         |                   |
| with sign                | `p`         | `p < 2 ^ (b - 1)` |
| with sign                | `p - 2 ^ b` | `2 ^ (b - 1) ≤ p` |

Conversely the pattern of an integer is what is left of it modulo `2 ^ b`.  So a
pattern and its integer are congruent modulo `2 ^ b` (`Width.number_modEq`), and a
word holds the pattern of whatever integer it is congruent to.

An integer is also a row of bits, without end to the left.  Two of them are
congruent modulo `2 ^ b` if their `b` lowest bits agree (`modEq_iff_testBit`), so
that conjunction, disjunction and difference of bits respect congruence as sums
and products do.
-/

import Mathlib.Data.Int.Bitwise
import Mathlib.Data.Int.ModEq
import WasmLowering.Value

namespace WasmLowering

namespace Width

/-- The integer that a pattern stands for. -/
def number (w : Width) (p : Nat) : Int :=
  if w.signed = true ∧ w.modulus ≤ 2 * p then (p : Int) - w.modulus else p

/-- The pattern of an integer. -/
def pattern (w : Width) (n : Int) : Nat := (n % w.modulus).toNat

/-- The least integer of a width. -/
def least (w : Width) : Int := if w.signed = true then -(w.modulus / 2 : Nat) else 0

/-- **Patterns are below the number of values.** -/
theorem pattern_lt (w : Width) (n : Int) : w.pattern n < w.modulus := by
  have hpos : (0 : Int) < w.modulus := Int.natCast_pos.2 w.modulus_pos
  have hlt := Int.emod_lt_of_pos n hpos
  unfold pattern
  omega

/-- **A pattern is congruent to its integer.** -/
theorem number_modEq (w : Width) (p : Nat) : w.number p ≡ p [ZMOD w.modulus] := by
  unfold number
  split
  · exact Int.modEq_iff_dvd.2 ⟨1, by omega⟩
  · exact Int.ModEq.refl _

/-- **An integer is congruent to its pattern.** -/
theorem pattern_modEq (w : Width) (n : Int) : (w.pattern n : Int) ≡ n [ZMOD w.modulus] := by
  have hpos : (w.modulus : Int) ≠ 0 := Int.natCast_ne_zero.2 w.modulus_pos.ne'
  rw [pattern, Int.toNat_of_nonneg (Int.emod_nonneg n hpos)]
  exact Int.mod_modEq _ _

/-- **What is left of a number is the pattern of the integers that it is congruent to.** -/
theorem mod_eq_pattern {w : Width} {p : Nat} {n : Int} (h : (p : Int) ≡ n [ZMOD w.modulus]) :
    p % w.modulus = w.pattern n := by
  unfold pattern
  rw [← Int.ModEq.eq h]
  omega

/-- **Without a sign a pattern stands for itself.** -/
theorem number_of_unsigned {w : Width} (h : w.signed = false) (p : Nat) : w.number p = p := by
  simp [number, h]

/-- **A pattern of the lower half stands for itself.** -/
theorem number_of_lt {w : Width} {p : Nat} (h : 2 * p < w.modulus) : w.number p = p := by
  rw [number, if_neg]
  omega

/-- **Different patterns stand for different integers.** -/
theorem number_inj {w : Width} {p q : Nat} (hp : p < w.modulus) (hq : q < w.modulus) :
    w.number p = w.number q ↔ p = q := by
  constructor
  · intro h
    have hmod : (p : Int) ≡ q [ZMOD w.modulus] :=
      ((w.number_modEq p).symm.trans (h ▸ Int.ModEq.refl _)).trans (w.number_modEq q)
    exact Nat.ModEq.eq_of_lt_of_lt (Int.natCast_modEq_iff.1 hmod) hp hq
  · rintro rfl
    rfl

/-- **The patterns of a width fill its word** unless it is narrow. -/
theorem modulus_eq_kind {w : Width} (hw : w ≠ .bool) (hn : w.narrow = false) :
    w.modulus = Nat.pow 2 w.kind.bits := by
  rw [modulus_eq, bits_eq_kind_bits hn hw]

/-- **A signed width that fills its word** reads it in two's complement. -/
theorem number_toNat {w : Width} (hs : w.signed = true) (hn : w.narrow = false)
    (x : BitVec w.kind.bits) : w.number x.toNat = x.toInt := by
  have hw : w ≠ .bool := by
    rintro rfl
    cases hs
  have hmodulus : w.modulus = Nat.pow 2 w.kind.bits := modulus_eq_kind hw hn
  rw [number, BitVec.toInt_eq_toNat_cond, hmodulus]
  show (if w.signed = true ∧ Nat.pow 2 w.kind.bits ≤ 2 * x.toNat then
      (x.toNat : Int) - (Nat.pow 2 w.kind.bits : Nat) else x.toNat) =
    if 2 * x.toNat < Nat.pow 2 w.kind.bits then (x.toNat : Int) else
      (x.toNat : Int) - (Nat.pow 2 w.kind.bits : Nat)
  by_cases hupper : Nat.pow 2 w.kind.bits ≤ 2 * x.toNat
  · rw [if_pos ⟨hs, hupper⟩, if_neg (Nat.not_lt.2 hupper)]
  · rw [if_neg fun h => hupper h.2, if_pos (Nat.not_le.1 hupper)]

end Width

/-- **A word is congruent to what it stands for** in two's complement. -/
theorem toNat_modEq_toInt {n : Nat} (x : BitVec n) : (x.toNat : Int) ≡ x.toInt [ZMOD (Nat.pow 2 n : Nat)] := by
  rw [BitVec.toInt_eq_toNat_cond]
  split
  · exact Int.ModEq.refl _
  · refine Int.modEq_iff_dvd.2 ⟨-1, ?_⟩
    show (x.toNat : Int) - (Nat.pow 2 n : Nat) - x.toNat = (Nat.pow 2 n : Nat) * -1
    omega

/-! ## Bits -/

/-- **The lowest bits are left** of an integer modulo a power of two. -/
theorem testBit_toNat_emod (n : Int) (k i : Nat) :
    (n % (Nat.pow 2 k : Nat)).toNat.testBit i = (decide (i < k) && n.testBit i) := by
  have hpos : 0 < Nat.pow 2 k := Nat.two_pow_pos k
  cases n with
  | ofNat m =>
    show ((m : Int) % (Nat.pow 2 k : Nat)).toNat.testBit i = (decide (i < k) && m.testBit i)
    rw [← Int.natCast_emod, Int.toNat_natCast]
    exact Nat.testBit_mod_two_pow m k i
  | negSucc m =>
    have hvalue : (Int.negSucc m % (Nat.pow 2 k : Nat)).toNat = Nat.pow 2 k - (m % Nat.pow 2 k + 1) := by
      rw [Int.negSucc_emod m (Int.natCast_pos.2 hpos), ← Int.natCast_emod]
      omega
    have hbits := Nat.testBit_two_pow_sub_succ (Nat.mod_lt m hpos) i
    rw [hvalue]
    refine hbits.trans ?_
    show (decide (i < k) && !(m % 2 ^ k).testBit i) = (decide (i < k) && !m.testBit i)
    rw [Nat.testBit_mod_two_pow]
    cases decide (i < k) <;> rfl

/-- **Integers are congruent modulo `2 ^ k`** if their `k` lowest bits agree. -/
theorem modEq_iff_testBit {m n : Int} {k : Nat} :
    m ≡ n [ZMOD (Nat.pow 2 k : Nat)] ↔ ∀ i < k, m.testBit i = n.testBit i := by
  have hpos : ((Nat.pow 2 k : Nat) : Int) ≠ 0 := by
    have := Nat.two_pow_pos k
    exact Int.natCast_ne_zero.2 (by show 2 ^ k ≠ 0; omega)
  constructor
  · intro h i hi
    have hm := testBit_toNat_emod m k i
    have hn := testBit_toNat_emod n k i
    rw [Int.ModEq.eq h, hn] at hm
    simpa [hi] using hm.symm
  · intro h
    have hbits : (m % (Nat.pow 2 k : Nat)).toNat = (n % (Nat.pow 2 k : Nat)).toNat := by
      refine Nat.eq_of_testBit_eq fun i => ?_
      rw [testBit_toNat_emod, testBit_toNat_emod]
      by_cases hi : i < k
      · rw [h i hi]
      · simp [hi]
    have hm := Int.emod_nonneg m hpos
    have hn := Int.emod_nonneg n hpos
    show m % _ = n % _
    omega

section Bitwise

variable {a b c d : Int} {k : Nat}

/-- **Conjunctions of congruent integers are congruent.** -/
theorem modEq_land (h : a ≡ c [ZMOD (Nat.pow 2 k : Nat)]) (h' : b ≡ d [ZMOD (Nat.pow 2 k : Nat)]) :
    a.land b ≡ c.land d [ZMOD (Nat.pow 2 k : Nat)] := by
  rw [modEq_iff_testBit] at h h' ⊢
  intro i hi
  rw [Int.testBit_land, Int.testBit_land, h i hi, h' i hi]

/-- **Disjunctions of congruent integers are congruent.** -/
theorem modEq_lor (h : a ≡ c [ZMOD (Nat.pow 2 k : Nat)]) (h' : b ≡ d [ZMOD (Nat.pow 2 k : Nat)]) :
    a.lor b ≡ c.lor d [ZMOD (Nat.pow 2 k : Nat)] := by
  rw [modEq_iff_testBit] at h h' ⊢
  intro i hi
  rw [Int.testBit_lor, Int.testBit_lor, h i hi, h' i hi]

/-- **Differences of the bits of congruent integers are congruent.** -/
theorem modEq_xor (h : a ≡ c [ZMOD (Nat.pow 2 k : Nat)]) (h' : b ≡ d [ZMOD (Nat.pow 2 k : Nat)]) :
    a.xor b ≡ c.xor d [ZMOD (Nat.pow 2 k : Nat)] := by
  rw [modEq_iff_testBit] at h h' ⊢
  intro i hi
  rw [Int.testBit_lxor, Int.testBit_lxor, h i hi, h' i hi]

end Bitwise

end WasmLowering
