/-
# Operators compute arithmetic

The code of an operator takes two patterns of its width and leaves the pattern of
what the operator gives of the integers that they stand for:

| operator                  | on integers `A`, `B`                       | traps if                     |
|---------------------------|--------------------------------------------|------------------------------|
| sums, products            | as integers                                |                              |
| `div`, `divW`             | the quotient, cut towards zero             | `B = 0`; `A` least, `B = -1` |
| `mod`                     | its remainder, with the sign of `A`        | `B = 0`                      |
| on bits                   | bit by bit, in two's complement            |                              |
| shifts, by less than `b`  | `A * 2 ^ B`, and `A / 2 ^ B` rounded down  |                              |
| comparisons               | `1` if it holds, else `0`                  |                              |

Sums, products, bits and shifts to the left respect congruence modulo `2 ^ b`, so
it does not matter that a narrow word shows its pattern and not its integer.  The
other operators read the integer off the word.  That is right if the width has no
sign, or fills its word; at the narrow signed widths they have no code.
-/

import WasmLowering.Proofs.Numbers
import WasmLowering.Proofs.Preservation
import WasmLowering.Proofs.WidthTyping

namespace WasmLowering

open Wasm

namespace Operator

/-- What an operator gives of two integers; a truth value is `0` or `1`.  The operators of one operand, which
have no code, look at the first. -/
def onNumbers : Operator → (a b : Int) → Int
  | add, a, b | addW, a, b => a + b
  | sub, a, b | subW, a, b => a - b
  | mult, a, b | multW, a, b => a * b
  | div, a, b | divW, a, b => a.tdiv b
  | mod, a, b => a.tmod b
  | bOr, a, b => a.lor b
  | bAnd, a, b => a.land b
  | bXor, a, b => a.xor b
  | bShiftL, a, b => a * (Nat.pow 2 b.toNat : Nat)
  | bShiftR, a, b => a / (Nat.pow 2 b.toNat : Nat)
  | bNot, a, _ => -a - 1
  | eq, a, b => if a = b then 1 else 0
  | neq, a, b => if a ≠ b then 1 else 0
  | lt, a, b => if a < b then 1 else 0
  | lte, a, b => if a ≤ b then 1 else 0
  | gt, a, b => if b < a then 1 else 0
  | gte, a, b => if b ≤ a then 1 else 0
  | and, a, b => if a ≠ 0 ∧ b ≠ 0 then 1 else 0
  | or, a, b => if a ≠ 0 ∨ b ≠ 0 then 1 else 0
  | xor, a, b => if a ≠ 0 ↔ b ≠ 0 then 0 else 1
  | not, a, _ => if a = 0 then 1 else 0

/-- Whether an operator moves bits by a count. -/
def isShift : Operator → Bool
  | bShiftL | bShiftR => true
  | _ => false

/-- The operator gives no integer of the width: the divisor is zero, or the quotient is one more than the
greatest. -/
def Traps (w : Width) (op : Operator) (a b : Int) : Prop :=
  op ∈ [div, divW, mod] ∧ b = 0 ∨ op ∈ [div, divW] ∧ a = w.least ∧ b = -1

instance (w : Width) (op : Operator) (a b : Int) : Decidable (op.Traps w a b) :=
  inferInstanceAs (Decidable (_ ∨ _))

/-- **The code of an operator** is one instruction, and the cut to the width if it is no comparison. -/
theorem lower_cases {op : Operator} {w : Width} {code : Code} (h : op.lower w = .ok code) :
    (w = .bool ∧ ∃ i, op.boolInstr? = some i ∧ code = [i]) ∨
    (w ≠ .bool ∧ (op.isSignAware = true → w.signed = true → w.narrow = false) ∧
      ((∃ o, op.arith? w.signed = some o ∧ code = .arith w.kind o :: w.mask) ∨
        ∃ r, op.rel? w.signed = some r ∧ code = [.compare w.kind r])) := by
  obtain ⟨i, hi, hcode⟩ := ok_of_map h
  unfold instr at hi
  by_cases hw : w = .bool
  · subst hw
    rw [if_pos rfl] at hi
    refine .inl ⟨rfl, i, ?_, ?_⟩
    · cases hb : op.boolInstr? with
      | none => rw [hb] at hi; cases hi
      | some j => rw [hb] at hi; cases hi; rfl
    · rw [← hcode]
      split <;> rfl
  · rw [if_neg hw] at hi
    split at hi
    · cases hi
    · rename_i haware
      refine .inr ⟨hw, ?_, ?_⟩
      · intro hop hs
        simpa [hop, hs] using haware
      · unfold intInstr? at hi
        cases ha : op.arith? w.signed with
        | some o =>
          rw [ha] at hi
          cases hi
          rw [isComparison_of_arith? ha] at hcode
          exact .inl ⟨o, rfl, hcode.symm⟩
        | none =>
          cases hr : op.rel? w.signed with
          | some r =>
            rw [ha, hr] at hi
            cases hi
            rw [isComparison_of_rel? hr] at hcode
            exact .inr ⟨r, rfl, hcode.symm⟩
          | none =>
            rw [ha, hr] at hi
            cases hi

end Operator

/-! ## Words modulo a power of two -/

section Words

variable {n : Nat} (x y : BitVec n)

theorem toNat_add_modEq : ((x + y).toNat : Int) ≡ x.toNat + y.toNat [ZMOD (Nat.pow 2 n : Nat)] := by
  rw [BitVec.toNat_add, Int.natCast_mod]
  exact Int.mod_modEq _ _

theorem toNat_mul_modEq : ((x * y).toNat : Int) ≡ x.toNat * y.toNat [ZMOD (Nat.pow 2 n : Nat)] := by
  rw [BitVec.toNat_mul, Int.natCast_mod, Int.natCast_mul]
  exact Int.mod_modEq _ _

theorem toNat_sub_modEq : ((x - y).toNat : Int) ≡ x.toNat - y.toNat [ZMOD (Nat.pow 2 n : Nat)] := by
  have hlt : y.toNat < 2 ^ n := y.isLt
  have hsum : ((2 ^ n - y.toNat + x.toNat : Nat) : Int) = x.toNat - y.toNat + (2 ^ n : Nat) := by omega
  rw [BitVec.toNat_sub, Int.natCast_mod, hsum]
  refine (Int.mod_modEq _ _).trans ?_
  exact Int.modEq_iff_dvd.2 ⟨-1, by show _ = ((2 ^ n : Nat) : Int) * -1; omega⟩

theorem toNat_shl_modEq (s : Nat) :
    ((x <<< s).toNat : Int) ≡ x.toNat * (Nat.pow 2 s : Nat) [ZMOD (Nat.pow 2 n : Nat)] := by
  rw [BitVec.toNat_shiftLeft, Nat.shiftLeft_eq, Int.natCast_mod, Int.natCast_mul]
  exact Int.mod_modEq _ _

end Words

/-! ## Instructions -/

section Instructions

variable {w : Width} {op : Operator} {x y : BitVec w.kind.bits}

/-- **A divisor is zero** if its word is. -/
theorem Width.number_eq_zero (hy : y.toNat < w.modulus) : w.number y.toNat = 0 ↔ y = 0 := by
  have hzero : w.number 0 = 0 := number_of_lt (by have := w.modulus_pos; omega)
  have hinj := number_inj hy w.modulus_pos
  rw [hzero] at hinj
  rw [hinj, ← BitVec.toNat_inj]
  exact Iff.rfl

/-- **The least integer and minus one** are the words that a signed division looks for. -/
theorem Width.number_eq_least (hs : w.signed = true) (hn : w.narrow = false) :
    (w.number x.toNat = w.least ↔ x = BitVec.intMin _) ∧ (w.number y.toNat = -1 ↔ y = -1) := by
  rw [number_toNat hs hn, number_toNat hs hn, ← BitVec.toInt_inj, ← BitVec.toInt_inj (x := y)]
  cases w <;> cases hs <;> cases hn <;> exact ⟨Iff.rfl, Iff.rfl⟩

/-- **Without a sign no pattern stands for minus one.** -/
theorem Width.number_ne_neg_one (hs : w.signed = false) (p : Nat) : w.number p ≠ -1 := by
  rw [number_of_unsigned hs]
  omega

namespace Operator

variable {o : IntOp}

/-- **An instruction traps** just if the operator does. -/
theorem compute_eq_none_iff (ho : op.arith? w.signed = some o)
    (haware : op.isSignAware = true → w.signed = true → w.narrow = false) (hy : y.toNat < w.modulus) :
    o.compute x y = none ↔ op.Traps w (w.number x.toNat) (w.number y.toNat) := by
  have hzero := Width.number_eq_zero hy
  cases hs : w.signed with
  | true =>
    rw [hs] at ho
    cases op with
    | div | divW =>
      cases ho
      obtain ⟨hleast, hone⟩ := Width.number_eq_least (x := x) (y := y) hs (haware rfl hs)
      simp [IntOp.compute, Traps, hzero, hleast, hone, or_iff_not_imp_left]
    | _ => cases ho <;> simp [IntOp.compute, Traps, hzero]
  | false =>
    have hone := Width.number_ne_neg_one hs y.toNat
    rw [hs] at ho
    cases op <;> cases ho <;> simp [IntOp.compute, Traps, hzero, hone]

/-! The three ways in which the result of an instruction stands for what the operator gives. -/

/-- **Read in two's complement,** the result of an instruction that looks at signs is what the operator gives
of its operands. -/
theorem toInt_of_compute {n : Nat} {x y z : BitVec n} (haware : op.isSignAware = true)
    (ho : op.arith? true = some o) (hcount : op.isShift = true → y.toNat < n ∧ y.toInt = y.toNat)
    (hz : o.compute x y = some z) : z.toInt = op.onNumbers x.toInt y.toInt := by
  cases op with
  | div | divW =>
    cases ho
    obtain ⟨htraps, hz⟩ := Option.ite_none_left_eq_some.1 hz
    cases hz
    rw [not_or, not_and_or] at htraps
    exact BitVec.toInt_sdiv_of_ne_or_ne x y htraps.2
  | mod =>
    cases ho
    obtain ⟨-, hz⟩ := Option.ite_none_left_eq_some.1 hz
    cases hz
    exact BitVec.toInt_srem x y
  | bShiftR =>
    cases ho
    cases hz
    obtain ⟨hlt, hy⟩ := hcount rfl
    rw [Nat.mod_eq_of_lt hlt, BitVec.toInt_sshiftRight, Int.shiftRight_eq_div_pow, onNumbers, hy,
      Int.toNat_natCast]
    rfl
  | _ => cases haware <;> cases ho

/-- **Read without a sign,** the result of such an instruction is what the operator gives as well. -/
theorem toNat_of_compute {n : Nat} {x y z : BitVec n} (haware : op.isSignAware = true)
    (ho : op.arith? false = some o) (hcount : op.isShift = true → y.toNat < n)
    (hz : o.compute x y = some z) : (z.toNat : Int) = op.onNumbers x.toNat y.toNat := by
  cases op with
  | div | divW =>
    cases ho
    obtain ⟨-, hz⟩ := Option.ite_none_left_eq_some.1 hz
    cases hz
    exact Int.ofNat_tdiv x.toNat y.toNat
  | mod =>
    cases ho
    obtain ⟨-, hz⟩ := Option.ite_none_left_eq_some.1 hz
    cases hz
    exact Int.ofNat_tmod x.toNat y.toNat
  | bShiftR =>
    cases ho
    cases hz
    rw [Nat.mod_eq_of_lt (hcount rfl), BitVec.toNat_ushiftRight, Nat.shiftRight_eq_div_pow,
      Int.natCast_ediv, onNumbers, Int.toNat_natCast]
    rfl
  | _ => cases haware <;> cases ho

/-- **Modulo a power of two,** the result of any other instruction is what the operator gives of integers
that its operands are congruent to.  A count has to be the integer itself. -/
theorem modEq_of_compute {n k : Nat} (hk : k ≤ n) {x y z : BitVec n} {a b : Int} {signed : Bool}
    (hplain : op.isSignAware = false) (ho : op.arith? signed = some o)
    (ha : (x.toNat : Int) ≡ a [ZMOD (Nat.pow 2 k : Nat)]) (hb : (y.toNat : Int) ≡ b [ZMOD (Nat.pow 2 k : Nat)])
    (hcount : op.isShift = true → y.toNat < n ∧ b = y.toNat) (hz : o.compute x y = some z) :
    (z.toNat : Int) ≡ op.onNumbers a b [ZMOD (Nat.pow 2 k : Nat)] := by
  have hdvd : ((Nat.pow 2 k : Nat) : Int) ∣ (Nat.pow 2 n : Nat) :=
    Int.natCast_dvd_natCast.2 (Nat.pow_dvd_pow 2 hk)
  cases op with
  | add | addW =>
    cases ho
    cases hz
    exact ((toNat_add_modEq x y).of_dvd hdvd).trans (ha.add hb)
  | sub | subW =>
    cases ho
    cases hz
    exact ((toNat_sub_modEq x y).of_dvd hdvd).trans (ha.sub hb)
  | mult | multW =>
    cases ho
    cases hz
    exact ((toNat_mul_modEq x y).of_dvd hdvd).trans (ha.mul hb)
  | bOr =>
    cases ho
    cases hz
    rw [BitVec.toNat_or]
    exact modEq_lor ha hb
  | bAnd =>
    cases ho
    cases hz
    rw [BitVec.toNat_and]
    exact modEq_land ha hb
  | bXor =>
    cases ho
    cases hz
    rw [BitVec.toNat_xor]
    exact modEq_xor ha hb
  | bShiftL =>
    cases ho
    cases hz
    obtain ⟨hlt, rfl⟩ := hcount rfl
    rw [Nat.mod_eq_of_lt hlt, onNumbers, Int.toNat_natCast]
    exact ((toNat_shl_modEq x y.toNat).of_dvd hdvd).trans (ha.mul_right _)
  | _ => cases hplain <;> cases ho

/-- **A shift by less than the bits of a width** is by a pattern that stands for itself. -/
theorem number_of_count (hw : w ≠ .bool) {s : Nat} (h : s < w.bits) : s < w.kind.bits ∧ w.number s = s := by
  refine ⟨Nat.lt_of_lt_of_le h w.bits_le_kind_bits, Width.number_of_lt ?_⟩
  cases w <;> simp only [Width.bits, Width.modulus] at h ⊢ <;> omega

/-- **What is left of a result at a width** is the pattern of what the operator gives. -/
theorem pattern_of_compute (hw : w ≠ .bool) (ho : op.arith? w.signed = some o)
    (haware : op.isSignAware = true → w.signed = true → w.narrow = false)
    (hshift : op.isShift = true → y.toNat < w.bits) {z : BitVec w.kind.bits} (hz : o.compute x y = some z) :
    z.toNat % w.modulus = w.pattern (op.onNumbers (w.number x.toNat) (w.number y.toNat)) := by
  refine Width.mod_eq_pattern ?_
  have hcount (hop : op.isShift = true) := number_of_count hw (hshift hop)
  cases hop : op.isSignAware with
  | false =>
    have hx := (w.number_modEq x.toNat).symm
    have hy := (w.number_modEq y.toNat).symm
    rw [w.modulus_eq] at hx hy ⊢
    exact modEq_of_compute w.bits_le_kind_bits hop ho hx hy hcount hz
  | true =>
    cases hs : w.signed with
    | true =>
      have hn := haware hop hs
      rw [Width.number_toNat hs hn, Width.number_toNat hs hn, Width.modulus_eq_kind hw hn]
      rw [hs] at ho
      rw [← toInt_of_compute hop ho (fun h => Width.number_toNat hs hn y ▸ hcount h) hz]
      exact toNat_modEq_toInt z
    | false =>
      rw [Width.number_of_unsigned hs, Width.number_of_unsigned hs]
      rw [hs] at ho
      rw [← toNat_of_compute hop ho (fun h => (hcount h).1) hz]

/-! Comparisons read the integers off the words as well. -/

/-- **The order of words is the order of integers,** by the sign of the width. -/
theorem holds_lt (hs : w.signed = true → w.narrow = false) :
    (if w.signed then IntRel.ltS else .ltU).holds x y = decide (w.number x.toNat < w.number y.toNat) ∧
    (if w.signed then IntRel.leS else .leU).holds x y = decide (w.number x.toNat ≤ w.number y.toNat) := by
  cases hsigned : w.signed with
  | true =>
    have hn := hs hsigned
    rw [Width.number_toNat hsigned hn, Width.number_toNat hsigned hn]
    exact ⟨rfl, rfl⟩
  | false =>
    rw [Width.number_of_unsigned hsigned, Width.number_of_unsigned hsigned]
    exact ⟨decide_eq_decide.2 Int.ofNat_lt.symm, decide_eq_decide.2 Int.ofNat_le.symm⟩

/-- **A comparison instruction** tells whether the operator holds of the integers. -/
theorem onNumbers_of_rel {r : IntRel} (hr : op.rel? w.signed = some r)
    (haware : op.isSignAware = true → w.signed = true → w.narrow = false)
    (hx : x.toNat < w.modulus) (hy : y.toNat < w.modulus) :
    op.onNumbers (w.number x.toNat) (w.number y.toNat) = if r.holds x y then 1 else 0 := by
  have hinj : w.number x.toNat = w.number y.toNat ↔ x = y := (Width.number_inj hx hy).trans BitVec.toNat_inj
  cases op with
  | eq | neq =>
    cases hr
    simp [onNumbers, IntRel.holds, hinj]
  | lt | lte =>
    cases hr
    obtain ⟨hlt, hle⟩ := holds_lt (x := x) (y := y) (haware rfl)
    simp [onNumbers, hlt, hle]
  | gt | gte =>
    cases hr
    obtain ⟨hlt, hle⟩ := holds_lt (x := y) (y := x) (haware rfl)
    cases hsigned : w.signed <;> rw [hsigned] at hlt hle <;>
      simp_all [onNumbers, IntRel.holds]
  | _ => cases hr

end Operator

end Instructions

/-! ## Code -/

/-- The value that a word of a kind is. -/
def Value.ofWord : (k : Kind) → BitVec k.bits → Value
  | .i32, x => .i32 x
  | .i64, x => .i64 x

/-- **A word is the value of its number.** -/
theorem Value.ofWord_eq : {k : Kind} → (x : BitVec k.bits) → ofWord k x = .ofNat k x.toNat
  | .i32, x => congrArg i32 (BitVec.ofNat_toNat 32 x ▸ (BitVec.setWidth_eq x).symm)
  | .i64, x => congrArg i64 (BitVec.ofNat_toNat 64 x ▸ (BitVec.setWidth_eq x).symm)

/-- **A pattern is the number of a word.** -/
theorem Width.exists_word {w : Width} {p : Nat} (h : p < w.modulus) : ∃ x : BitVec w.kind.bits, x.toNat = p := by
  have hword : p < w.kind.modulus := Nat.lt_of_lt_of_le h w.modulus_le_kind_modulus
  rw [w.kind.modulus_eq] at hword
  exact ⟨BitVec.ofNatLT p hword, rfl⟩

namespace Wasm

theorem IntOp.apply_ofWord (o : IntOp) {k : Kind} (x y : BitVec k.bits) :
    o.apply k (.ofWord k x) (.ofWord k y) = (orTrap (o.compute x y)).map (.ofWord k) := by
  cases k <;> rfl

theorem Code.onWords_compare (r : IntRel) {k : Kind} (x y : BitVec k.bits) (ws : List Value) :
    Code.onWords [.compare k r] (.ofWord k y :: .ofWord k x :: ws) = .ok (truth (r.holds x y) :: ws) := by
  cases k <;> rfl

end Wasm

/-- **The cut to a width** leaves the number modulo its values. -/
theorem Width.onWords_mask {w : Width} (hw : w ≠ .bool) (n : Nat) (ws : List Value) :
    w.mask.onWords (.ofNat w.kind n :: ws) = .ok (.ofNat w.kind (n % w.modulus) :: ws) := by
  unfold mask
  split
  · rename_i hn
    have hk : w.kind = .i32 := by cases w <;> cases hn <;> rfl
    have hcut : BitVec.ofNat 32 n &&& BitVec.ofNat 32 w.maskWord = BitVec.ofNat 32 (n % w.modulus) := by
      rw [← BitVec.ofNat_and, maskWord, w.modulus_eq]
      exact congrArg _ (Nat.and_two_pow_sub_one_eq_mod n w.bits)
    rw [hk, Value.ofNat, Value.ofNat, ← hcut]
    rfl
  · rename_i hn
    rw [modulus_eq_kind hw (Bool.eq_false_iff.2 hn), ← w.kind.modulus_eq]
    cases w.kind <;> simp [Value.ofNat, Kind.modulus, Code.onWords, ← BitVec.toNat_inj]

/-- **An operation and the cut behind it** leave the number of its result modulo the values of the width. -/
theorem Width.onWords_arith {w : Width} (hw : w ≠ .bool) (o : IntOp) (x y : BitVec w.kind.bits)
    (ws : List Value) :
    Code.onWords (.arith w.kind o :: w.mask) (.ofWord w.kind y :: .ofWord w.kind x :: ws) =
      (orTrap (o.compute x y)).map fun z => .ofNat w.kind (z.toNat % w.modulus) :: ws := by
  show (o.apply w.kind (.ofWord w.kind x) (.ofWord w.kind y)).map (· :: ws) >>= Code.onWords w.mask = _
  rw [IntOp.apply_ofWord]
  cases o.compute x y with
  | none => rfl
  | some z =>
    show w.mask.onWords (.ofWord w.kind z :: ws) = _
    rw [Value.ofWord_eq, onWords_mask hw]
    rfl

namespace Operator

variable {op : Operator} {w : Width} {code : Code} {a b : Nat}

/-- **On truth values** an operator gives the truth value. -/
theorem onWords_bool {i : Instr} (hi : op.boolInstr? = some i) (ha : a < 2) (hb : b < 2) (ws : List Value) :
    Code.onWords [i] (.ofNat .i32 b :: .ofNat .i32 a :: ws) =
        .ok (.ofNat .i32 (Width.pattern .bool (op.onNumbers a b)) :: ws) ∧
      ¬ op.Traps .bool a b := by
  have hbit {n : Nat} (h : n < 2) : n = 0 ∨ n = 1 := by omega
  cases op <;> cases hi <;> obtain rfl | rfl := hbit ha <;> obtain rfl | rfl := hbit hb <;>
    exact ⟨rfl, by decide⟩

/-- **What the code of an operator does** to the two patterns on top of the words. -/
theorem onWords_lower (h : op.lower w = .ok code) (ha : a < w.modulus) (hb : b < w.modulus) (ws : List Value) :
    (op.Traps w (w.number a) (w.number b) →
      code.onWords (.ofNat w.kind b :: .ofNat w.kind a :: ws) = .error .trap) ∧
    (¬ op.Traps w (w.number a) (w.number b) → ∃ r < (op.resultWidth w).modulus,
      code.onWords (.ofNat w.kind b :: .ofNat w.kind a :: ws) = .ok (.ofNat (op.resultWidth w).kind r :: ws) ∧
      ((op.isShift = true → b < w.bits) →
        r = (op.resultWidth w).pattern (op.onNumbers (w.number a) (w.number b)))) := by
  obtain ⟨rfl, i, hi, rfl⟩ | ⟨hw, haware, hcode⟩ := lower_cases h
  · have hwidth : op.resultWidth .bool = .bool := ite_self _
    obtain ⟨hwords, htraps⟩ := onWords_bool hi ha hb ws
    rw [hwidth, Width.number_of_unsigned rfl, Width.number_of_unsigned rfl]
    exact ⟨fun h => absurd h htraps, fun _ => ⟨_, Width.pattern_lt _ _, hwords, fun _ => rfl⟩⟩
  · obtain ⟨x, rfl⟩ := Width.exists_word ha
    obtain ⟨y, rfl⟩ := Width.exists_word hb
    rw [← Value.ofWord_eq, ← Value.ofWord_eq]
    obtain ⟨o, ho, rfl⟩ | ⟨r, hr, rfl⟩ := hcode
    · have hwidth : op.resultWidth w = w := by
        rw [resultWidth, isComparison_of_arith? ho]
        rfl
      have hnone := compute_eq_none_iff (x := x) ho haware hb
      rw [hwidth, Width.onWords_arith hw]
      cases hz : o.compute x y with
      | none => exact ⟨fun _ => rfl, fun h => absurd (hnone.1 hz) h⟩
      | some z =>
        refine ⟨fun h => ?_, fun _ => ⟨_, Nat.mod_lt _ w.modulus_pos, rfl, fun hshift => ?_⟩⟩
        · rw [hnone.2 h] at hz
          cases hz
        · exact pattern_of_compute hw ho haware hshift hz
    · have hwidth : op.resultWidth w = .bool := by
        rw [resultWidth, isComparison_of_rel? hr]
        rfl
      have htraps : ¬ op.Traps w (w.number x.toNat) (w.number y.toNat) := by
        cases op <;> cases hr <;> simp [Traps]
      have hnumber := onNumbers_of_rel hr haware ha hb
      rw [hwidth, Code.onWords_compare, hnumber]
      refine ⟨fun h => absurd h htraps, fun _ => ⟨_, Width.pattern_lt .bool _, ?_, fun _ => rfl⟩⟩
      cases r.holds x y <;> rfl

/-- **Operators compute arithmetic.**  The code of an operator at a width, run on the patterns of two
integers, traps just if the operator does.  Otherwise it leaves a pattern of the result's width, and nothing
else changes.  It is the pattern of what the operator gives of the integers; for a shift, if the count is
below the bits of the width. -/
theorem exec_arithmetic (h : op.lower w = .ok code) {spaces : IndexSpaces} (inst : Instance spaces)
    (fuel : Nat) {m : Machine} {rest : List Value} (ha : a < w.modulus) (hb : b < w.modulus)
    (hm : m.stack = .ofNat w.kind b :: .ofNat w.kind a :: rest) :
    (op.Traps w (w.number a) (w.number b) → Code.exec inst fuel code m = .halt .trap) ∧
    (¬ op.Traps w (w.number a) (w.number b) → ∃ r < (op.resultWidth w).modulus,
      Code.exec inst fuel code m = .next { m with stack := .ofNat (op.resultWidth w).kind r :: rest } ∧
      ((op.isShift = true → b < w.bits) →
        r = (op.resultWidth w).pattern (op.onNumbers (w.number a) (w.number b)))) := by
  obtain ⟨htrap, hleaves⟩ := onWords_lower h ha hb rest
  rw [← hm] at htrap hleaves
  constructor
  · intro htraps
    have hwords := htrap htraps
    rw [Code.exec_onWords inst fuel (by simp [hwords]), hwords]
    rfl
  · intro htraps
    obtain ⟨r, hr, hwords, hpattern⟩ := hleaves htraps
    refine ⟨r, hr, ?_, hpattern⟩
    rw [Code.exec_onWords inst fuel (by simp [hwords]), hwords]
    rfl

end Operator

namespace Tally

/-- The tally's machine with some words at hand. -/
def onStack (ws : List Value) : Machine := { machine with stack := ws }

/-- The product of `-32768` and `-1` does not fit 16 bits and wraps, the remainder of the least number of 64
bits by `-1` is `0`, and their quotient traps. -/
theorem exec_arithmetic_least :
    (∃ code, Operator.mult.lower .i16 = .ok code ∧
      Code.exec inst 0 code (onStack [.ofNat .i32 0xffff, .ofNat .i32 0x8000, .i64 5]) =
        .next (onStack [.ofNat .i32 0x8000, .i64 5])) ∧
    (∃ code, Operator.mod.lower .i64 = .ok code ∧
      Code.exec inst 0 code (onStack [.ofNat .i64 0xffffffffffffffff, .ofNat .i64 0x8000000000000000]) =
        .next (onStack [.ofNat .i64 0])) ∧
    (∃ code, Operator.div.lower .i64 = .ok code ∧
      Code.exec inst 0 code (onStack [.ofNat .i64 0xffffffffffffffff, .ofNat .i64 0x8000000000000000]) =
        .halt .trap) := by
  have hmult : Operator.mult.lower .i16 = .ok _ := rfl
  have hmod : Operator.mod.lower .i64 = .ok _ := rfl
  have hdiv : Operator.div.lower .i64 = .ok _ := rfl
  refine ⟨⟨_, hmult, ?_⟩, ⟨_, hmod, ?_⟩, ⟨_, hdiv, ?_⟩⟩
  · obtain ⟨r, -, hrun, hr⟩ := (Operator.exec_arithmetic (a := 0x8000) (b := 0xffff) hmult inst 0
      (m := onStack [_, _, .i64 5]) (by decide) (by decide) rfl).2 (by decide)
    refine hrun.trans ?_
    rw [hr (by decide)]
    rfl
  · obtain ⟨r, -, hrun, hr⟩ := (Operator.exec_arithmetic (a := 0x8000000000000000) (b := 0xffffffffffffffff)
      hmod inst 0 (m := onStack [_, _]) (by decide) (by decide) rfl).2 (by decide)
    refine hrun.trans ?_
    rw [hr (by decide)]
    rfl
  · exact (Operator.exec_arithmetic (a := 0x8000000000000000) (b := 0xffffffffffffffff)
      hdiv inst 0 (by decide) (by decide) rfl).1 (by decide)

end Tally

end WasmLowering
