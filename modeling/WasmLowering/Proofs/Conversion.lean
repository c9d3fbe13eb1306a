/-
# Casts convert integers

A cast takes a pattern of its source and leaves the pattern, at its target of `b`
bits, of the integer that it stands for:

| source, target           | the code leaves of `p`   | that is the pattern, since      |
|--------------------------|--------------------------|---------------------------------|
| equal bits               | `p`                      | `p` is below `2 ^ b`            |
| 64 bits, fewer           | `p` modulo `2 ^ b`       | `2 ^ b` divides `2 ^ 64`        |
| unsigned, fewer          | `p` modulo `2 ^ b`       | `p` stands for itself           |
| unsigned, more           | `p`                      | `p` stands for itself           |
| 32 bits with sign, 64    | the word of the integer  | the word of `p` shows its sign  |

So a cast keeps the integer modulo `2 ^ b`.  Casts one after the other keep it
modulo the power of the fewest bits on the way (`Width.exec_castThrough`), and
those that come back to where they started, through no fewer bits, undo each
other.
-/

import WasmLowering.Proofs.Arithmetic

namespace WasmLowering

open Wasm

/-! ## One cast -/

namespace Wasm.Conversion

variable {p : Nat}

/-- **The low half of a word** is congruent to it. -/
theorem apply_wrap (p : Nat) : wrap.apply (.ofNat .i64 p) = .ok (.ofNat .i32 p) := by
  refine congrArg (fun x => Except.ok (Value.i32 x)) ?_
  exact BitVec.setWidth_ofNat_of_le (by decide) p

/-- **A word extended by zeros** is the same number. -/
theorem apply_extendU (hp : p < Kind.i32.modulus) : extendU.apply (.ofNat .i32 p) = .ok (.ofNat .i64 p) := by
  refine congrArg (fun x => Except.ok (Value.i64 x)) ?_
  exact BitVec.setWidth_ofNat_of_le_of_lt (by decide) hp

/-- **A word extended by its sign** is the pattern of the same integer. -/
theorem apply_extendS {target : Width} (ht : target.kind = .i64) (hp : p < Width.i32.modulus) :
    extendS.apply (.ofNat .i32 p) = .ok (.ofNat .i64 (target.pattern (Width.i32.number p))) := by
  have hmodulus : target.modulus = Kind.i64.modulus := by
    cases target <;> first | rfl | cases ht
  obtain ⟨x, rfl⟩ := Width.exists_word hp
  have hnumber : (x.signExtend 64).toNat = target.pattern (Width.i32.number x.toNat) := by
    rw [Width.number_toNat rfl rfl, Width.pattern, hmodulus]
    exact BitVec.toNat_ofInt x.toInt
  have hword : Value.ofNat .i32 x.toNat = .i32 x := (Value.ofWord_eq (k := .i32) x).symm
  have hextended : Value.ofNat .i64 (x.signExtend 64).toNat = .i64 (x.signExtend 64) :=
    (Value.ofWord_eq (k := .i64) _).symm
  rw [← hnumber, hword, hextended]
  rfl

end Wasm.Conversion

namespace Width

variable {source target : Width} {p : Nat}

/-- **The number of values** is divided by the powers of two up to its bits. -/
theorem pow_dvd_modulus {w : Width} {b : Nat} (h : b ≤ w.bits) : Nat.pow 2 b ∣ w.modulus := by
  rw [modulus_eq]
  exact Nat.pow_dvd_pow 2 h

/-- **The pattern of what a pattern stands for** is what is left of it, if the target has no more bits or the
source no sign. -/
theorem pattern_number (h : source.signed = false ∨ target.bits ≤ source.bits) :
    target.pattern (source.number p) = p % target.modulus := by
  refine (mod_eq_pattern ?_).symm
  obtain hsigned | hbits := h
  · rw [number_of_unsigned hsigned]
  · have hdvd : target.modulus ∣ source.modulus := target.modulus_eq ▸ pow_dvd_modulus hbits
    exact ((source.number_modEq p).of_dvd (Int.natCast_dvd_natCast.2 hdvd)).symm

/-- **At no fewer bits** nothing is cut from a pattern. -/
theorem mod_of_bits_le (hp : p < source.modulus) (h : source.bits ≤ target.bits) : p % target.modulus = p := by
  have hdvd : source.modulus ∣ target.modulus := source.modulus_eq ▸ pow_dvd_modulus h
  exact Nat.mod_eq_of_lt (Nat.lt_of_lt_of_le hp (Nat.le_of_dvd target.modulus_pos hdvd))

/-- **What the code of a cast leaves** of a pattern on top of the words. -/
theorem Casts.onWords {code : Code} (h : Casts source target code) (htarget : target ≠ .bool)
    (hp : p < source.modulus) (ws : List Value) :
    code.onWords (.ofNat source.kind p :: ws) =
      .ok (.ofNat target.kind (target.pattern (source.number p)) :: ws) := by
  cases h with
  | same hbits =>
    rw [pattern_number (.inr hbits.ge), mod_of_bits_le hp hbits.le, kind_eq_of_bits_eq hbits]
    rfl
  | low hs ht =>
    have hbits : target.bits ≤ source.bits := by
      rw [bits_of_wide hs]
      cases target <;> decide
    rw [pattern_number (.inr hbits), hs]
    show (Conversion.wrap.apply (.ofNat .i64 p)).map (· :: ws) >>= Code.onWords target.mask = _
    rw [Conversion.apply_wrap, ← ht]
    exact onWords_mask htarget p ws
  | zeros hs ht hsigned =>
    have hbits : source.bits ≤ target.bits := by
      rw [bits_of_wide ht]
      cases source <;> decide
    have hword : p < Kind.i32.modulus := hs ▸ Nat.lt_of_lt_of_le hp source.modulus_le_kind_modulus
    rw [pattern_number (.inl hsigned), mod_of_bits_le hp hbits, hs, ht]
    show (Conversion.extendU.apply (.ofNat .i32 p)).map (· :: ws) >>= Code.onWords [] = _
    rw [Conversion.apply_extendU hword]
    rfl
  | sign ht =>
    show (Conversion.extendS.apply (.ofNat .i32 p)).map (· :: ws) >>= Code.onWords [] = _
    rw [Conversion.apply_extendS ht hp, ht]
    rfl
  | wider hs ht hsigned hlt =>
    rw [pattern_number (.inl hsigned), mod_of_bits_le hp hlt.le, hs, ht]
    rfl
  | cut hs ht hsigned =>
    rw [pattern_number (.inl hsigned), hs, ← ht]
    exact onWords_mask htarget p ws

/-! ## Casts in turn -/

/-- Code that casts to each of some widths in turn. -/
def castThrough (source : Width) : List Width → Except Fault Code
  | [] => .ok []
  | next :: others => do
    let first ← source.castTo next
    let rest ← next.castThrough others
    return first ++ rest

section Runs

variable {spaces : IndexSpaces} (inst : Instance spaces) (fuel : Nat) {m : Machine} {rest : List Value}

/-- **A cast replaces a pattern** by that of the same integer at its target. -/
theorem exec_castTo {code : Code} (h : source.castTo target = .ok code) (hp : p < source.modulus)
    (hm : m.stack = .ofNat source.kind p :: rest) :
    Code.exec inst fuel code m =
      .next { m with stack := .ofNat target.kind (target.pattern (source.number p)) :: rest } := by
  obtain ⟨-, htarget, hcasts⟩ := casts_of_castTo h
  have hwords := hcasts.onWords htarget hp rest
  rw [← hm] at hwords
  rw [Code.exec_onWords inst fuel (by simp [hwords]), hwords]
  rfl

/-- **Casts in turn** leave a pattern of the last width.  It is congruent to the first one modulo the power of
any number of bits that every width on the way has. -/
theorem exec_castThrough {others : List Width} {code : Code} (h : source.castThrough others = .ok code)
    (hp : p < source.modulus) (hm : m.stack = .ofNat source.kind p :: rest) :
    ∃ q < (others.getLastD source).modulus,
      Code.exec inst fuel code m = .next { m with stack := .ofNat (others.getLastD source).kind q :: rest } ∧
      ∀ b ≤ source.bits, (∀ w ∈ others, b ≤ w.bits) → (q : Int) ≡ p [ZMOD (Nat.pow 2 b : Nat)] := by
  induction others generalizing source p m code with
  | nil =>
    cases h
    refine ⟨p, hp, ?_, fun b _ _ => Int.ModEq.refl _⟩
    rw [List.getLastD_nil, ← hm]
    rfl
  | cons next others ih =>
    obtain ⟨first, hfirst, h⟩ := ok_of_bind h
    obtain ⟨others', hothers, h⟩ := ok_of_bind h
    cases h
    have hnext := exec_castTo inst fuel hfirst hp hm
    obtain ⟨q, hq, hrun, hcongr⟩ := ih (m := { m with stack := _ :: rest }) hothers
      (next.pattern_lt (source.number p)) rfl
    rw [List.getLastD_cons]
    refine ⟨q, hq, ?_, fun b hb hall => ?_⟩
    · rw [Code.exec_append, hnext]
      exact hrun
    · -- the pattern at the next width is between the first one and the last one
      obtain ⟨hnext, hothers⟩ := List.forall_mem_cons.1 hall
      have hlast := hcongr b hnext hothers
      have hpattern := (next.pattern_modEq (source.number p)).of_dvd
        (Int.natCast_dvd_natCast.2 (pow_dvd_modulus hnext))
      have hnumber := (source.number_modEq p).of_dvd (Int.natCast_dvd_natCast.2 (pow_dvd_modulus hb))
      exact (hlast.trans hpattern).trans hnumber

/-- **Casts are integer conversion.**  The code of a cast, run on a pattern of its source, replaces it by the
pattern at its target of the integer that it stands for, and changes nothing else.  Casts in turn that start
at a width, pass through widths with no fewer bits and end where they started change nothing at all. -/
theorem exec_conversion (hp : p < source.modulus) (hm : m.stack = .ofNat source.kind p :: rest) :
    (∀ (target : Width) (code : Code), source.castTo target = .ok code →
      Code.exec inst fuel code m =
        .next { m with stack := .ofNat target.kind (target.pattern (source.number p)) :: rest }) ∧
    (∀ (via : List Width) (code : Code), source.castThrough (via ++ [source]) = .ok code →
      (∀ w ∈ via, source.bits ≤ w.bits) → Code.exec inst fuel code m = .next m) := by
  refine ⟨fun target code h => exec_castTo inst fuel h hp hm, fun via code h hvia => ?_⟩
  obtain ⟨q, hq, hrun, hcongr⟩ := exec_castThrough inst fuel h hp hm
  have hmod := hcongr source.bits (Nat.le_refl _)
    (List.forall_mem_append.2 ⟨hvia, List.forall_mem_singleton.2 (Nat.le_refl _)⟩)
  rw [List.getLastD_concat] at hq hrun
  have heq : q = p := by
    rw [← source.modulus_eq] at hmod
    exact Nat.ModEq.eq_of_lt_of_lt (Int.natCast_modEq_iff.1 hmod) hq hp
  rw [hrun, heq, ← hm]

end Runs

end Width

namespace Tally

/-- The pattern of `-2` at 32 bits becomes that at 64 bits, and comes back from a way over the unsigned
widths, on which it is extended by zeros. -/
theorem exec_conversion_negative :
    (∃ code, Width.i32.castTo .u64 = .ok code ∧
      Code.exec inst 0 code (onStack [.ofNat .i32 0xfffffffe, .i64 5]) =
        .next (onStack [.ofNat .i64 0xfffffffffffffffe, .i64 5])) ∧
    (∃ code, Width.i32.castThrough ([.u32, .nativeUInt, .i64] ++ [.i32]) = .ok code ∧
      code = [.convert .extendU, .convert .wrap] ∧
      Code.exec inst 0 code (onStack [.ofNat .i32 0xfffffffe, .i64 5]) =
        .next (onStack [.ofNat .i32 0xfffffffe, .i64 5])) := by
  have hpattern : 0xfffffffe < Width.i32.modulus := by decide
  obtain ⟨hcast, hback⟩ := Width.exec_conversion inst 0 hpattern
    (m := onStack [.ofNat .i32 0xfffffffe, .i64 5]) rfl
  have hwide : Width.i32.castTo .u64 = .ok _ := rfl
  have hvia : Width.i32.castThrough ([.u32, .nativeUInt, .i64] ++ [.i32]) = .ok _ := rfl
  refine ⟨⟨_, hwide, (hcast _ _ hwide).trans rfl⟩, _, hvia, rfl, hback _ _ hvia ?_⟩
  decide

end Tally

end WasmLowering
