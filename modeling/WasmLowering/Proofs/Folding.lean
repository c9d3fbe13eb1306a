/-
# Constants fold to what their code leaves

A constant expression has two readings.  As the initializer of a global it is
folded to a word, and in the body of a function it is lowered to code.  The two
compute apart from each other, and agree:

| constant            | folded                       | code                                 |
|---------------------|------------------------------|--------------------------------------|
| literal             | its word                     | pushes its word                      |
| operator, 64 bits   | the result                   | one instruction                      |
| operator, 32 bits   | the result, cut if narrow    | one instruction, and a cut if narrow |
| operator on `bool`  | the result, not cut          | none                                 |

Operands are read as words, whatever their widths, and shifts count modulo the
size of the word in both.  So code leaves the folded word wherever there is code,
and only an operator on truth values keeps a constant from having any: those that
fold have no code there, and those that have code there do not fold.
-/

import WasmLowering.Proofs.Constants
import WasmLowering.Proofs.Preservation

namespace WasmLowering

open Wasm

/-- Whether no operator of a constant is on truth values. -/
def Expr.isBoolFree : Expr → Bool
  | .binary _ w lhs rhs => w ≠ .bool && lhs.isBoolFree && rhs.isBoolFree
  | _ => true

/-! ## Operators -/

/-- **The cut of a word** is what the code of the cut leaves of it. -/
theorem Width.onWords_cut (w : Width) (z : BitVec 32) (ws : List Value) :
    w.mask.onWords (.i32 z :: ws) = .ok (.i32 (Initializer.cut w z) :: ws) := by
  unfold mask Initializer.cut
  split <;> rfl

namespace Operator

variable {op : Operator} {w : Width}

/-- **An operator that folds has an instruction** at every width of integers, which computes the same. -/
theorem lower_of_compute? {n : Nat} {x y z : BitVec n} (hw : w ≠ .bool)
    (hz : Initializer.compute? op x y = some z) :
    ∃ o, op.lower w = .ok (.arith w.kind o :: w.mask) ∧ o.compute x y = some z := by
  have hlower {o : IntOp} (haware : op.isSignAware = false) (ho : op.arith? w.signed = some o) :
      op.lower w = .ok (.arith w.kind o :: w.mask) := by
    simp [lower, instr, intInstr?, hw, haware, ho, isComparison_of_arith? ho, Except.map]
  cases op <;> cases hz <;> exact ⟨_, hlower rfl rfl, rfl⟩

/-- **An operator that folds has no code on truth values.** -/
theorem ne_bool_of_compute? {n : Nat} {x y z : BitVec n} {code : Code}
    (hz : Initializer.compute? op x y = some z) (h : op.lower w = .ok code) : w ≠ .bool := by
  rintro rfl
  cases op <;> cases hz <;> cases h

/-- **On words of 32 bits** the code of an operator leaves what it folds to. -/
theorem onWords_word {x y z : BitVec 32} {code : Code} (hk : w.kind = .i32)
    (hz : Initializer.compute? op x y = some z) (h : op.lower w = .ok code) :
    code.onWords [.i32 y, .i32 x] = .ok [.i32 (Initializer.cut w z)] := by
  obtain ⟨o, ho, hcompute⟩ := lower_of_compute? (ne_bool_of_compute? hz h) hz
  obtain rfl := Except.ok.inj (h.symm.trans ho)
  rw [hk]
  show ((orTrap (o.compute x y)).map .i32).map (· :: []) >>= Code.onWords w.mask = _
  rw [hcompute]
  exact w.onWords_cut z []

/-- **On words of 64 bits** as well. -/
theorem onWords_wide {x y z : BitVec 64} {code : Code} (hk : w.kind = .i64)
    (hz : Initializer.compute? op x y = some z) (h : op.lower w = .ok code) :
    code.onWords [.i64 y, .i64 x] = .ok [.i64 z] := by
  have hmask : w.mask = [] := if_neg fun hn => by
    rw [Width.kind_of_narrow hn] at hk
    cases hk
  obtain ⟨o, ho, hcompute⟩ := lower_of_compute? (ne_bool_of_compute? hz h) hz
  obtain rfl := Except.ok.inj (h.symm.trans ho)
  rw [hk, hmask]
  show ((orTrap (o.compute x y)).map .i64).map (· :: []) >>= Code.onWords [] = _
  rw [hcompute]
  rfl

end Operator

/-! ## Code of constants -/

section Code

variable {scope : Scope} {frame : Frame} {e : Expr} {v : Value}

/-- **No string or frame comes with a constant.** -/
theorem Folds.state_eq (h : Folds e v) {st st' : LowerState} {code : Code}
    (hl : Lowers scope frame st e code st') : st' = st := by
  induction h generalizing st st' code with
  | literal =>
    cases hl
    rfl
  | word _ _ _ _ ihl ihr | wide _ _ _ _ ihl ihr =>
    cases hl with
    | binary hl hr _ => exact (ihr hr).trans (ihl hl)

variable {spaces : IndexSpaces} (inst : Instance spaces) (fuel : Nat)

/-- **Code of two operands and what replaces them by a word** puts the word on top. -/
theorem Wasm.Code.exec_apply {left right apply : Code} {a b c : Value}
    (hl : ∀ m, Code.exec inst fuel left m = .next { m with stack := a :: m.stack })
    (hr : ∀ m, Code.exec inst fuel right m = .next { m with stack := b :: m.stack })
    (h : apply.onWords [b, a] = .ok [c]) (m : Machine) :
    Code.exec inst fuel (left ++ right ++ apply) m = .next { m with stack := c :: m.stack } := by
  have hstack : b :: a :: m.stack = [b, a] ++ m.stack := rfl
  rw [Code.exec_append, Code.exec_append, hl m]
  show (Code.exec inst fuel right { m with stack := a :: m.stack }).andThen _ = _
  rw [hr]
  exact Code.exec_onWords_append inst fuel hstack h

/-- **The code of a constant** puts its value on top of the words. -/
theorem Folds.exec (h : Folds e v) {st st' : LowerState} {code : Code}
    (hl : Lowers scope frame st e code st') (m : Machine) :
    Code.exec inst fuel code m = .next { m with stack := v :: m.stack } := by
  induction h generalizing st st' code m with
  | literal hv =>
    cases hl with
    | literal hv' =>
      obtain rfl := Except.ok.inj (hv.symm.trans hv')
      rfl
  | word hk _ _ hz ihl ihr =>
    cases hl with
    | binary hl hr ha => exact Code.exec_apply inst fuel (ihl hl) (ihr hr) (Operator.onWords_word hk hz ha) m
  | wide hk _ _ hz ihl ihr =>
    cases hl with
    | binary hl hr ha => exact Code.exec_apply inst fuel (ihl hl) (ihr hr) (Operator.onWords_wide hk hz ha) m

/-- **A constant has code** if no operator in it is on truth values. -/
theorem Folds.lower (h : Folds e v) (hfree : e.isBoolFree = true) (st : LowerState) :
    ∃ code, e.lower scope frame st = .ok code st := by
  induction h with
  | literal hv => exact ⟨_, (Lowers.literal hv).lower⟩
  | word _ _ _ hz ihl ihr | wide _ _ _ hz ihl ihr =>
    simp only [Expr.isBoolFree, Bool.and_eq_true, decide_eq_true_eq] at hfree
    obtain ⟨⟨hw, hlhs⟩, hrhs⟩ := hfree
    obtain ⟨left, hleft⟩ := ihl hlhs
    obtain ⟨right, hright⟩ := ihr hrhs
    obtain ⟨o, hop, -⟩ := Operator.lower_of_compute? hw hz
    exact ⟨_, (Lowers.binary (.of_lower hleft) (.of_lower hright) hop).lower⟩

/-- **A constant with code** has no operator on truth values. -/
theorem Folds.isBoolFree (h : Folds e v) {st st' : LowerState} {code : Code}
    (hl : Lowers scope frame st e code st') : e.isBoolFree = true := by
  induction h generalizing st st' code with
  | literal => rfl
  | word _ _ _ hz ihl ihr | wide _ _ _ hz ihl ihr =>
    cases hl with
    | binary hl hr ha =>
      simp [Expr.isBoolFree, Operator.ne_bool_of_compute? hz ha, ihl hl, ihr hr]

/-- **Folding agrees with running.**  If a constant folds to a word, then in every scope, frame and state of
lowering: whatever code it has puts just that word on top of the words that a machine finds and changes
nothing else, nor does lowering it change its state; and it has code just if no operator in it is on truth
values. -/
theorem Initializer.exec_of_eval (h : Initializer.eval e = .ok v) (scope : Scope) (frame : Frame)
    (st : LowerState) :
    (∀ (code : Code) (st' : LowerState), e.lower scope frame st = .ok code st' →
      st' = st ∧ ∀ (spaces : IndexSpaces) (inst : Instance spaces) (fuel : Nat) (m : Machine),
        Code.exec inst fuel code m = .next { m with stack := v :: m.stack }) ∧
    ((∃ code st', e.lower scope frame st = .ok code st') ↔ e.isBoolFree = true) := by
  have hfolds : Folds e v := .of_eval h
  refine ⟨fun code st' hl => ?_, ?_, fun hfree => ?_⟩
  · have hlowers : Lowers scope frame st e code st' := .of_lower hl
    exact ⟨hfolds.state_eq hlowers, fun spaces inst fuel m => hfolds.exec inst fuel hlowers m⟩
  · rintro ⟨code, st', hl⟩
    exact hfolds.isBoolFree (.of_lower hl)
  · obtain ⟨code, hl⟩ := hfolds.lower hfree st
    exact ⟨code, st, hl⟩

end Code

namespace Tally

/-- A constant of three widths: three, moved by 36 bits in a word of 32, and minus one at 16 bits, added at
8 bits. -/
def mixed : Expr :=
  .binary .add .u8 (.binary .bShiftL .u32 (.literal .u32 "3") (.literal .u32 "36")) (.literal .i16 "-1")

/-- A sum of truth values, which folds but has no code. -/
def truths : Expr := .binary .add .bool (.literal .u32 "1") (.literal .u32 "1")

/-- The shift counts modulo 32 and gives 48, the operand `-1` is the word 65535, and their sum is cut to 47,
folded and run alike.  The sum of truth values folds to 2. -/
theorem exec_mixed :
    (∃ code, Initializer.eval mixed = .ok (.i32 47) ∧
      mixed.lower scope function.frame (.start .empty) = .ok code (.start .empty) ∧
      Code.exec inst 0 code machine = .next { machine with stack := [.i32 47, .i64 5] }) ∧
    Initializer.eval truths = .ok (.i32 2) ∧
    ¬ ∃ code st', truths.lower scope function.frame (.start .empty) = .ok code st' := by
  have hmixed : Initializer.eval mixed = .ok (.i32 47) := rfl
  have htruths : Initializer.eval truths = .ok (.i32 2) := rfl
  obtain ⟨hexec, hcode⟩ := Initializer.exec_of_eval hmixed scope function.frame (.start .empty)
  obtain ⟨-, hnone⟩ := Initializer.exec_of_eval htruths scope function.frame (.start .empty)
  obtain ⟨code, st', hl⟩ := hcode.2 rfl
  obtain ⟨rfl, hrun⟩ := hexec code st' hl
  refine ⟨⟨code, hmixed, hl, hrun _ inst 0 machine⟩, htruths, fun h => ?_⟩
  cases hnone.1 h

end Tally

end WasmLowering
