/-
# Width-typed programs

Source expressions are typed by width.  The operands of an operator are at its
width, and so is its result unless it is a comparison; what is assigned, passed,
returned or stored in a global is at the declared width; an element of a buffer
is at a width of its size.

| expression                          | operands               | width               |
|-------------------------------------|------------------------|---------------------|
| variable, global                    |                        | as declared         |
| literal of width `w`                |                        | `w`                 |
| string, new buffer, address         | any                    | 32 bits             |
| operator at width `w`               | both at `w`            | `w`                 |
| comparison at width `w`             | both at `w`            | `bool`              |
| call                                | as declared            | of the result       |
| element of `n` bytes                | any                    | `8 * n` bits        |
| cast                                | at the source width    | the target width    |
| conditional of width `w`            | any, arms at `w`       | `w`                 |
| anything that is run for its effect | assigned as declared   | any                 |

The code of a width-typed expression leaves a word below the bound of its width
(`Lowers.hasBounds`), and the code of a function its results
(`Function.hasBounds_lower`).
-/

import WasmLowering.Proofs.CodeBounds
import WasmLowering.Proofs.CodeTyping

namespace WasmLowering

open Wasm Lower

/-! ## Widths of expressions -/

/-- The width that an operator at a width leaves. -/
def Operator.resultWidth (w : Width) (op : Operator) : Width := if op.isComparison then .bool else w

mutual

/-- An expression is typed by a width, given what is declared and the widths of the variables. -/
inductive HasWidth (decl : Declared) (scope : Scope) (vars : List Width) : Expr → Width → Prop
  | var {i : Nat} {w : Width} : vars[i]? = some w → HasWidth decl scope vars (.var i) w
  | global {name : String} {i : Nat} {w : Width} :
    scope.global? name = some i → decl.globals[i]? = some w → HasWidth decl scope vars (.global name) w
  /-- The address of the segment is a word of 32 bits, signed or not. -/
  | dataStart {name : String} {w : Width} :
    scope.global? name = some Layout.dataStartGlobal → w.bits = 32 →
      HasWidth decl scope vars (.global name) w
  | literal {w : Width} {text : String} : HasWidth decl scope vars (.literal w text) w
  | string {text : String} {w : Width} : w.bits = 32 → HasWidth decl scope vars (.string text) w
  | binary {op : Operator} {w : Width} {lhs rhs : Expr} :
    HasWidth decl scope vars lhs w → HasWidth decl scope vars rhs w →
      HasWidth decl scope vars (.binary op w lhs rhs) (op.resultWidth w)
  | call {name : String} {args : List Expr} {i : Nat} {t : FuncWidths} {w : Width} :
    scope.function? name = some i → decl.functions[i]? = some t →
      HaveWidths decl scope vars args t.params → t.results = [w] →
      HasWidth decl scope vars (.call name args) w
  | callVoid {name : String} {args : List Expr} {i : Nat} {t : FuncWidths} {w : Width} :
    scope.function? name = some i → decl.functions[i]? = some t →
      HaveWidths decl scope vars args t.params → t.results = [] →
      HasWidth decl scope vars (.call name args) w
  | bufCreate {size : Nat} {count : Expr} {wc w : Width} :
    HasWidth decl scope vars count wc → w.bits = 32 → HasWidth decl scope vars (.bufCreate size count) w
  | bufRead {size : Nat} {base index : Expr} {wb wi w : Width} :
    HasWidth decl scope vars base wb → HasWidth decl scope vars index wi → w.bits = 8 * size →
      HasWidth decl scope vars (.bufRead size base index) w
  | bufWrite {size : Nat} {base index value : Expr} {wb wi wv w : Width} :
    HasWidth decl scope vars base wb → HasWidth decl scope vars index wi →
      HasWidth decl scope vars value wv → HasWidth decl scope vars (.bufWrite size base index value) w
  | bufSub {size : Nat} {base index : Expr} {wb wi w : Width} :
    HasWidth decl scope vars base wb → HasWidth decl scope vars index wi → w.bits = 32 →
      HasWidth decl scope vars (.bufSub size base index) w
  | cast {operand : Expr} {source target : Width} :
    HasWidth decl scope vars operand source →
      HasWidth decl scope vars (.cast operand source target) target
  | ifThenElse {cond whenTrue whenFalse : Expr} {wc w : Width} :
    HasWidth decl scope vars cond wc → HasWidth decl scope vars whenTrue w →
      HasWidth decl scope vars whenFalse w →
      HasWidth decl scope vars (.ifThenElse cond whenTrue whenFalse w) w
  | assign {i : Nat} {value : Expr} {wv w : Width} :
    vars[i]? = some wv → HasWidth decl scope vars value wv →
      HasWidth decl scope vars (.assign i value) w
  | whileLoop {cond body : Expr} {wc wb w : Width} :
    HasWidth decl scope vars cond wc → HasWidth decl scope vars body wb →
      HasWidth decl scope vars (.whileLoop cond body) w
  | ignore {operand : Expr} {wo w : Width} :
    HasWidth decl scope vars operand wo → HasWidth decl scope vars (.ignore operand) w
  | empty {w : Width} : HasWidth decl scope vars (.sequence []) w
  | last {e : Expr} {w : Width} : HasWidth decl scope vars e w → HasWidth decl scope vars (.sequence [e]) w
  | sequence {e next : Expr} {es : List Expr} {we w : Width} :
    HasWidth decl scope vars e we → HasWidth decl scope vars (.sequence (next :: es)) w →
      HasWidth decl scope vars (.sequence (e :: next :: es)) w
  | pushFrame {w : Width} : HasWidth decl scope vars .pushFrame w
  | popFrame {w : Width} : HasWidth decl scope vars .popFrame w

/-- The arguments of a call are typed by widths. -/
inductive HaveWidths (decl : Declared) (scope : Scope) (vars : List Width) : List Expr → List Width → Prop
  | nil : HaveWidths decl scope vars [] []
  | cons {e : Expr} {es : List Expr} {w : Width} {ws : List Width} :
    HasWidth decl scope vars e w → HaveWidths decl scope vars es ws →
      HaveWidths decl scope vars (e :: es) (w :: ws)

end

/-- What is declared fits a scope: calls leave a word where a result is declared, the loader's address has
32 bits, and its hook takes and leaves nothing. -/
structure Declared.Fits (decl : Declared) (scope : Scope) : Prop where
  hasResult {i : Nat} {t : FuncWidths} :
    decl.functions[i]? = some t → scope.hasResult i = !t.results.isEmpty
  dataStart : decl.globals[Layout.dataStartGlobal]? = some .u32
  hook : decl.functions[Layout.traceHook]? = some ⟨[], []⟩

/-! ## Bounds of widths -/

namespace Width

/-- **A wider width has the wider bound.** -/
theorem bound_mono {a b : Width} (h : a.bits ≤ b.bits) (v : Value) (hv : v.Below a.bound) :
    v.Below b.bound := by
  unfold bound at hv ⊢
  by_cases hb : b.bits < 32
  · have ha : a.bits < 32 := by omega
    rw [if_pos ha] at hv
    rw [if_pos hb]
    rintro _ ⟨⟩
    have hle : a.modulus ≤ b.modulus := by
      rw [a.modulus_eq, b.modulus_eq]
      exact Nat.pow_le_pow_right (by decide) h
    exact Nat.lt_of_lt_of_le (hv _ rfl) hle
  · rw [if_neg hb]
    exact v.below_none

/-- **A width of 32 bits or more has no bound.** -/
theorem bound_eq_none {w : Width} (h : 32 ≤ w.bits) : w.bound = none :=
  if_neg (Nat.not_lt.2 h)

/-- **A width of kind `i64` has no bound.** -/
theorem bound_of_wide {w : Width} (h : w.kind = .i64) : w.bound = none :=
  bound_eq_none (by rw [bits_of_wide h]; decide)

/-- **The widths that are not cut have no bound.** -/
theorem bound_of_not_narrow {w : Width} (hn : ¬ w.narrow = true) (hw : w ≠ .bool) : w.bound = none := by
  have hbits := bits_eq_kind_bits (Bool.eq_false_iff.2 hn) hw
  refine bound_eq_none ?_
  rw [hbits]
  cases w.kind <;> decide

/-- **A number of a width is below its bound.** -/
theorem below_bound {w : Width} {v : Value} (h : v.toNat < w.modulus) : v.Below w.bound := by
  unfold bound
  split
  · rintro _ ⟨⟩
    exact h
  · exact v.below_none

/-- **The unit value is at every width.** -/
theorem below_unit (w : Width) : Value.unit.Below w.bound := below_bound w.modulus_pos

/-- **The elements of a buffer are at the widths of their size.** -/
theorem bound_eq_load {w : Width} {op : LoadOp} (h : w.bits = 8 * op.size) : op.bound = w.bound := by
  cases op <;> cases w <;> first | rfl | cases h

/-- **The mask of a width is at the width.** -/
theorem below_maskWord {w : Width} (h : w.narrow = true) :
    (Value.i32 (BitVec.ofNat 32 w.maskWord)).Below w.bound := by
  refine below_bound ?_
  cases w <;> cases h <;> decide

end Width

/-- **A literal is a number of its width.** -/
theorem Literal.toNat_lt_of_parse {w : Width} {text : String} {v : Value} (h : parse w text = .ok v) :
    w ≠ .bool ∧ v.toNat < w.modulus := by
  unfold parse at h
  split at h
  · cases h
  · rename_i hw
    refine ⟨hw, ?_⟩
    split at h
    · cases h
    · split at h
      · cases h
        exact toNat_word_lt w _
      · cases h

/-! ## Code of expressions -/

section Pieces

variable {decl : Declared} {locals : Nat → Bound} {labels : List (List Bound)} {bs : List Bound}

/-- **The unit value** can be left at every width. -/
theorem Instr.hasBounds_unit (w : Width) : Code.HasBounds decl locals labels [.unit] bs (w.bound :: bs) :=
  .single (.words (.const w.below_unit))

/-- **A constant** is a word. -/
theorem Instr.hasBounds_const (v : Value) :
    Instr.HasBounds decl locals labels (.const v) bs (none :: bs) :=
  .words (.const v.below_none)

/-- **A local without a bound** takes every word. -/
theorem Instr.hasBounds_localSet {i : Nat} (h : locals i = none) {b : Bound} :
    Instr.HasBounds decl locals labels (.localSet i) (b :: bs) bs :=
  .localSet fun v _ => h ▸ v.below_none

/-- **A word that is cut to a width** is at the width. -/
theorem Width.hasBounds_mask {w : Width} (hw : w ≠ .bool) :
    Code.HasBounds decl locals labels w.mask (none :: bs) (w.bound :: bs) := by
  unfold mask
  by_cases hn : w.narrow = true
  · rw [if_pos hn]
    exact .cons (.words (.const (below_maskWord hn))) (.single (.words .and))
  · rw [if_neg hn, bound_of_not_narrow hn hw]
    exact .nil

/-- **An operator on integers** is arithmetic or a comparison. -/
theorem Operator.intInstr?_eq_some {op : Operator} {w : Width} {i : Instr} (h : op.intInstr? w = some i) :
    (op.isComparison = false ∧ ∃ o, i = .arith w.kind o) ∨
      (op.isComparison = true ∧ ∃ r, i = .compare w.kind r) := by
  unfold intInstr? at h
  rcases Option.or_eq_some_iff.1 h with ha | ⟨-, hr⟩
  · obtain ⟨o, ho, rfl⟩ := Option.map_eq_some_iff.1 ha
    exact .inl ⟨isComparison_of_arith? ho, o, rfl⟩
  · obtain ⟨r, hrel, rfl⟩ := Option.map_eq_some_iff.1 hr
    exact .inr ⟨isComparison_of_rel? hrel, r, rfl⟩

/-- **An operator on numbers of a width leaves one of its result's width.** -/
theorem Operator.hasBounds_lower {op : Operator} {w : Width} {code : Code} (h : op.lower w = .ok code) :
    Code.HasBounds decl locals labels code (w.bound :: w.bound :: bs) ((op.resultWidth w).bound :: bs) := by
  obtain ⟨i, hi, rfl⟩ := ok_of_map h
  unfold instr at hi
  by_cases hw : w = .bool
  · subst hw
    rw [if_pos rfl] at hi
    cases op <;> cases hi
    · exact .single (.words .compare)
    · exact .single (.words .compare)
    · exact .single (.words .and)
    · exact .single (.words (.bit (.inl rfl)))
    · exact .single (.words (.bit (.inr rfl)))
  · rw [if_neg hw] at hi
    split at hi
    · cases hi
    · cases hint : op.intInstr? w with
      | none =>
        rw [hint] at hi
        cases hi
      | some j =>
        rw [hint] at hi
        cases hi
        unfold resultWidth
        rcases intInstr?_eq_some hint with ⟨hop, o, rfl⟩ | ⟨hop, r, rfl⟩
        · rw [hop]
          exact .cons (.words .arith) (Width.hasBounds_mask hw)
        · rw [hop]
          exact .single (.words .compare)

/-- **A cast of a number of its source leaves one of its target.** -/
theorem Width.hasBounds_castTo {source target : Width} {code : Code} (h : source.castTo target = .ok code) :
    Code.HasBounds decl locals labels code (source.bound :: bs) (target.bound :: bs) := by
  obtain ⟨-, htarget, hcasts⟩ := casts_of_castTo h
  cases hcasts with
  | same hbits => exact .weaken (bound_mono (Nat.le_of_eq hbits)) .nil
  | low => exact .cons (.words .convert) (hasBounds_mask htarget)
  | zeros _ ht =>
    rw [bound_of_wide ht]
    exact .single (.words .convert)
  | sign ht =>
    rw [bound_of_wide ht]
    exact .single (.words .convert)
  | wider _ _ _ hlt => exact .weaken (bound_mono (Nat.le_of_lt hlt)) .nil
  | cut => exact .weaken (fun v _ => v.below_none) (hasBounds_mask htarget)

/-- **The address of a string** is a word. -/
theorem Segment.hasBounds_address {scope : Scope} (hfits : decl.Fits scope) (offset : Nat) :
    Code.HasBounds decl locals labels (Segment.address offset) bs (none :: bs) :=
  .cons (.globalGet hfits.dataStart) (.cons (Instr.hasBounds_const _) (.single (.words .arith)))

/-- **The address of an element** is a word. -/
theorem hasBounds_elementAddress (size : Nat) {b c : Bound} :
    Code.HasBounds decl locals labels (elementAddress size) (b :: c :: bs) (none :: bs) :=
  .cons (Instr.hasBounds_const _) (.cons (.words .arith) (.single (.words .arith)))

/-- The scratch registers have no bounds. -/
structure Registers.Free (r : Registers) (locals : Nat → Bound) : Prop where
  register (k : Kind) : locals (r.forKind k) = none
  second : locals r.second = none

namespace Highwater

theorem hasBounds_read : Code.HasBounds decl locals labels Highwater.read bs (none :: bs) :=
  .cons (Instr.hasBounds_const _) (.single .load)

theorem hasBounds_write {r : Registers} (hr : r.Free locals) {b : Bound} :
    Code.HasBounds decl locals labels (Highwater.write r) (b :: bs) bs :=
  .cons (Instr.hasBounds_const _) <| .cons (Instr.hasBounds_localSet (hr.register .i32)) <|
    .cons (Instr.hasBounds_localSet hr.second) <| .cons .localGet <| .cons .localGet <| .single .store

theorem hasBounds_grow {r : Registers} (hr : r.Free locals) {b : Bound} :
    Code.HasBounds decl locals labels (Highwater.grow r) (b :: bs) bs :=
  hasBounds_read.append (.cons (.words .arith) (hasBounds_write hr))

end Highwater

end Pieces

/-! ## Locals -/

/-- The bound of a local: that of the variable in it, if there is one. -/
def Frame.bound (f : Frame) (vars : List Width) (j : Nat) : Bound :=
  if j < f.args then (vars[j]?).elim none Width.bound
  else if j < f.args + scratchKinds.length then none
  else (vars[j - scratchKinds.length]?).elim none Width.bound

namespace Frame

variable {f : Frame} {vars : List Width}

/-- **The local of a variable has the bound of its width.** -/
theorem bound_localIndex {i j : Nat} {w : Width} (hj : f.localIndex i = .ok j) (hw : vars[i]? = some w) :
    f.bound vars j = w.bound := by
  unfold bound
  rcases localIndex_eq_ok hj with ⟨hi, rfl⟩ | ⟨hi, -, rfl⟩
  · rw [if_pos hi, hw, Option.elim_some]
  · have hlength : scratchKinds.length = 3 := rfl
    rw [if_neg (by omega), if_neg (by omega), hlength, Nat.add_sub_cancel, hw, Option.elim_some]

/-- **A scratch register has no bound.** -/
theorem bound_scratch {j : Nat} (h : f.args ≤ j) (h' : j < f.args + scratchKinds.length) :
    f.bound vars j = none := by
  unfold bound
  rw [if_neg (Nat.not_lt.2 h), if_pos h']

theorem free_registers : f.registers.Free (f.bound vars) where
  register
    | .i32 => bound_scratch (Nat.le_refl _) (Nat.lt_add_of_pos_right (by decide))
    | .i64 => bound_scratch (Nat.le_add_right _ 2) (Nat.add_lt_add_left (by decide) _)
  second := bound_scratch (Nat.le_add_right _ 1) (Nat.add_lt_add_left (by decide) _)

/-- **A frame slot has no bound.** -/
theorem bound_slot (hvars : vars.length = f.args + f.locals) (d : Nat) : f.bound vars (f.slot d) = none := by
  have hslot := f.slot_eq d
  have hlength : scratchKinds.length = 3 := rfl
  have hbehind : vars[f.slot d - scratchKinds.length]? = none := List.getElem?_eq_none (by omega)
  unfold bound
  rw [if_neg (by omega), if_neg (by omega), hbehind, Option.elim_none]

end Frame

/-! ## Expressions -/

section Expressions

variable {decl : Declared} {scope : Scope} {frame : Frame} {vars : List Width}

mutual

/-- **The code of an expression leaves one word of its width,** whatever is on the stack. -/
theorem Lowers.hasBounds (hfits : decl.Fits scope) (hvars : vars.length = frame.args + frame.locals) :
    ∀ {st st' : LowerState} {e : Expr} {code : Code} {w : Width},
      Lowers scope frame st e code st' → HasWidth decl scope vars e w →
      ∀ (labels : List (List Bound)) (bs : List Bound),
      Code.HasBounds decl (frame.bound vars) labels code bs (w.bound :: bs)
  | _, _, _, _, _, .var hj, .var hw, _, _ => by
    rw [← Frame.bound_localIndex hj hw]
    exact .single .localGet
  | _, _, _, _, _, .global hi, .global hi' hw, _, _ => by
    obtain rfl := Option.some.inj ((Scope.global_eq_ok.1 hi).symm.trans hi')
    exact .single (.globalGet hw)
  | _, _, _, _, _, .global hi, .dataStart hi' hw, _, _ => by
    obtain rfl := Option.some.inj ((Scope.global_eq_ok.1 hi).symm.trans hi')
    rw [Width.bound_eq_none (Nat.le_of_eq hw.symm)]
    exact .single (.globalGet hfits.dataStart)
  | _, _, _, _, _, .literal hv, .literal, _, _ =>
    .single (.words (.const (Width.below_bound (Literal.toNat_lt_of_parse hv).2)))
  | _, _, _, _, _, .string, .string hw, _, _ => by
    rw [Width.bound_eq_none (Nat.le_of_eq hw.symm)]
    exact Segment.hasBounds_address hfits _
  | _, _, _, _, _, .binary hl hr ha, .binary hlw hrw, labels, bs =>
    ((hl.hasBounds hfits hvars hlw labels bs).append (hr.hasBounds hfits hvars hrw labels _)).append
      (Operator.hasBounds_lower ha)
  | _, _, _, _, w, .call hi hargs, .call hi' ht hws hresults, labels, bs => by
    obtain rfl := Option.some.inj ((Scope.function_eq_ok.1 hi).symm.trans hi')
    have hcall : Instr.HasBounds decl (frame.bound vars) labels (.call _) (_ ++ bs) (_ ++ bs) := .call ht
    rw [hfits.hasResult ht, hresults]
    rw [hresults] at hcall
    exact (hargs.hasBounds hfits hvars hws labels bs).append (.single hcall)
  | _, _, _, _, w, .call hi hargs, .callVoid hi' ht hws hresults, labels, bs => by
    obtain rfl := Option.some.inj ((Scope.function_eq_ok.1 hi).symm.trans hi')
    have hcall : Instr.HasBounds decl (frame.bound vars) labels (.call _) (_ ++ bs) (_ ++ bs) := .call ht
    rw [hfits.hasResult ht, hresults]
    rw [hresults] at hcall
    exact (hargs.hasBounds hfits hvars hws labels bs).append (.cons hcall (Instr.hasBounds_unit w))
  | _, _, _, _, _, .bufCreate hc, .bufCreate hcw hw, labels, bs => by
    rw [Width.bound_eq_none (Nat.le_of_eq hw.symm)]
    exact ((Highwater.hasBounds_read.append (hc.hasBounds hfits hvars hcw labels _)).append
      (.cons (Instr.hasBounds_const _) (.single (.words .arith)))).append
      (Highwater.hasBounds_grow Frame.free_registers)
  | _, _, _, _, _, .bufRead hb hi hload, .bufRead hbw hiw hw, labels, bs => by
    obtain ⟨op, arg, rfl, rfl, -⟩ := loadElement_eq_ok hload
    rw [← Width.bound_eq_load hw]
    exact (((hb.hasBounds hfits hvars hbw labels bs).append
      (hi.hasBounds hfits hvars hiw labels _)).append (hasBounds_elementAddress _)).append (.single .load)
  | _, _, _, _, w, .bufWrite hb hi hv hst, .bufWrite hbw hiw hvw, labels, bs => by
    obtain ⟨op, arg, rfl, -⟩ := storeElement_eq_ok hst
    exact ((((hb.hasBounds hfits hvars hbw labels bs).append
      (hi.hasBounds hfits hvars hiw labels _)).append (hasBounds_elementAddress _)).append
      (hv.hasBounds hfits hvars hvw labels _)).append (.cons .store (Instr.hasBounds_unit w))
  | _, _, _, _, _, .bufSub hb hi, .bufSub hbw hiw hw, labels, bs => by
    rw [Width.bound_eq_none (Nat.le_of_eq hw.symm)]
    exact ((hb.hasBounds hfits hvars hbw labels bs).append
      (hi.hasBounds hfits hvars hiw labels _)).append (hasBounds_elementAddress _)
  | _, _, _, _, _, .cast he hc, .cast hew, labels, bs =>
    (he.hasBounds hfits hvars hew labels bs).append (Width.hasBounds_castTo hc)
  | _, _, _, _, w, .ifThenElse hc ht _ hf _, .ifThenElse hcw htw hfw, labels, bs => by
    have hfirst := ht.hasBounds hfits hvars htw ([w.bound] :: labels) []
    have hsecond := hf.hasBounds hfits hvars hfw ([w.bound] :: labels) []
    exact (hc.hasBounds hfits hvars hcw labels bs).append (.single (.cond rfl hfirst hsecond))
  | _, _, _, _, w, .assign hv hj, .assign hw hvw, labels, bs => by
    refine (hv.hasBounds hfits hvars hvw labels bs).append (.cons (.localSet fun v hv => ?_)
      (Instr.hasBounds_unit w))
    rw [Frame.bound_localIndex hj hw]
    exact hv
  | _, _, _, _, w, .whileLoop hc hb _, .whileLoop hcw hbw, labels, bs => by
    have htest := hc.hasBounds hfits hvars hcw ([] :: labels) []
    have hstep := hb.hasBounds hfits hvars hbw ([] :: [] :: labels) []
    have hbranch : Instr.HasBounds decl (frame.bound vars) ([] :: [] :: labels) (.br 1) ([] ++ []) [] :=
      .br rfl
    have hback := hstep.append (.cons (.words .drop) (.single hbranch))
    have hround (b : Bound) : Instr.HasBounds decl (frame.bound vars) ([] :: labels) (.cond none _ [])
        [b] ([] ++ []) := .cond rfl hback .nil
    exact .cons (.loop (htest.append (.single (hround _)))) (Instr.hasBounds_unit w)
  | _, _, _, _, w, .ignore he, .ignore hew, labels, bs =>
    (he.hasBounds hfits hvars hew labels bs).append (.cons (.words .drop) (Instr.hasBounds_unit w))
  | _, _, _, _, w, .empty, .empty, _, _ => Instr.hasBounds_unit w
  | _, _, _, _, _, .last he, .last hew, labels, bs => he.hasBounds hfits hvars hew labels bs
  | _, _, _, _, _, .sequence he hes, .sequence hew hesw, labels, bs =>
    (he.hasBounds hfits hvars hew labels bs).append
      (.cons (.words .drop) (hes.hasBounds hfits hvars hesw labels bs))
  | _, _, _, _, w, .pushFrame, .pushFrame, _, _ =>
    Highwater.hasBounds_read.append
      (.cons (Instr.hasBounds_localSet (Frame.bound_slot hvars _)) (Instr.hasBounds_unit w))
  | _, _, _, _, w, .popFrame _, .popFrame, _, _ =>
    .cons .localGet ((Highwater.hasBounds_write Frame.free_registers).append (Instr.hasBounds_unit w))

theorem LowersArgs.hasBounds (hfits : decl.Fits scope) (hvars : vars.length = frame.args + frame.locals) :
    ∀ {st st' : LowerState} {es : List Expr} {code : Code} {ws : List Width},
      LowersArgs scope frame st es code st' → HaveWidths decl scope vars es ws →
      ∀ (labels : List (List Bound)) (bs : List Bound),
      Code.HasBounds decl (frame.bound vars) labels code bs ((ws.map Width.bound).reverse ++ bs)
  | _, _, _, _, _, .nil, .nil, _, _ => .nil
  | _, _, _, _, _, .cons he hes, .cons hew hesw, labels, bs => by
    rw [List.map_cons, List.reverse_cons, List.append_assoc]
    exact (he.hasBounds hfits hvars hew labels bs).append (hes.hasBounds hfits hvars hesw labels _)

end

end Expressions

/-! ## Trace records -/

section Traces

variable {decl : Declared} {scope : Scope} {locals : Nat → Bound} {labels : List (List Bound)}
  {bs : List Bound}

theorem TraceField.hasBounds_storeTag {position tag : Nat} :
    Code.HasBounds decl locals labels (storeTag position tag) bs bs :=
  .cons (Instr.hasBounds_const _) <| .cons (Instr.hasBounds_const _) <| .single .store

theorem TraceField.hasBounds_storeWord {position : Nat} {k : Kind} {code : Code} {b : Bound}
    (h : Code.HasBounds decl locals labels code (none :: bs) (b :: none :: bs)) :
    Code.HasBounds decl locals labels (storeWord position k code) bs bs :=
  .cons (Instr.hasBounds_const _) (h.append (.single .store))

theorem TraceField.hasBounds_store (hfits : decl.Fits scope) (f : TraceField) (position : Nat) :
    Code.HasBounds decl locals labels (f.store position) bs bs := by
  refine hasBounds_storeTag.append ?_
  rcases f with offset | ⟨i, k⟩ | _ | _
  · exact hasBounds_storeWord (Segment.hasBounds_address hfits offset)
  · exact hasBounds_storeWord (.single .localGet)
  · exact .nil
  · exact .nil

namespace Trace

/-- **The fields of a record** are written one after the other. -/
theorem hasBounds_stores (hfits : decl.Fits scope) (fields : List TraceField) (position : Nat) :
    Code.HasBounds decl locals labels (Trace.stores position fields) bs bs := by
  induction fields generalizing position with
  | nil => exact TraceField.hasBounds_storeTag
  | cons f fs ih => exact (f.hasBounds_store hfits position).append (ih _)

/-- **A record** is written and the hook is called. -/
theorem hasBounds_record (hfits : decl.Fits scope) {fields : List TraceField} {code : Code}
    (h : Trace.record fields = .ok code) : Code.HasBounds decl locals labels code bs bs := by
  unfold Trace.record at h
  split at h
  · cases h
    exact (hasBounds_stores hfits fields _).append (.single (.call hfits.hook))
  · cases h

/-- **The record of entry** changes nothing on the stack. -/
theorem hasBounds_entry (hfits : decl.Fits scope) {name : String} {args : List Kind} {seg seg' : Segment}
    {code : Code} (h : Trace.entry name args seg = .ok code seg') :
    Code.HasBounds decl locals labels code bs bs := by
  obtain ⟨offset, mid, _, hrecord⟩ := bind_eq_ok.1 h
  exact hasBounds_record hfits (lift_eq_ok.1 hrecord).1

/-- **The record of return** keeps the result on the stack. -/
theorem hasBounds_exit (hfits : decl.Fits scope) {result : Option Kind} {r : Registers}
    (hr : r.Free locals) {seg seg' : Segment} {code : Code} (h : Trace.exit result r seg = .ok code seg')
    (b : Bound) : Code.HasBounds decl locals labels code (b :: bs) (b :: bs) := by
  obtain ⟨offset, mid, _, h⟩ := bind_eq_ok.1 h
  obtain ⟨record, _, hrecord, h⟩ := bind_eq_ok.1 h
  obtain ⟨rfl, rfl⟩ := pure_eq_ok.1 h
  have hcode : Code.HasBounds decl locals labels record (b :: bs) (b :: bs) :=
    hasBounds_record hfits (lift_eq_ok.1 hrecord).1
  rcases result with _ | k
  · exact hcode
  · refine .cons (.localTee fun v _ => ?_) hcode
    rw [hr.register k]
    exact v.below_none

end Trace

end Traces

/-! ## Functions and globals -/

/-- The body of a function is at the width of its result; that of a function without one is at any width. -/
def Function.WidthTyped (decl : Declared) (scope : Scope) (f : Function) : Prop :=
  ∃ w, HasWidth decl scope (f.args ++ f.locals) f.body w ∧ ∀ r ∈ f.results.head?, r = w

/-- The initializer of a global is at the declared width. -/
def Global.WidthTyped (decl : Declared) (scope : Scope) (g : Global) : Prop :=
  HasWidth decl scope [] g.init g.width

/-- The bounds of the locals of a function. -/
def Function.bound (f : Function) : Nat → Bound := f.frame.bound (f.args ++ f.locals)

/-- **The code of a function leaves its results.** -/
theorem Function.hasBounds_lower {decl : Declared} {scope : Scope} {traced : Bool} {f : Function}
    {seg seg' : Segment} {body : FuncBody} (hfits : decl.Fits scope) (hf : f.WidthTyped decl scope)
    (h : f.lower scope traced seg = .ok body seg') (labels : List (List Bound)) :
    Code.HasBounds decl f.bound labels body.code [] (f.results.map Width.bound).reverse := by
  obtain ⟨hresults, entry, mid, code, st, exit, hentry, hlower, hdepth, hexit, rfl⟩ := lower_eq_ok h
  obtain ⟨w, hw, hr⟩ := hf
  have hvars : (f.args ++ f.locals).length = f.frame.args + f.frame.locals := List.length_append
  have hbody := (Lowers.of_lower hlower).hasBounds hfits hvars hw labels []
  have hbefore : Code.HasBounds decl f.bound labels entry [] [] := by
    split at hentry
    · exact Trace.hasBounds_entry hfits hentry
    · cases hentry
      exact .nil
  have hafter : Code.HasBounds decl f.bound labels exit [w.bound] [w.bound] := by
    split at hexit
    · exact Trace.hasBounds_exit hfits Frame.free_registers hexit w.bound
    · cases hexit
      exact .nil
  refine ((hbefore.append hbody).append hafter).append ?_
  -- the word of the body is the result, or is dropped
  show Code.HasBounds _ _ _ (if f.resultKind.isNone then [.drop] else []) [w.bound] _
  unfold resultKind
  match f.results, hresults, hr with
  | [], _, _ => exact .single (.words .drop)
  | [r], _, hr =>
    obtain rfl := hr r rfl
    exact .nil
  | _ :: _ :: _, hlen, _ => exact absurd hlen (by simp)

end WasmLowering
