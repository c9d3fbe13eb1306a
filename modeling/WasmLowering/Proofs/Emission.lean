/-
# Where the address of a literal is emitted

An expression is lowered part by part, in order and over one state, and the code
of each part stands somewhere within the code of the whole (`Lowers.each`):

| within the code of | stands the code of its parts                          |
|--------------------|-------------------------------------------------------|
| a conditional      | in front of the branch, and in either arm             |
| a loop             | in the loop, and in the arm of its test               |
| any other          | one after the other, with code of the construct's own |

So each occurrence of a string literal has a place of its own, where the address
is emitted that interning it gave just then (`Emits`).  Strings never move, so
that the literal has this offset in every segment that grows out of the lowering
(`Emits.offset?_eq`).
-/

import WasmLowering.Proofs.Lowering

namespace WasmLowering

open Wasm

/-- Code that stands within other code, at any depth of blocks. -/
inductive Wasm.Code.Within (part : Code) : Code → Prop
  | self : Within part part
  | left {a b : Code} : Within part a → Within part (a ++ b)
  | right {a b : Code} : Within part b → Within part (a ++ b)
  | whenTrue {result : Option Kind} {first second : Code} :
    Within part first → Within part [.cond result first second]
  | whenFalse {result : Option Kind} {first second : Code} :
    Within part second → Within part [.cond result first second]
  | loop {body : Code} : Within part body → Within part [.loop body]

/-- **What stands within a part stands within the whole.** -/
theorem Wasm.Code.Within.trans {a b c : Code} (hab : a.Within b) (hbc : b.Within c) : a.Within c := by
  induction hbc with
  | self => exact hab
  | left _ ih => exact .left ih
  | right _ ih => exact .right ih
  | whenTrue _ ih => exact .whenTrue ih
  | whenFalse _ ih => exact .whenFalse ih
  | loop _ ih => exact .loop ih

namespace Expr

/-- The expressions that an expression is made of, in the order in which they are lowered. -/
def parts : Expr → List Expr
  | binary _ _ lhs rhs => [lhs, rhs]
  | call _ args => args
  | bufCreate _ count => [count]
  | bufRead _ base index => [base, index]
  | bufWrite _ base index value => [base, index, value]
  | bufSub _ base index => [base, index]
  | cast operand _ _ => [operand]
  | ifThenElse cond whenTrue whenFalse _ => [cond, whenTrue, whenFalse]
  | assign _ value => [value]
  | whileLoop cond body => [cond, body]
  | ignore operand => [operand]
  | sequence items => items
  | _ => []

/-- The string literals of an expression. -/
inductive Mentions (text : String) : Expr → Prop
  | literal : Mentions text (.string text)
  | part {e part : Expr} : part ∈ e.parts → Mentions text part → Mentions text e

end Expr

section Each

variable (scope : Scope) (frame : Frame)

/-- Expressions are lowered one after the other, each to code of its own. -/
inductive LowersEach : LowerState → List Expr → List Code → LowerState → Prop
  | nil {st : LowerState} : LowersEach st [] [] st
  | cons {st st₁ st₂ : LowerState} {e : Expr} {es : List Expr} {code : Code} {codes : List Code} :
    Lowers scope frame st e code st₁ → LowersEach st₁ es codes st₂ →
      LowersEach st (e :: es) (code :: codes) st₂

/-- The address at an offset is emitted for a literal while an expression is lowered. -/
inductive Emits : LowerState → Expr → Code → LowerState → (text : String) → (offset : Nat) → Prop
  | literal {st : LowerState} {text : String} :
    Emits st (.string text) (Segment.address (st.segment.intern text).1) (st.interned text)
      text (st.segment.intern text).1
  | part {st mid mid' st' : LowerState} {e part : Expr} {before after : List Expr} {code partCode : Code}
      {codes codes' : List Code} {text : String} {offset : Nat} :
    e.parts = before ++ part :: after → LowersEach scope frame st before codes mid →
      Lowers scope frame mid part partCode mid' → LowersEach scope frame mid' after codes' st' →
      partCode.Within code → Emits mid part partCode mid' text offset →
      Emits st e code st' text offset

end Each

variable {scope : Scope} {frame : Frame} {st st' : LowerState} {e : Expr} {es : List Expr} {code : Code}
  {codes : List Code} {text : String} {offset : Nat}

namespace LowersEach

theorem single (h : Lowers scope frame st e code st') : LowersEach scope frame st [e] [code] st' :=
  .cons h .nil

/-- **Lowering one after the other only adds strings and slots.** -/
theorem grows (h : LowersEach scope frame st es codes st') : st.Grows st' := by
  induction h with
  | nil => exact .refl _
  | cons hfirst _ ih => exact hfirst.grows.trans ih

/-- **Each of the expressions is lowered in its turn,** and its code is among the codes. -/
theorem split {before after : List Expr} (h : LowersEach scope frame st (before ++ e :: after) codes st') :
    ∃ codes₁ mid code mid' codes₂, LowersEach scope frame st before codes₁ mid ∧
      Lowers scope frame mid e code mid' ∧ LowersEach scope frame mid' after codes₂ st' ∧ code ∈ codes := by
  induction before generalizing st codes with
  | nil =>
    cases h with
    | cons hfirst hrest => exact ⟨[], st, _, _, _, .nil, hfirst, hrest, List.mem_cons_self⟩
  | cons b before ih =>
    cases h with
    | cons hfirst hrest =>
      obtain ⟨codes₁, mid, code, mid', codes₂, hbefore, he, hafter, hcode⟩ := ih hrest
      exact ⟨_, mid, code, mid', codes₂, .cons hfirst hbefore, he, hafter, List.mem_cons_of_mem _ hcode⟩

end LowersEach

/-- **Arguments are lowered one after the other.** -/
theorem LowersArgs.each (h : LowersArgs scope frame st es code st') :
    ∃ codes, LowersEach scope frame st es codes st' ∧ ∀ c ∈ codes, c.Within code := by
  induction es generalizing st code with
  | nil =>
    cases h
    exact ⟨[], .nil, List.forall_mem_nil _⟩
  | cons e es ih =>
    cases h with
    | cons hfirst hrest =>
      obtain ⟨codes, heach, hwithin⟩ := ih hrest
      exact ⟨_, .cons hfirst heach, List.forall_mem_cons.2 ⟨.left .self, fun c hc => .right (hwithin c hc)⟩⟩

/-- **The parts of an expression are lowered one after the other,** to code within that of the expression. -/
theorem Lowers.each : ∀ {st st' : LowerState} {e : Expr} {code : Code}, Lowers scope frame st e code st' →
    e.parts ≠ [] → ∃ codes, LowersEach scope frame st e.parts codes st' ∧ ∀ c ∈ codes, c.Within code
  | _, _, _, _, .binary hl hr _, _ => by
    refine ⟨_, .cons hl (.single hr), List.forall_mem_cons.2 ⟨.left (.left .self), ?_⟩⟩
    exact List.forall_mem_singleton.2 (.left (.right .self))
  | _, _, _, _, .call _ hargs, _ => by
    obtain ⟨codes, heach, hwithin⟩ := hargs.each
    exact ⟨codes, heach, fun c hc => .left (hwithin c hc)⟩
  | _, _, _, _, .bufCreate hcount, _ =>
    ⟨_, .single hcount, List.forall_mem_singleton.2 (.left (.left (.right .self)))⟩
  | _, _, _, _, .bufRead hbase hindex _, _ => by
    refine ⟨_, .cons hbase (.single hindex), List.forall_mem_cons.2 ⟨.left (.left (.left .self)), ?_⟩⟩
    exact List.forall_mem_singleton.2 (.left (.left (.right .self)))
  | _, _, _, _, .bufWrite hbase hindex hvalue _, _ => by
    refine ⟨_, .cons hbase (.cons hindex (.single hvalue)), ?_⟩
    refine List.forall_mem_cons.2 ⟨.left (.left (.left (.left .self))), ?_⟩
    refine List.forall_mem_cons.2 ⟨.left (.left (.left (.right .self))), ?_⟩
    exact List.forall_mem_singleton.2 (.left (.right .self))
  | _, _, _, _, .bufSub hbase hindex, _ => by
    refine ⟨_, .cons hbase (.single hindex), List.forall_mem_cons.2 ⟨.left (.left .self), ?_⟩⟩
    exact List.forall_mem_singleton.2 (.left (.right .self))
  | _, _, _, _, .cast hoperand _, _ => ⟨_, .single hoperand, List.forall_mem_singleton.2 (.left .self)⟩
  | _, _, _, _, .ifThenElse hcond htrue _ hfalse _, _ => by
    refine ⟨_, .cons hcond (.cons htrue (.single hfalse)), List.forall_mem_cons.2 ⟨.left .self, ?_⟩⟩
    refine List.forall_mem_cons.2 ⟨.right (.whenTrue .self), ?_⟩
    exact List.forall_mem_singleton.2 (.right (.whenFalse .self))
  | _, _, _, _, .assign hvalue _, _ => ⟨_, .single hvalue, List.forall_mem_singleton.2 (.left .self)⟩
  | _, _, _, _, .whileLoop hcond hbody _, _ => by
    have hloop {c body : Code} (h : c.Within body) : c.Within [.loop body, .unit] := .left (b := [.unit]) (.loop h)
    refine ⟨_, .cons hcond (.single hbody), List.forall_mem_cons.2 ⟨hloop (.left .self), ?_⟩⟩
    exact List.forall_mem_singleton.2 (hloop (.right (.whenTrue (.left .self))))
  | _, _, _, _, .ignore hoperand, _ => ⟨_, .single hoperand, List.forall_mem_singleton.2 (.left .self)⟩
  | _, _, _, _, .last h, _ => ⟨_, .single h, List.forall_mem_singleton.2 .self⟩
  | _, _, _, _, .sequence hfirst hrest, _ => by
    obtain ⟨codes, heach, hwithin⟩ := hrest.each (List.cons_ne_nil _ _)
    refine ⟨_, .cons hfirst heach, List.forall_mem_cons.2 ⟨.left .self, fun c hc => .right ?_⟩⟩
    exact .right (a := [.drop]) (hwithin c hc)
  | _, _, _, _, .var _, h | _, _, _, _, .global _, h | _, _, _, _, .literal _, h | _, _, _, _, .string, h
  | _, _, _, _, .empty, h | _, _, _, _, .pushFrame, h | _, _, _, _, .popFrame _, h => absurd rfl h

namespace Emits

/-- **A literal keeps the offset** that is emitted for it, in every segment that grows out of the lowering. -/
theorem offset?_eq (h : Emits scope frame st e code st' text offset) {segment : Segment}
    (hsegment : st'.segment.strings <+: segment.strings) : segment.offset? text = some offset := by
  induction h generalizing segment with
  | literal => exact Segment.offset?_of_intern hsegment
  | part _ _ _ hafter _ _ ih => exact ih (hafter.grows.strings.trans hsegment)

/-- **The address stands within the code.** -/
theorem within (h : Emits scope frame st e code st' text offset) : (Segment.address offset).Within code := by
  induction h with
  | literal => exact .self
  | part _ _ _ _ hwithin _ ih => exact ih.trans hwithin

end Emits

/-- **For every literal of an expression an address is emitted.** -/
theorem Lowers.emits (hmentions : e.Mentions text) (h : Lowers scope frame st e code st') :
    ∃ offset, Emits scope frame st e code st' text offset := by
  induction hmentions generalizing st code st' with
  | literal =>
    cases h
    exact ⟨_, .literal⟩
  | part hpart _ ih =>
    obtain ⟨codes, heach, hwithin⟩ := h.each (List.ne_nil_of_mem hpart)
    obtain ⟨before, after, hparts⟩ := List.append_of_mem hpart
    rw [hparts] at heach
    obtain ⟨_, mid, partCode, mid', _, hbefore, hlowers, hafter, hcode⟩ := heach.split
    obtain ⟨offset, hemits⟩ := ih hlowers
    exact ⟨offset, .part hparts hbefore hlowers hafter (hwithin partCode hcode) hemits⟩

end WasmLowering
