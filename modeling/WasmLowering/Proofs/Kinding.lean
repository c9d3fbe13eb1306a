/-
# Kinds

Code that looks at words only takes words of some kinds and leaves words of
others.  The kinds it leaves can be computed from those it finds
(`Code.onKinds`), and on words of the right kinds it does not get stuck
(`Code.delivers_onWords`).  What operators, casts and literals select is such code.

An expression leaves one word, and its kind can be told without running it: from
the kinds of the variables, the types of the functions and the kinds of the
globals that its names stand for.

| expression                            | operands                      | kind              |
|---------------------------------------|-------------------------------|-------------------|
| variable, global                      |                               | as declared       |
| literal of width `w`                  |                               | of `w`            |
| string                                |                               | `i32`             |
| operator at width `w`                 | both of the kind of `w`       | of `w`            |
| comparison at width `w`               | both of the kind of `w`       | `i32`             |
| call                                  | of the parameters' kinds      | of the result     |
| call without a result                 | of the parameters' kinds      | `i32`             |
| new buffer, address of an element     | `i32`                         | `i32`             |
| element of a buffer                   | `i32`                         | `i64` for 8 bytes |
| cast                                  | of the source width           | of the target     |
| conditional of width `w`              | `i32`, arms of the kind of `w` | of `w`           |
| anything that is run for its effect   |                               | `i32`             |
-/

import WasmLowering.Proofs.Machine
import WasmLowering.Lower.Function

namespace WasmLowering

open Wasm

/-! ## Code -/

namespace Wasm

/-- The kinds, topmost first, after an instruction that looks at words only. -/
def Plain.onKinds : Plain → List Kind → Option (List Kind)
  | const v, ks => some (v.kind :: ks)
  | arith k _, b :: a :: ks => if a = k ∧ b = k then some (k :: ks) else none
  | compare k _, b :: a :: ks => if a = k ∧ b = k then some (.i32 :: ks) else none
  | convert c, a :: ks => if a = c.source then some (c.target :: ks) else none
  | drop, _ :: ks => some ks
  | _, _ => none

/-- The kinds after code that looks at words only. -/
def Code.onKinds : Code → List Kind → Option (List Kind)
  | [], ks => some ks
  | .plain p :: is, ks => p.onKinds ks >>= Code.onKinds is
  | _ :: _, _ => none

/-- **Kinds go through code piece by piece.** -/
theorem Code.onKinds_append :
    ∀ {a b : Code} {ks mid : List Kind}, a.onKinds ks = some mid →
      Code.onKinds (a ++ b) ks = b.onKinds mid
  | [], b, ks, mid, h => by
    cases h
    rfl
  | .plain p :: is, b, ks, mid, h => by
    obtain ⟨ks', hp, his⟩ := Option.bind_eq_some_iff.1 h
    show (p.onKinds ks >>= Code.onKinds (is ++ b)) = _
    rw [hp]
    exact Code.onKinds_append his
  | .call _ :: _, _, _, _, h | .br _ :: _, _, _, _, h | .cond .. :: _, _, _, _, h
  | .loop _ :: _, _, _, _, h => by cases h

/-- What words of the right kinds become: words of some kinds, or a trap. -/
def Delivers (ks : List Kind) (x : Except Halt (List Value)) : Prop :=
  x = .error .trap ∨ ∃ ws, x = .ok ws ∧ ws.map Value.kind = ks

/-- **Arithmetic on words of its kind** traps or leaves a word of its kind. -/
theorem IntOp.delivers_apply (op : IntOp) (a b : Value) (h : a.kind = b.kind) (ws : List Value) :
    Delivers (a.kind :: ws.map Value.kind) ((op.apply a.kind a b).map (· :: ws)) := by
  cases a with
  | i32 a =>
    cases b with
    | i64 b => cases h
    | i32 b =>
      show Delivers _ (((orTrap (op.compute a b)).map _).map _)
      cases op.compute a b with
      | none => exact .inl rfl
      | some c => exact .inr ⟨_, rfl, rfl⟩
  | i64 a =>
    cases b with
    | i32 b => cases h
    | i64 b =>
      show Delivers _ (((orTrap (op.compute a b)).map _).map _)
      cases op.compute a b with
      | none => exact .inl rfl
      | some c => exact .inr ⟨_, rfl, rfl⟩

/-- **A comparison of words of its kind** leaves a truth value. -/
theorem IntRel.delivers_apply (rel : IntRel) (a b : Value) (h : a.kind = b.kind) (ws : List Value) :
    Delivers (.i32 :: ws.map Value.kind) ((rel.apply a.kind a b).map (· :: ws)) := by
  cases a <;> cases b <;> first | exact .inr ⟨_, rfl, rfl⟩ | cases h

/-- **A conversion of a word of its source** leaves a word of its target. -/
theorem Conversion.delivers_apply (c : Conversion) (a : Value) (h : a.kind = c.source)
    (ws : List Value) : Delivers (c.target :: ws.map Value.kind) ((c.apply a).map (· :: ws)) := by
  cases c <;> cases a <;> first | exact .inr ⟨_, rfl, rfl⟩ | cases h

/-- **Words of the right kinds are never in the way of an instruction.** -/
theorem Plain.delivers_onWords :
    ∀ {p : Plain} {ws : List Value} {ks : List Kind}, p.onKinds (ws.map Value.kind) = some ks →
      Delivers ks (p.onWords ws)
  | .const v, ws, ks, h => by
    cases h
    exact .inr ⟨_, rfl, rfl⟩
  | .arith k op, b :: a :: ws, ks, h => by
    obtain ⟨⟨rfl, hb⟩, ⟨⟩⟩ := Option.ite_none_right_eq_some.1 h
    exact op.delivers_apply a b hb.symm ws
  | .compare k rel, b :: a :: ws, ks, h => by
    obtain ⟨⟨rfl, hb⟩, ⟨⟩⟩ := Option.ite_none_right_eq_some.1 h
    exact rel.delivers_apply a b hb.symm ws
  | .convert c, a :: ws, ks, h => by
    obtain ⟨ha, ⟨⟩⟩ := Option.ite_none_right_eq_some.1 h
    exact c.delivers_apply a ha ws
  | .drop, _ :: ws, ks, h => by
    cases h
    exact .inr ⟨_, rfl, rfl⟩
  | .arith .., [], _, h | .arith .., [_], _, h | .compare .., [], _, h | .compare .., [_], _, h
  | .convert _, [], _, h | .drop, [], _, h | .localGet _, _, _, h | .localSet _, _, _, h
  | .localTee _, _, _, h | .globalGet _, _, _, h | .load .., _, _, h | .store .., _, _, h => by
    cases h

/-- **Words of the right kinds are never in the way of code.** -/
theorem Code.delivers_onWords :
    ∀ {code : Code} {ws : List Value} {ks : List Kind}, code.onKinds (ws.map Value.kind) = some ks →
      Delivers ks (code.onWords ws)
  | [], ws, ks, h => by
    cases h
    exact .inr ⟨_, rfl, rfl⟩
  | .plain p :: is, ws, ks, h => by
    obtain ⟨mid, hp, his⟩ := Option.bind_eq_some_iff.1 h
    rw [Code.onWords]
    obtain htrap | ⟨ws', hw, rfl⟩ := Plain.delivers_onWords hp
    · rw [htrap]
      exact .inl rfl
    · rw [hw]
      exact Code.delivers_onWords his
  | .call _ :: _, _, _, h | .br _ :: _, _, _, h | .cond .. :: _, _, _, h | .loop _ :: _, _, _, h => by
    cases h

end Wasm

/-- **Cutting a word to a width keeps its kind.** -/
theorem Width.onKinds_mask {w : Width} {k : Kind} (h : w.narrow → k = .i32) :
    w.mask.onKinds [k] = some [k] := by
  unfold mask
  split
  · rename_i hw
    obtain rfl := h hw
    rfl
  · rfl

namespace Operator

/-- **Operators on truth values** work on words of kind `i32`. -/
theorem onKinds_boolInstr? {op : Operator} {i : Instr} (h : op.boolInstr? = some i) :
    Code.onKinds [i] [.i32, .i32] = some [.i32] := by
  cases op <;> cases h <;> rfl

/-- **An arithmetic operator is no comparison.** -/
theorem isComparison_of_arith? {op : Operator} {signed : Bool} {i : IntOp}
    (h : op.arith? signed = some i) : op.isComparison = false := by
  cases op <;> first | rfl | cases h

/-- **An operator with a comparison instruction is a comparison.** -/
theorem isComparison_of_rel? {op : Operator} {signed : Bool} {i : IntRel}
    (h : op.rel? signed = some i) : op.isComparison = true := by
  cases op <;> first | rfl | cases h

/-- The kind that an operator at a width leaves. -/
def resultKind (w : Width) (op : Operator) : Kind := if op.isComparison then .i32 else w.kind

/-- **The instruction of an operator** takes two words of the width's kind. -/
theorem onKinds_instr {op : Operator} {w : Width} {i : Instr} (h : op.instr w = .ok i) :
    Code.onKinds [i] [w.kind, w.kind] = some [op.resultKind w] := by
  unfold instr at h
  split at h
  · rename_i hw
    subst hw
    cases hb : op.boolInstr? with
    | none =>
      rw [hb] at h
      cases h
    | some j =>
      rw [hb] at h
      cases h
      rw [show op.resultKind .bool = .i32 by unfold resultKind; split <;> rfl]
      exact onKinds_boolInstr? hb
  · split at h
    · cases h
    · unfold intInstr? at h
      cases ha : op.arith? w.signed with
      | some a =>
        rw [ha] at h
        cases h
        rw [resultKind, isComparison_of_arith? ha]
        simp [Code.onKinds, Plain.onKinds]
      | none =>
        cases hr : op.rel? w.signed with
        | some r =>
          rw [ha, hr] at h
          cases h
          rw [resultKind, isComparison_of_rel? hr]
          simp [Code.onKinds, Plain.onKinds]
        | none =>
          rw [ha, hr] at h
          cases h

end Operator

/-- **A narrow width has kind `i32`.** -/
theorem Width.kind_of_narrow {w : Width} (h : w.narrow = true) : w.kind = .i32 := by
  cases w <;> first | rfl | cases h

/-- **A width of kind `i64` fills its word.** -/
theorem Width.bits_of_wide {w : Width} (h : w.kind = .i64) : w.bits = 64 := by
  cases w <;> first | rfl | cases h

/-- **The bits of a width tell its kind.** -/
theorem Width.kind_eq_of_bits_eq {v w : Width} (h : v.bits = w.bits) : v.kind = w.kind := by
  cases v <;> cases w <;> first | rfl | cases h

/-- **The code of an operator** takes two words of the width's kind and leaves its result. -/
theorem Operator.onKinds_lower {op : Operator} {w : Width} {code : Code}
    (h : op.lower w = .ok code) : code.onKinds [w.kind, w.kind] = some [op.resultKind w] := by
  unfold lower at h
  cases hi : op.instr w with
  | error e =>
    rw [hi] at h
    cases h
  | ok i =>
    rw [hi] at h
    cases h
    have hk := onKinds_instr hi
    split
    · exact hk
    · rename_i hc
      show Code.onKinds ([i] ++ w.mask) _ = _
      rw [Code.onKinds_append hk, resultKind, if_neg hc]
      exact w.onKinds_mask Width.kind_of_narrow

/-- The code of a cast, by the widths that it is between. -/
inductive Width.Casts : (source target : Width) → Code → Prop
  /-- Equal bits need no code. -/
  | same {source target : Width} : source.bits = target.bits → Casts source target []
  /-- Of 64 bits the low half is taken, and cut to fewer bits. -/
  | low {source target : Width} :
    source.kind = .i64 → target.kind = .i32 → Casts source target (.convert .wrap :: target.mask)
  /-- Without a sign a word is extended by zeros. -/
  | zeros {source target : Width} :
    source.kind = .i32 → target.kind = .i64 → source.signed = false →
      Casts source target [.convert .extendU]
  /-- Of the signed widths only the one that fills its word is extended. -/
  | sign {target : Width} : target.kind = .i64 → Casts .i32 target [.convert .extendS]
  /-- The bits above a width without a sign are zero already. -/
  | wider {source target : Width} :
    source.kind = .i32 → target.kind = .i32 → source.signed = false → source.bits < target.bits →
      Casts source target []
  | cut {source target : Width} :
    source.kind = .i32 → target.kind = .i32 → source.signed = false → Casts source target target.mask

/-- **A cast that has code** goes by one of the rules, and is between integers. -/
theorem Width.casts_of_castTo {source target : Width} {code : Code} (h : source.castTo target = .ok code) :
    source ≠ .bool ∧ target ≠ .bool ∧ Casts source target code := by
  unfold castTo at h
  split at h
  · cases h
  · rename_i hbool
    obtain ⟨hsource, htarget⟩ := not_or.1 hbool
    refine ⟨hsource, htarget, ?_⟩
    split at h
    · rename_i hbits
      cases h
      exact .same hbits
    · rename_i hbits
      split at h
      · rename_i hs
        have ht : target.kind = .i32 := by
          cases ht : target.kind with
          | i32 => rfl
          | i64 => exact absurd ((bits_of_wide hs).trans (bits_of_wide ht).symm) hbits
        cases h
        exact .low hs ht
      · rename_i hs ht
        split at h
        · rename_i hsigned
          cases h
          exact .zeros hs ht (by simpa using hsigned)
        · split at h
          · rename_i hword
            cases h
            exact hword ▸ .sign ht
          · cases h
      · rename_i hs ht
        split at h
        · cases h
        · rename_i hsigned
          have hsigned : source.signed = false := (Bool.or_eq_false_iff.1 (Bool.eq_false_iff.2 hsigned)).1
          split at h
          · rename_i hlt
            cases h
            exact .wider hs ht hsigned hlt
          · cases h
            exact .cut hs ht hsigned

/-- **The code of a cast** takes a word of the source's kind and leaves one of the target's. -/
theorem Width.onKinds_castTo {source target : Width} {code : Code}
    (h : source.castTo target = .ok code) : code.onKinds [source.kind] = some [target.kind] := by
  obtain ⟨-, -, hcasts⟩ := casts_of_castTo h
  cases hcasts with
  | same hbits =>
    rw [kind_eq_of_bits_eq hbits]
    rfl
  | low hs ht =>
    rw [hs, ht]
    exact onKinds_mask fun _ => rfl
  | zeros hs ht =>
    rw [hs, ht]
    rfl
  | sign ht =>
    rw [ht]
    rfl
  | wider hs ht =>
    rw [hs, ht]
    rfl
  | cut hs ht =>
    rw [hs, ht]
    exact onKinds_mask fun _ => rfl

/-- **A literal is a word of the width's kind.** -/
theorem Literal.kind_of_parse {w : Width} {text : String} {v : Value} (h : parse w text = .ok v) :
    v.kind = w.kind := by
  unfold parse at h
  split at h
  · cases h
  · split at h
    · cases h
    · split at h
      · cases h
        exact kind_word ..
      · cases h

/-- **Elements are read by the load of their size.** -/
theorem loadElement_eq_ok {size : Nat} {i : Instr} (h : loadElement size = .ok i) :
    ∃ op arg, i = .load op arg ∧ op.size = size ∧ arg.offset = 0 ∧ op.kind = elementKind size ∧
      arg.align = op.naturalAlign := by
  unfold loadElement at h
  split at h
  all_goals first | exact ⟨_, _, (Except.ok.inj h).symm, rfl, rfl, rfl, rfl⟩ | cases h

/-- **Elements are written by the store of their size.** -/
theorem storeElement_eq_ok {size : Nat} {i : Instr} (h : storeElement size = .ok i) :
    ∃ op arg, i = .store op arg ∧ op.size = size ∧ arg.offset = 0 ∧ op.kind = elementKind size ∧
      arg.align = op.naturalAlign := by
  unfold storeElement at h
  split at h
  all_goals first | exact ⟨_, _, (Except.ok.inj h).symm, rfl, rfl, rfl, rfl⟩ | cases h

/-- The sizes that elements are read and written in. -/
def elementSizes : List Nat := [1, 2, 4, 8]

/-- **Just the elements of these sizes are read.** -/
theorem exists_loadElement {size : Nat} : (∃ i, loadElement size = .ok i) ↔ size ∈ elementSizes := by
  unfold loadElement elementSizes
  split <;> simp_all

/-- **Just the elements of these sizes are written.** -/
theorem exists_storeElement {size : Nat} : (∃ i, storeElement size = .ok i) ↔ size ∈ elementSizes := by
  unfold storeElement elementSizes
  split <;> simp_all

/-! ## Expressions -/

mutual

/-- An expression leaves a word of a kind. -/
inductive HasKind (spaces : IndexSpaces) (scope : Scope) (vars : List Kind) : Expr → Kind → Prop
  | var {i : Nat} {k : Kind} : vars[i]? = some k → HasKind spaces scope vars (.var i) k
  | global {name : String} {i : Nat} {k : Kind} :
    scope.global? name = some i → spaces.globals[i]? = some k →
      HasKind spaces scope vars (.global name) k
  | literal {w : Width} {text : String} : HasKind spaces scope vars (.literal w text) w.kind
  | string {text : String} : HasKind spaces scope vars (.string text) .i32
  | binary {op : Operator} {w : Width} {lhs rhs : Expr} :
    HasKind spaces scope vars lhs w.kind → HasKind spaces scope vars rhs w.kind →
      HasKind spaces scope vars (.binary op w lhs rhs) (op.resultKind w)
  | call {name : String} {args : List Expr} {i : Nat} {t : FuncType} {k : Kind} :
    scope.function? name = some i → spaces.functions[i]? = some t →
      HaveKinds spaces scope vars args t.params → t.results = [k] →
      HasKind spaces scope vars (.call name args) k
  | callVoid {name : String} {args : List Expr} {i : Nat} {t : FuncType} :
    scope.function? name = some i → spaces.functions[i]? = some t →
      HaveKinds spaces scope vars args t.params → t.results = [] →
      HasKind spaces scope vars (.call name args) .i32
  | bufCreate {size : Nat} {count : Expr} :
    HasKind spaces scope vars count .i32 → HasKind spaces scope vars (.bufCreate size count) .i32
  | bufRead {size : Nat} {base index : Expr} :
    HasKind spaces scope vars base .i32 → HasKind spaces scope vars index .i32 →
      HasKind spaces scope vars (.bufRead size base index) (elementKind size)
  | bufWrite {size : Nat} {base index value : Expr} :
    HasKind spaces scope vars base .i32 → HasKind spaces scope vars index .i32 →
      HasKind spaces scope vars value (elementKind size) →
      HasKind spaces scope vars (.bufWrite size base index value) .i32
  | bufSub {size : Nat} {base index : Expr} :
    HasKind spaces scope vars base .i32 → HasKind spaces scope vars index .i32 →
      HasKind spaces scope vars (.bufSub size base index) .i32
  | cast {operand : Expr} {source target : Width} :
    HasKind spaces scope vars operand source.kind →
      HasKind spaces scope vars (.cast operand source target) target.kind
  | ifThenElse {cond whenTrue whenFalse : Expr} {w : Width} :
    HasKind spaces scope vars cond .i32 → HasKind spaces scope vars whenTrue w.kind →
      HasKind spaces scope vars whenFalse w.kind →
      HasKind spaces scope vars (.ifThenElse cond whenTrue whenFalse w) w.kind
  | assign {i : Nat} {k : Kind} {value : Expr} :
    vars[i]? = some k → HasKind spaces scope vars value k →
      HasKind spaces scope vars (.assign i value) .i32
  | whileLoop {cond body : Expr} {k : Kind} :
    HasKind spaces scope vars cond .i32 → HasKind spaces scope vars body k →
      HasKind spaces scope vars (.whileLoop cond body) .i32
  | ignore {operand : Expr} {k : Kind} :
    HasKind spaces scope vars operand k → HasKind spaces scope vars (.ignore operand) .i32
  | empty : HasKind spaces scope vars (.sequence []) .i32
  | last {e : Expr} {k : Kind} :
    HasKind spaces scope vars e k → HasKind spaces scope vars (.sequence [e]) k
  | sequence {first next : Expr} {rest : List Expr} {j k : Kind} :
    HasKind spaces scope vars first j → HasKind spaces scope vars (.sequence (next :: rest)) k →
      HasKind spaces scope vars (.sequence (first :: next :: rest)) k
  | pushFrame : HasKind spaces scope vars .pushFrame .i32
  | popFrame : HasKind spaces scope vars .popFrame .i32

/-- Expressions leave words of some kinds, one by one. -/
inductive HaveKinds (spaces : IndexSpaces) (scope : Scope) (vars : List Kind) :
    List Expr → List Kind → Prop
  | nil : HaveKinds spaces scope vars [] []
  | cons {e : Expr} {es : List Expr} {k : Kind} {ks : List Kind} :
    HasKind spaces scope vars e k → HaveKinds spaces scope vars es ks →
      HaveKinds spaces scope vars (e :: es) (k :: ks)

end

/-- The index spaces behind a scope: the scope knows which functions have a result, and the first global
holds the address of the string segment. -/
structure Wasm.IndexSpaces.Fit (spaces : IndexSpaces) (scope : Scope) : Prop where
  hasResult {i : Nat} {t : FuncType} :
    spaces.functions[i]? = some t → scope.hasResult i = !t.results.isEmpty
  dataStart : spaces.globals[Layout.dataStartGlobal]? = some .i32

/-- The body of a function leaves its result; the body of a function without one leaves any word. -/
def Function.WellKinded (spaces : IndexSpaces) (scope : Scope) (f : Function) : Prop :=
  ∃ k, HasKind spaces scope ((f.args ++ f.locals).map Width.kind) f.body k ∧
    ∀ r ∈ f.resultKind, r = k

namespace Tally

/-- Counts its argument up to three by calls, keeps it in a new buffer and reads it back behind the
buffer's frame. -/
def function : Function where
  name := "tally"
  isPublic := true
  args := [.u32]
  locals := [.u32]
  results := [.u32]
  body := .sequence [
    .pushFrame,
    .assign 1 (.bufCreate 4 (.literal .u32 "2")),
    .whileLoop (.binary .lt .u32 (.var 0) (.literal .u32 "3")) (.assign 0 (.call "next" [.var 0])),
    .bufWrite 4 (.var 1) (.literal .u32 "1") (.var 0),
    .popFrame,
    .bufRead 4 (.var 1) (.literal .u32 "1")]

def spaces : IndexSpaces := ⟨[⟨[], []⟩, ⟨[.i32], [.i32]⟩], [.i32]⟩

def scope : Scope := ⟨[⟨"debug", false⟩, ⟨"next", true⟩], ["data_start"], 2, 1⟩

theorem fit : spaces.Fit scope where
  hasResult {i t} ht := by
    match i with
    | 0 => cases ht; rfl
    | 1 => cases ht; rfl
    | _ + 2 => cases ht
  dataStart := rfl

/-- **The tally leaves a count** wherever what it calls takes one to the next. -/
theorem hasKind {spaces : IndexSpaces} {scope : Scope} {i : Nat} (hi : scope.function? "next" = some i)
    (ht : spaces.functions[i]? = some ⟨[.i32], [.i32]⟩) :
    HasKind spaces scope [.i32, .i32] function.body .i32 :=
  .sequence .pushFrame <|
  .sequence (.assign (k := .i32) rfl (.bufCreate .literal)) <|
  .sequence (.whileLoop (.binary (.var rfl) .literal)
    (.assign (k := .i32) rfl (.call hi ht (.cons (.var rfl) .nil) rfl))) <|
  .sequence (.bufWrite (.var rfl) .literal (.var rfl)) <|
  .sequence .popFrame <|
  .last (.bufRead (.var rfl) .literal)

theorem wellKinded {spaces : IndexSpaces} {scope : Scope} {i : Nat} (hi : scope.function? "next" = some i)
    (ht : spaces.functions[i]? = some ⟨[.i32], [.i32]⟩) : function.WellKinded spaces scope :=
  ⟨.i32, hasKind hi ht, by rintro _ ⟨⟩; rfl⟩

end Tally

end WasmLowering
