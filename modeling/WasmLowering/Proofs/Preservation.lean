/-
# Lowering preserves meaning

The code of every expression that can be lowered does what evaluating the
expression does (`Lowers.implements`), by recursion on how the code came about:
one case per construct, each put together from the pieces of
`WasmLowering.Proofs.Simulation`.

Frame slots are given out by the number of frames that are open in the text of a
function, while a loop runs parts of the text again.  So the condition of a loop
must leave as many frames open as it found (`Expr.steady`); of everything else
lowering itself checks it.
-/

import WasmLowering.Proofs.Simulation

namespace WasmLowering

open Wasm

namespace Implements

variable {spaces : IndexSpaces} {site : Site spaces} {d d₁ d₂ d₃ : Nat}

/-- **A word of kind `i32`** is looked at as a number. -/
theorem word {α : Type} {takes : List Value} {code code' : Code} {x : Eval Value} {f : BitVec 32 → Eval α}
    {L : α → List Value → Prop} (h : Implements site d d₁ takes code x (Word .i32))
    (h' : ∀ w, Implements site d₁ d₂ [.i32 w] code' (f w) L) :
    Implements site d d₂ takes (code ++ code') (x >>= fun v => Eval.word v >>= f) L := by
  refine h.bind ?_
  rintro (w | w) _ ⟨rfl, hk⟩
  · exact h' w
  · cases hk

/-- **The address of an element** is found from its base and its index. -/
theorem element {α : Type} {size : Nat} {base index : Eval Value} {start position code : Code}
    {f : BitVec 32 → Eval α} {L : α → List Value → Prop}
    (hb : Implements site d d₁ [] start base (Word .i32))
    (hi : Implements site d₁ d₂ [] position index (Word .i32))
    (h : ∀ a, Implements site d₂ d₃ [.i32 a] code (f a) L) :
    Implements site d d₃ [] (start ++ position ++ elementAddress size ++ code)
      (base >>= fun b => index >>= fun i => Eval.address size b i >>= f) L := by
  rw [List.append_assoc, List.append_assoc]
  refine hb.bind ?_
  rintro (b | b) _ ⟨rfl, hk⟩
  · refine (hi.below [.i32 b]).bind ?_
    rintro (i | i) _ ⟨_, ⟨rfl, hk⟩, rfl⟩
    · exact afterWords rfl (h _)
    · cases hk
  · cases hk

/-- **A string** stands behind the start of the segment. -/
theorem string {g : Setting spaces} {fuel : Nat} {shape : Shape} {text : String} {o : Nat}
    (hstart : spaces.globals[Layout.dataStartGlobal]? = some .i32)
    (ho : g.segment.offset? text = some o) :
    Implements ⟨g.inst, fuel, shape⟩ d d [] (Segment.address o) ((Expr.string text).eval g fuel)
      (Word .i32) := by
  rw [Expr.eval, ho]
  refine word (global hstart) fun w => ?_
  rw [← List.append_nil [Instr.constI32 o, _]]
  exact afterWords rfl (done ⟨rfl, rfl⟩)

/-- **A new buffer** starts at the mark that was found before its size was. -/
theorem newBuffer {size : Nat} {count : Eval Value} {number : Code}
    (h : Implements site d d₁ [] number count (Word .i32)) :
    Implements site d d₁ []
      (Highwater.read ++ number ++ [.constI32 size, .arith .i32 .mul]
        ++ Highwater.grow site.shape.frame.registers)
      (Eval.mark >>= fun base => count >>= fun n => Eval.word n >>= fun n => Eval.mark >>= fun mark =>
        Eval.setMark (mark + n * BitVec.ofNat 32 size) >>= fun _ => pure (.i32 base)) (Word .i32) := by
  rw [List.append_assoc, List.append_assoc]
  refine mark.bind ?_
  rintro base _ rfl
  refine (h.below [.i32 base]).bind ?_
  rintro (n | n) _ ⟨_, ⟨rfl, hk⟩, rfl⟩
  · refine afterWords rfl ?_
    show Implements site d₁ d₁ [.i32 (n * BitVec.ofNat 32 size), .i32 base]
      (Highwater.read ++ .arith .i32 .add :: Highwater.write _)
      (Eval.mark >>= fun mark => Eval.setMark (mark + n * BitVec.ofNat 32 size) >>= fun _ =>
        pure (.i32 base)) (Word .i32)
    refine (mark.below [.i32 (n * BitVec.ofNat 32 size), .i32 base]).bind ?_
    rintro now _ ⟨_, rfl, rfl⟩
    rw [BitVec.add_comm, ← List.append_nil (Highwater.write _)]
    show Implements site d₁ d₁ [.i32 now, .i32 (n * BitVec.ofNat 32 size), .i32 base]
      ([.arith .i32 .add] ++ (Highwater.write _ ++ [])) _ _
    refine afterWords rfl ?_
    refine ((setMark _).below [.i32 base]).bind ?_
    rintro _ _ ⟨_, rfl, rfl⟩
    exact done ⟨rfl, rfl⟩
  · cases hk

/-- **A call with a result** leaves it. -/
theorem callResult {i : Nat} {t : FuncType} {args : List Value} {k : Kind}
    (ht : spaces.functions[i]? = some t) (hargs : args.map Value.kind = t.params)
    (hk : t.results = [k]) :
    Implements site d d args.reverse (.call i :: []) (Eval.call site.inst i args) (Word k) := by
  show Implements site d d args.reverse ([.call i] ++ []) _ _
  refine (call ht hargs).thenWords ?_
  rintro v _ ⟨results, rfl, rfl, hks⟩
  rw [hk] at hks
  obtain ⟨r, rfl, rfl⟩ := List.map_eq_singleton_iff.1 hks
  exact ⟨[r], rfl, rfl, rfl⟩

/-- **A call without a result** leaves the unit value. -/
theorem callVoid {i : Nat} {t : FuncType} {args : List Value}
    (ht : spaces.functions[i]? = some t) (hargs : args.map Value.kind = t.params)
    (hk : t.results = []) :
    Implements site d d args.reverse (.call i :: [.unit]) (Eval.call site.inst i args) (Word .i32) := by
  show Implements site d d args.reverse ([.call i] ++ [.unit]) _ _
  refine (call ht hargs).thenWords ?_
  rintro v _ ⟨results, rfl, rfl, hks⟩
  rw [hk] at hks
  obtain rfl := List.map_eq_nil_iff.1 hks
  exact ⟨_, rfl, rfl, rfl⟩

end Implements

section Expressions

variable {spaces : IndexSpaces} {g : Setting spaces} {fuel : Nat} {shape : Shape}

open Implements

mutual

/-- **The code of an expression does what the expression means.**  The function has the strings in its
segment and the slots among its locals that lowering asked for. -/
theorem Lowers.implements (hfit : spaces.Fit g.scope) :
    ∀ {st st' : LowerState} {e : Expr} {code : Code} {k : Kind},
      Lowers g.scope shape.frame st e code st' → HasKind spaces g.scope shape.kinds e k →
      e.steady = true → st'.Grows ⟨g.segment, 0, shape.slots⟩ →
      Implements ⟨g.inst, fuel, shape⟩ st.depth st'.depth [] code (e.eval g fuel) (Word k)
  | _, _, _, _, _, .var hj, .var hk, _, _ => by
    rw [Expr.eval]
    exact Implements.var hk hj
  | _, _, _, _, _, .global hi, .global hi' hk, _, _ => by
    rw [Expr.eval, hi]
    obtain rfl := Option.some.inj ((Scope.global_eq_ok.1 hi).symm.trans hi')
    exact Implements.global hk
  | _, _, _, _, _, .literal hv, .literal, _, _ => by
    rw [Expr.eval, hv, ← Literal.kind_of_parse hv, ← List.append_nil [Instr.const _]]
    exact afterWords rfl (done ⟨rfl, rfl⟩)
  | _, _, _, _, _, .string, .string, _, hroom =>
    Implements.string hfit.dataStart (Segment.offset?_of_intern hroom.strings)
  | _, _, _, _, _, .binary hl hr ha, .binary hlk hrk, hs, hroom => by
    rw [Expr.steady, Bool.and_eq_true] at hs
    rw [Expr.eval, ha, List.append_assoc]
    refine (hl.implements hfit hlk hs.1 (hr.grows.trans hroom)).bind ?_
    rintro a _ ⟨rfl, hak⟩
    refine ((hr.implements hfit hrk hs.2 hroom).below [a]).bind ?_
    rintro b _ ⟨_, ⟨rfl, hbk⟩, rfl⟩
    refine Implements.apply ?_
    show Code.onKinds _ [b.kind, a.kind] = _
    rw [hak, hbk]
    exact Operator.onKinds_lower ha
  | _, _, _, _, _, .call hi hargs, .call hi' ht hks hk, hs, hroom => by
    obtain rfl := Option.some.inj ((Scope.function_eq_ok.1 hi).symm.trans hi')
    rw [Expr.steady] at hs
    rw [Expr.eval, hi, hfit.hasResult ht, hk]
    refine (hargs.implements hfit hks hs hroom).bind ?_
    rintro args _ ⟨rfl, hak⟩
    exact callResult ht hak hk
  | _, _, _, _, _, .call hi hargs, .callVoid hi' ht hks hk, hs, hroom => by
    obtain rfl := Option.some.inj ((Scope.function_eq_ok.1 hi).symm.trans hi')
    rw [Expr.steady] at hs
    rw [Expr.eval, hi, hfit.hasResult ht, hk]
    refine (hargs.implements hfit hks hs hroom).bind ?_
    rintro args _ ⟨rfl, hak⟩
    exact callVoid ht hak hk
  | _, _, _, _, _, .bufCreate hc, .bufCreate hck, hs, hroom => by
    rw [Expr.steady] at hs
    rw [Expr.eval]
    exact newBuffer (hc.implements hfit hck hs hroom)
  | _, _, _, _, _, .bufRead hb hi hl, .bufRead hbk hik, hs, hroom => by
    rw [Expr.steady, Bool.and_eq_true] at hs
    rw [Expr.eval]
    obtain ⟨op, arg, rfl, rfl, harg, hk, _⟩ := loadElement_eq_ok hl
    exact element (hb.implements hfit hbk hs.1 (hi.grows.trans hroom))
      (hi.implements hfit hik hs.2 hroom) fun a => Implements.load harg hk a
  | _, _, _, _, _, .bufWrite hb hi hv hst, .bufWrite hbk hik hvk, hs, hroom => by
    rw [Expr.steady, Bool.and_eq_true, Bool.and_eq_true] at hs
    rw [Expr.eval, List.append_assoc]
    obtain ⟨op, arg, rfl, rfl, harg, hk, _⟩ := storeElement_eq_ok hst
    refine element (hb.implements hfit hbk hs.1.1 ((hi.grows.trans hv.grows).trans hroom))
      (hi.implements hfit hik hs.1.2 (hv.grows.trans hroom)) fun a => ?_
    refine ((hv.implements hfit hvk hs.2 hroom).below [.i32 a]).bind ?_
    rintro v _ ⟨_, ⟨rfl, hvk'⟩, rfl⟩
    exact (Implements.store harg (hvk'.trans hk.symm) a).thenUnit
  | _, _, _, _, _, .bufSub hb hi, .bufSub hbk hik, hs, hroom => by
    rw [Expr.steady, Bool.and_eq_true] at hs
    rw [Expr.eval, ← List.append_nil (_ ++ elementAddress _)]
    exact element (hb.implements hfit hbk hs.1 (hi.grows.trans hroom))
      (hi.implements hfit hik hs.2 hroom) fun a => done ⟨rfl, rfl⟩
  | _, _, _, _, _, .cast he hc, .cast hek, hs, hroom => by
    rw [Expr.steady] at hs
    rw [Expr.eval, hc]
    refine (he.implements hfit hek hs hroom).bind ?_
    rintro a _ ⟨rfl, hak⟩
    refine Implements.apply ?_
    show Code.onKinds _ [a.kind] = _
    rw [hak]
    exact Width.onKinds_castTo hc
  | _, _, _, _, _, .ifThenElse hc ht hd hf hd', .ifThenElse hck htk hfk, hs, hroom => by
    rw [Expr.steady, Bool.and_eq_true, Bool.and_eq_true] at hs
    rw [Expr.eval]
    have hx := ht.implements hfit htk hs.1.2 (hf.grows.trans hroom)
    have hy := hf.implements hfit hfk hs.2 hroom
    rw [hd] at hx hy
    rw [hd'] at hy ⊢
    refine word (hc.implements hfit hck hs.1.1 ((ht.grows.trans hf.grows).trans hroom)) fun c => ?_
    exact Implements.cond hx hy
  | _, _, _, _, _, .assign hv hj, .assign hk hvk, hs, hroom => by
    rw [Expr.steady] at hs
    rw [Expr.eval]
    refine (hv.implements hfit hvk hs hroom).bind ?_
    rintro v _ ⟨rfl, rfl⟩
    exact (Implements.assign hk hj).thenUnit
  | _, _, _, _, _, .whileLoop hc hb hd, .whileLoop hck hbk, hs, hroom => by
    rw [Expr.steady, Bool.and_eq_true, Bool.and_eq_true, beq_iff_eq] at hs
    rw [Expr.eval]
    have htest := hc.implements hfit hck hs.1.2 (hb.grows.trans hroom)
    have hstep := hb.implements hfit hbk hs.2 hroom
    have hdepth : _ = _ := hc.depth_eq
    rw [hs.1.1, Int.add_zero, Int.natCast_inj] at hdepth
    rw [hdepth] at htest hstep
    rw [hd] at hstep ⊢
    exact (Implements.loop htest hstep).thenUnit
  | _, _, _, _, _, .ignore he, .ignore hek, hs, hroom => by
    rw [Expr.steady] at hs
    rw [Expr.eval]
    refine (he.implements hfit hek hs hroom).bind ?_
    rintro v _ ⟨rfl, _⟩
    rw [← List.append_nil [Instr.drop, _]]
    exact afterWords rfl (done ⟨rfl, rfl⟩)
  | _, _, _, _, _, .empty, .empty, _, _ => by
    rw [Expr.eval, Expr.evalItems, ← List.append_nil [Instr.unit]]
    exact afterWords rfl (done ⟨rfl, rfl⟩)
  | _, _, _, _, _, .last he, .last hek, hs, hroom => by
    rw [Expr.steady, Expr.allSteady, Bool.and_eq_true] at hs
    rw [Expr.eval, Expr.evalItems]
    exact he.implements hfit hek hs.1 hroom
  | _, _, _, _, _, .sequence he hes, .sequence hek hesk, hs, hroom => by
    rw [Expr.steady, Expr.allSteady, Bool.and_eq_true] at hs
    have hrest := hes.implements hfit hesk (by rw [Expr.steady]; exact hs.2) hroom
    rw [Expr.eval] at hrest
    rw [Expr.eval, Expr.evalItems, ← List.singleton_append]
    · refine (he.implements hfit hek hs.1 (hes.grows.trans hroom)).bind ?_
      rintro v _ ⟨rfl, _⟩
      exact afterWords rfl hrest
    · exact nofun
  | _, _, _, _, _, .pushFrame, .pushFrame, _, hroom => by
    rw [Expr.eval, List.append_cons]
    have hslots := hroom.slots
    exact (Implements.openFrame (Nat.lt_of_lt_of_le (Nat.lt_succ_self _)
      (Nat.le_trans (Nat.le_max_right ..) hslots))).thenUnit
  | _, _, _, _, _, .popFrame hd, .popFrame, _, _ => by
    rw [Expr.eval, hd]
    exact Implements.closeFrame.thenUnit

theorem LowersArgs.implements (hfit : spaces.Fit g.scope) :
    ∀ {st st' : LowerState} {es : List Expr} {code : Code} {ks : List Kind},
      LowersArgs g.scope shape.frame st es code st' → HaveKinds spaces g.scope shape.kinds es ks →
      Expr.allSteady es = true → st'.Grows ⟨g.segment, 0, shape.slots⟩ →
      Implements ⟨g.inst, fuel, shape⟩ st.depth st'.depth [] code (Expr.evalArgs g fuel es) (Words ks)
  | _, _, _, _, _, .nil, .nil, _, _ => by
    rw [Expr.evalArgs]
    exact done ⟨rfl, rfl⟩
  | _, _, _, _, _, .cons he hes, .cons hek hesk, hs, hroom => by
    rw [Expr.allSteady, Bool.and_eq_true] at hs
    rw [Expr.evalArgs, ← List.append_nil (_ ++ _), List.append_assoc]
    refine (he.implements hfit hek hs.1 (hes.grows.trans hroom)).bind ?_
    rintro v _ ⟨rfl, rfl⟩
    refine ((hes.implements hfit hesk hs.2 hroom).below [v]).bind ?_
    rintro vs _ ⟨_, ⟨rfl, rfl⟩, rfl⟩
    exact done ⟨(List.reverse_cons ..).symm, rfl⟩

end

end Expressions

/-- **Lowering preserves meaning.**  Whatever the fuel, the words at hand and the words in the scratch
registers: if the expression has a value, the machine leaves it, of the expression's kind, above the words
that it found, in a state that holds the store that evaluation ends in; if evaluation traps or runs out of
fuel, so does the machine; and no run is ever stuck. -/
theorem Expr.exec_lower {spaces : IndexSpaces} {g : Setting spaces} {shape : Shape} {e : Expr}
    {st st' : LowerState} {code : Code} {k : Kind} {s : Store} {m : Machine}
    (hfit : spaces.Fit g.scope) (hlower : e.lower g.scope shape.frame st = .ok code st')
    (hkind : HasKind spaces g.scope shape.kinds e k) (hsteady : e.steady = true)
    (hroom : st'.Grows ⟨g.segment, 0, shape.slots⟩) (hrel : Related shape st.depth s m) (fuel : Nat) :
    match e.eval g fuel s with
    | .ok (v, s') => ∃ m', Code.exec g.inst fuel code m = .next m' ∧ m'.stack = v :: m.stack ∧
        v.kind = k ∧ Related shape st'.depth s' m'
    | .error cause => Code.exec g.inst fuel code m = .halt cause ∧ cause ≠ .stuck := by
  have hcode : Implements ⟨g.inst, fuel, shape⟩ st.depth st'.depth [] code (e.eval g fuel) (Word k) :=
    (Lowers.of_lower hlower).implements hfit hkind hsteady hroom
  have h := hcode s m m.stack hrel rfl
  generalize e.eval g fuel s = r at h
  generalize Code.exec g.inst fuel code m = o at h
  cases h with
  | halts hc => exact ⟨rfl, hc⟩
  | @goes v s' m' hg =>
    obtain ⟨hr, _, ⟨rfl, hk⟩, hm⟩ := hg
    exact ⟨m', rfl, hm, hk, hr⟩

namespace Tally

/-- What the functions do: the second one counts up. -/
def call : Nat → List Value → Memory → Except Halt (List Value × Memory)
  | 1, [.i32 n], memory => .ok ([.i32 (n + 1)], memory)
  | _, _, _ => .error .trap

def inst : Instance spaces where
  globals := [.i32 128]
  kind_globals := rfl
  call := call
  kind_call := by
    intro i t args results before after ht hcall
    unfold call at hcall
    split at hcall
    · cases ht
      cases hcall
      rfl
    · cases hcall
  call_ne_stuck := by
    intro i args memory
    unfold call
    split <;> exact nofun

def setting : Setting spaces := ⟨scope, .empty, inst⟩

def shape : Shape := ⟨function.frame, [.i32, .i32], 1⟩

/-- A memory in which the mark is `128`. -/
def memory : Memory := ⟨1024, fun a => if a = 0 then 128 else 0⟩

def store : Store := ⟨[.i32 0, .i32 0], [], memory⟩

def machine : Machine := ⟨[.i32 0, .i32 7, .i32 8, .i64 9, .i32 0, .i32 6], memory, [.i64 5]⟩

theorem related : Related shape 0 store machine where
  memory := rfl
  kinds := rfl
  locals := rfl
  var {i j v} hv hj := by
    match i with
    | 0 => cases hj; exact hv
    | 1 => cases hj; exact hv
    | _ + 2 => cases hv
  depth := rfl
  mark hw := nomatch hw

end Tally

theorem Tally.exec_body : ∃ code st', Tally.function.body.lower Tally.setting.scope Tally.shape.frame
    (.start .empty) = .ok code st' ∧
    ∃ m', Code.exec Tally.inst 4 code Tally.machine = .next m' ∧ m'.stack = [.i32 3, .i64 5] := by
  have hlower : Tally.function.body.lower Tally.setting.scope Tally.shape.frame (.start .empty) = .ok _ _ := rfl
  have heval : ∃ s', Tally.function.body.eval Tally.setting 4 Tally.store = .ok (.i32 3, s') := ⟨_, rfl⟩
  obtain ⟨s', heval⟩ := heval
  have h := Expr.exec_lower Tally.fit hlower (Tally.hasKind (i := 1) rfl rfl) rfl
    ⟨List.prefix_refl _, Nat.le_refl _⟩ Tally.related 4
  rw [heval] at h
  obtain ⟨m', hexec, hm, _⟩ := h
  exact ⟨_, _, hlower, m', hexec, hm⟩

end WasmLowering
