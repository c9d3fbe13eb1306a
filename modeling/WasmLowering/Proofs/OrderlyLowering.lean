/-
# Lowered code is orderly

What lowering emits names only locals, globals and functions that are there, and
branches only where an arm ends, whatever kinds the expression has.

Most pieces of emitted code are straight: plain instructions and calls, one after
the other.  Straight code that has a type is orderly, and what it leaves is told
by what it takes.
-/

import WasmLowering.Proofs.CheckedCode
import WasmLowering.Proofs.ModuleTyping

namespace WasmLowering
namespace Wasm

/-! ## Straight code -/

/-- Whether an instruction holds no other instructions and is no branch. -/
def Instr.isStraight : Instr → Bool
  | .plain _ | .call _ => true
  | .br _ | .cond .. | .loop _ => false

/-- Whether code is straight. -/
def Code.isStraight (code : Code) : Bool := code.all Instr.isStraight

theorem Code.isStraight_append {a b : Code} (ha : a.isStraight = true) (hb : b.isStraight = true) :
    Code.isStraight (a ++ b) = true := by
  rw [Code.isStraight, List.all_append, Bool.and_eq_true]
  exact ⟨ha, hb⟩

variable {spaces : IndexSpaces} {locals : List Kind} {labels : List (List Kind)} {ks ks' ks'' : List Kind}

/-- **What an index finds is in range.** -/
theorem decide_lt_of_getElem? {α : Type} {as : List α} {i : Nat} {a : α} (h : as[i]? = some a) :
    decide (i < as.length) = true :=
  decide_eq_true (List.getElem?_eq_some_iff.1 h).1

/-- **A straight instruction that has a type is orderly.** -/
theorem Instr.isOrderly_of_hasType {i : Instr} (hi : i.isStraight = true)
    (h : Instr.HasType spaces locals labels i ks ks') : i.isOrderly spaces locals = true := by
  cases h with
  | @words _ p _ _ hp =>
    cases p with
    | const | arith | compare | convert | drop => rfl
    | localGet | localSet | localTee | globalGet | load | store => cases hp
  | localGet hk | localSet hk | localTee hk => exact decide_lt_of_getElem? hk
  | globalGet hk => exact decide_lt_of_getElem? hk
  | load ha | store ha =>
    rw [Instr.isOrderly, Plain.isInRange, decide_eq_true ha.align, decide_eq_true ha.offset]
    rfl
  | call ht => exact decide_lt_of_getElem? ht
  | br _ | cond _ _ | loop _ => cases hi

/-- **Straight code that has a type is orderly.** -/
theorem Code.isOrderly_of_hasType {code : Code} (hc : code.isStraight = true)
    (h : Code.HasType spaces locals labels code ks ks') : code.isOrderly spaces locals = true := by
  induction code generalizing ks with
  | nil => rfl
  | cons i is ih =>
    cases h with
    | cons hi his =>
      rw [Code.isStraight, List.all_cons, Bool.and_eq_true] at hc
      rw [Code.isOrderly, Instr.isOrderly_of_hasType hc.1 hi, Bool.true_and]
      exact ih hc.2 his

/-- **Code that looks at words only is straight.** -/
theorem Code.isStraight_of_onKinds : ∀ {code : Code} {ks ks' : List Kind}, code.onKinds ks = some ks' →
    code.isStraight = true
  | [], _, _, _ => rfl
  | .plain _ :: _, _, _, h => by
    obtain ⟨_, -, his⟩ := Option.bind_eq_some_iff.1 h
    rw [Code.isStraight, List.all_cons, Instr.isStraight, Bool.true_and]
    exact Code.isStraight_of_onKinds his
  | .call _ :: _, _, _, h | .br _ :: _, _, _, h | .cond .. :: _, _, _, h | .loop _ :: _, _, _, h => by
    cases h

/-- **Code that looks at words only is orderly.** -/
theorem Code.isOrderly_of_onKinds {code : Code} (h : code.onKinds ks = some ks') :
    code.isOrderly spaces locals = true := by
  have htype : Code.HasType spaces locals [] code (ks ++ []) (ks' ++ []) := .words [] h
  exact Code.isOrderly_of_hasType (Code.isStraight_of_onKinds h) htype

/-- **What a straight instruction leaves is told by what it takes.** -/
theorem Instr.HasType.unique {i : Instr} (hi : i.isStraight = true)
    (h : Instr.HasType spaces locals labels i ks ks') (h' : Instr.HasType spaces locals labels i ks ks'') :
    ks' = ks'' := by
  cases h with
  | words hp =>
    cases h' with
    | words hp' => exact Option.some.inj (hp.symm.trans hp')
    | localGet | localSet | localTee | globalGet | load | store => cases hp
  | localGet hk =>
    cases h' with
    | words hp' => cases hp'
    | localGet hk' => rw [Option.some.inj (hk.symm.trans hk')]
  | globalGet hk =>
    cases h' with
    | words hp' => cases hp'
    | globalGet hk' => rw [Option.some.inj (hk.symm.trans hk')]
  | localSet _ | localTee _ | load _ | store _ =>
    cases h' with
    | words hp' => cases hp'
    | _ => rfl
  | @call _ _ t rest ht =>
    generalize htakes : t.params.reverse ++ rest = takes at h'
    cases h' with
    | call ht' =>
      obtain rfl := Option.some.inj (ht.symm.trans ht')
      rw [List.append_cancel_left htakes]
  | br _ | cond _ _ | loop _ => cases hi

/-- **What straight code leaves is told by what it takes.** -/
theorem Code.HasType.unique {code : Code} (hc : code.isStraight = true)
    (h : Code.HasType spaces locals labels code ks ks') (h' : Code.HasType spaces locals labels code ks ks'') :
    ks' = ks'' := by
  induction code generalizing ks with
  | nil =>
    cases h
    cases h'
    rfl
  | cons i is ih =>
    rw [Code.isStraight, List.all_cons, Bool.and_eq_true] at hc
    cases h with
    | cons hi his =>
      cases h' with
      | cons hi' his' =>
        obtain rfl := hi.unique hc.1 hi'
        exact ih hc.2 his his'

end Wasm

open Wasm Lower

/-! ## Expressions -/

/-- What the code of expressions needs to be there: a place for each variable, registers and slots, and what
the scope has names for. -/
structure Frame.Covers (frame : Frame) (spaces : IndexSpaces) (scope : Scope) (vars : List Kind) (slots : Nat)
    (locals : List Kind) : Prop where
  kinds : frame.Kinds vars slots locals
  vars : frame.args + frame.locals = vars.length
  functions : scope.functions.length ≤ spaces.functions.length
  globals : scope.globals.length ≤ spaces.globals.length
  dataStart : spaces.globals[Layout.dataStartGlobal]? = some .i32

section Expressions

variable {spaces : IndexSpaces} {scope : Scope} {frame : Frame} {vars locals : List Kind} {slots : Nat}

/-- **A variable has a kind,** and its local has the same. -/
theorem Frame.Covers.kind_var (hc : frame.Covers spaces scope vars slots locals) {i j : Nat}
    (hj : frame.localIndex i = .ok j) : ∃ k, vars[i]? = some k ∧ locals[j]? = some k := by
  have hi : i < vars.length := by
    have hcases := Frame.localIndex_eq_ok hj
    have hlength := hc.vars
    omega
  have hk := List.getElem?_eq_getElem hi
  exact ⟨_, hk, hc.kinds.var hk hj⟩

theorem Frame.Covers.isOrderly_get (hc : frame.Covers spaces scope vars slots locals) {i j : Nat}
    (hj : frame.localIndex i = .ok j) : Code.isOrderly spaces locals [.localGet j] = true := by
  obtain ⟨k, -, hk⟩ := hc.kind_var hj
  have htype : Code.HasType spaces locals [] [.localGet j] [] [k] := .single (.localGet hk)
  exact Code.isOrderly_of_hasType rfl htype

theorem Frame.Covers.isOrderly_set (hc : frame.Covers spaces scope vars slots locals) {i j : Nat}
    (hj : frame.localIndex i = .ok j) : Code.isOrderly spaces locals [.localSet j, .unit] = true := by
  obtain ⟨k, -, hk⟩ := hc.kind_var hj
  have htype : Code.HasType spaces locals [] [.localSet j, .unit] [k] [.i32] :=
    .cons (.localSet hk) Instr.hasType_unit
  exact Code.isOrderly_of_hasType rfl htype

theorem Highwater.isOrderly_read : Code.isOrderly spaces locals Highwater.read = true := rfl

theorem Highwater.isOrderly_write (hc : frame.Covers spaces scope vars slots locals) :
    Code.isOrderly spaces locals (Highwater.write frame.registers) = true := by
  have htype : Code.HasType spaces locals [] (Highwater.write frame.registers) [.i32] [] :=
    Highwater.hasType_write hc.kinds
  exact Code.isOrderly_of_hasType rfl htype

theorem Highwater.isOrderly_grow (hc : frame.Covers spaces scope vars slots locals) :
    Code.isOrderly spaces locals (Highwater.grow frame.registers) = true := by
  have htype : Code.HasType spaces locals [] (Highwater.grow frame.registers) [.i32] [] :=
    Highwater.hasType_grow hc.kinds
  exact Code.isOrderly_of_hasType rfl htype

theorem Segment.isOrderly_address (hc : frame.Covers spaces scope vars slots locals) (o : Nat) :
    Code.isOrderly spaces locals (Segment.address o) = true := by
  have htype : Code.HasType spaces locals [] (Segment.address o) [] [.i32] :=
    Segment.hasType_address hc.dataStart o
  exact Code.isOrderly_of_hasType rfl htype

theorem isOrderly_elementAddress (size : Nat) :
    Code.isOrderly spaces locals (elementAddress size) = true := rfl

theorem isOrderly_loadElement {size : Nat} {i : Instr} (h : loadElement size = .ok i) :
    Code.isOrderly spaces locals [i] = true := by
  obtain ⟨op, arg, rfl, -, ho, -, ha⟩ := loadElement_eq_ok h
  have htype : Code.HasType spaces locals [] [.load op arg] [.i32] [op.kind] :=
    .single (.load (.natural ho ha))
  exact Code.isOrderly_of_hasType rfl htype

theorem isOrderly_storeElement {size : Nat} {i : Instr} (h : storeElement size = .ok i) :
    Code.isOrderly spaces locals [i, .unit] = true := by
  obtain ⟨op, arg, rfl, -, ho, -, ha⟩ := storeElement_eq_ok h
  have htype : Code.HasType spaces locals [] [.store op arg, .unit] [op.kind, .i32] [.i32] :=
    .cons (.store (.natural ho ha)) Instr.hasType_unit
  exact Code.isOrderly_of_hasType rfl htype

open Code in
mutual

/-- **The code of an expression is orderly,** whether or not the expression is well kinded. -/
theorem Lowers.isOrderly (hc : frame.Covers spaces scope vars slots locals) :
    ∀ {st st' : LowerState} {e : Expr} {code : Code}, Lowers scope frame st e code st' →
      st.depth ≤ st.slots → st'.slots ≤ slots → code.isOrderly spaces locals = true
  | _, _, _, _, .var hj, _, _ => hc.isOrderly_get hj
  | _, _, _, _, .global hi, _, _ => by
    have hlt := Nat.lt_of_lt_of_le (lastIdx?_lt (Scope.global_eq_ok.1 hi)) hc.globals
    have htype : Code.HasType spaces locals [] [.globalGet _] [] [_] :=
      .single (.globalGet (List.getElem?_eq_getElem hlt))
    exact Code.isOrderly_of_hasType rfl htype
  | _, _, _, _, .literal _, _, _ => rfl
  | _, _, _, _, .string, _, _ => Segment.isOrderly_address hc _
  | _, _, _, _, .binary hl hr ha, hd, hs =>
    isOrderly_append (isOrderly_append (hl.isOrderly hc hd (Nat.le_trans hr.grows.slots hs))
      (hr.isOrderly hc (hl.depth_le_slots hd) hs)) (isOrderly_of_onKinds (Operator.onKinds_lower ha))
  | _, _, _, _, .call (i := i) hi hargs, hd, hs => by
    have hlt := Nat.lt_of_lt_of_le (lastIdx?_lt (Scope.function_eq_ok.1 hi)) hc.functions
    refine isOrderly_append (hargs.isOrderly hc hd hs) ?_
    rw [Code.isOrderly, Instr.isOrderly, decide_eq_true hlt, Bool.true_and]
    cases scope.hasResult i <;> rfl
  | _, _, _, _, .bufCreate hn, hd, hs =>
    isOrderly_append (isOrderly_append (isOrderly_append Highwater.isOrderly_read (hn.isOrderly hc hd hs)) rfl)
      (Highwater.isOrderly_grow hc)
  | _, _, _, _, .bufRead hb hi hload, hd, hs =>
    isOrderly_append (isOrderly_append (isOrderly_append (hb.isOrderly hc hd (Nat.le_trans hi.grows.slots hs))
      (hi.isOrderly hc (hb.depth_le_slots hd) hs)) (isOrderly_elementAddress _)) (isOrderly_loadElement hload)
  | _, _, _, _, .bufWrite hb hi hv hstore, hd, hs => by
    have hs' := Nat.le_trans hv.grows.slots hs
    have hd' := hb.depth_le_slots hd
    exact isOrderly_append (isOrderly_append (isOrderly_append (isOrderly_append
      (hb.isOrderly hc hd (Nat.le_trans hi.grows.slots hs')) (hi.isOrderly hc hd' hs'))
      (isOrderly_elementAddress _)) (hv.isOrderly hc (hi.depth_le_slots hd') hs)) (isOrderly_storeElement hstore)
  | _, _, _, _, .bufSub hb hi, hd, hs =>
    isOrderly_append (isOrderly_append (hb.isOrderly hc hd (Nat.le_trans hi.grows.slots hs))
      (hi.isOrderly hc (hb.depth_le_slots hd) hs)) (isOrderly_elementAddress _)
  | _, _, _, _, .cast he hcast, hd, hs =>
    isOrderly_append (he.isOrderly hc hd hs) (isOrderly_of_onKinds (Width.onKinds_castTo hcast))
  | _, _, _, _, .ifThenElse ht hf _ hg _, hd, hs => by
    have hs' := Nat.le_trans hg.grows.slots hs
    have hd' := ht.depth_le_slots hd
    have hfirst := isArm_of_isOrderly (hf.isOrderly hc hd' hs')
    have hsecond := isArm_of_isOrderly (hg.isOrderly hc (hf.depth_le_slots hd') hs)
    refine isOrderly_append (ht.isOrderly hc hd (Nat.le_trans hf.grows.slots hs')) ?_
    rw [Code.isOrderly, Instr.isOrderly, hfirst, hsecond]
    rfl
  | _, _, _, _, .assign hv hj, hd, hs => isOrderly_append (hv.isOrderly hc hd hs) (hc.isOrderly_set hj)
  | _, _, _, _, .whileLoop ht hb _, hd, hs => by
    have htest := ht.isOrderly hc hd (Nat.le_trans hb.grows.slots hs)
    have hstep : Code.isArm spaces locals (_ ++ [.drop, .br 1]) = true :=
      isArm_append (hb.isOrderly hc (ht.depth_le_slots hd) hs) rfl
    rw [Code.isOrderly, Instr.isOrderly, isOrderly_append htest]
    · rfl
    · rw [Code.isOrderly, Instr.isOrderly, hstep]
      rfl
  | _, _, _, _, .ignore he, hd, hs => isOrderly_append (he.isOrderly hc hd hs) rfl
  | _, _, _, _, .empty, _, _ => rfl
  | _, _, _, _, .last he, hd, hs => he.isOrderly hc hd hs
  | _, _, _, _, .sequence he hes, hd, hs =>
    isOrderly_append (he.isOrderly hc hd (Nat.le_trans hes.grows.slots hs))
      (hes.isOrderly hc (he.depth_le_slots hd) hs)
  | st, _, _, _, .pushFrame, _, hs => by
    have hslot := hc.kinds.slot (Nat.lt_of_lt_of_le (Nat.lt_succ_self st.depth)
      (Nat.le_trans (Nat.le_max_right ..) hs))
    have htype : Code.HasType spaces locals [] [.localSet (frame.slot st.depth), .unit] [.i32] [.i32] :=
      .cons (.localSet hslot) Instr.hasType_unit
    exact isOrderly_append Highwater.isOrderly_read (isOrderly_of_hasType rfl htype)
  | _, _, _, _, .popFrame (d := d) h, hd, hs => by
    rw [h] at hd
    have hslot := hc.kinds.slot (Nat.le_trans hd hs)
    have htype : Code.HasType spaces locals [] [.localGet (frame.slot d)] [] [.i32] := .single (.localGet hslot)
    exact isOrderly_append (isOrderly_append (isOrderly_of_hasType rfl htype) (Highwater.isOrderly_write hc)) rfl

theorem LowersArgs.isOrderly (hc : frame.Covers spaces scope vars slots locals) :
    ∀ {st st' : LowerState} {es : List Expr} {code : Code}, LowersArgs scope frame st es code st' →
      st.depth ≤ st.slots → st'.slots ≤ slots → code.isOrderly spaces locals = true
  | _, _, _, _, .nil, _, _ => rfl
  | _, _, _, _, .cons he hes, hd, hs =>
    isOrderly_append (he.isOrderly hc hd (Nat.le_trans hes.grows.slots hs))
      (hes.isOrderly hc (he.depth_le_slots hd) hs)

end

end Expressions

/-! ## Functions -/

/-- **A record is straight code.** -/
theorem Trace.isStraight_record {fields : List TraceField} {code : Code} (h : record fields = .ok code) :
    code.isStraight = true := by
  have hstores (fields : List TraceField) (position : Nat) :
      (stores position fields).isStraight = true := by
    induction fields generalizing position with
    | nil => rfl
    | cons f fs ih =>
      refine Code.isStraight_append (Code.isStraight_append rfl ?_) (ih _)
      cases f <;> rfl
  unfold record at h
  split at h
  · cases h
    exact Code.isStraight_append (hstores ..) rfl
  · cases h

section Functions

variable {spaces : IndexSpaces} {scope : Scope} {f : Function} {traced : Bool} {seg seg' : Segment} {code : Code}
  {locals : List Kind}

/-- **The record of entry is straight code,** and changes nothing on the stack. -/
theorem Function.entry_straight (hstart : spaces.globals[Layout.dataStartGlobal]? = some .i32)
    (hhook : spaces.functions[Layout.traceHook]? = some ⟨[], []⟩)
    (h : (if traced then Trace.entry f.name (f.args.map Width.kind) else pure []) seg = .ok code seg')
    (labels : List (List Kind)) (ks : List Kind) :
    code.isStraight = true ∧ Code.HasType spaces (f.type.params ++ locals) labels code ks ks := by
  cases traced with
  | false =>
    obtain ⟨rfl, rfl⟩ := pure_eq_ok.1 h
    exact ⟨rfl, .nil⟩
  | true =>
    refine ⟨?_, Trace.hasType_entry hstart hhook h⟩
    obtain ⟨_, _, -, hrecord⟩ := bind_eq_ok.1 h
    exact Trace.isStraight_record (lift_eq_ok.1 hrecord).1

/-- **The record of return is straight code,** and changes nothing on the stack.  Before it the result is
copied to a register. -/
theorem Trace.exit_straight (hstart : spaces.globals[Layout.dataStartGlobal]? = some .i32)
    (hhook : spaces.functions[Layout.traceHook]? = some ⟨[], []⟩) {result : Option Kind} {r : Registers}
    (hr : ∀ k, locals[r.forKind k]? = some k) (h : Trace.exit result r seg = .ok code seg') :
    ∃ record, code = (result.map r.tee).toList ++ record ∧ record.isStraight = true ∧
      ∀ (labels : List (List Kind)) (ks : List Kind), Code.HasType spaces locals labels record ks ks := by
  obtain ⟨offset, _, -, h⟩ := bind_eq_ok.1 h
  obtain ⟨record, _, hrecord, h⟩ := bind_eq_ok.1 h
  obtain ⟨rfl, -⟩ := pure_eq_ok.1 h
  obtain ⟨hrecord, -⟩ := lift_eq_ok.1 hrecord
  have hreadable : ∀ f ∈ Trace.exitFields offset result r, f.Readable locals := by
    intro f hf
    rcases List.mem_cons.1 hf with rfl | hf
    · trivial
    · rcases List.mem_cons.1 hf with rfl | hf
      · trivial
      · obtain ⟨k, -, rfl⟩ := Option.map_eq_some_iff.1 (Option.mem_toList.1 hf)
        exact hr k
  exact ⟨record, rfl, Trace.isStraight_record hrecord, fun _ _ =>
    Trace.hasType_record hstart hhook hrecord hreadable⟩

/-- **The locals of a function cover what its code needs.** -/
theorem Function.covers (hfit : spaces.Fit scope) (hfunctions : scope.functions.length ≤ spaces.functions.length)
    (hglobals : scope.globals.length ≤ spaces.globals.length) (slots : Nat) :
    f.frame.Covers spaces scope ((f.args ++ f.locals).map Width.kind) slots
      (f.type.params ++ f.localKinds slots) where
  kinds := f.kinds_locals slots
  vars := by
    rw [List.length_map, List.length_append]
    rfl
  functions := hfunctions
  globals := hglobals
  dataStart := hfit.dataStart

/-- **The code of a function is orderly.** -/
theorem Function.isOrderly_lower (hfit : spaces.Fit scope)
    (hfunctions : scope.functions.length ≤ spaces.functions.length)
    (hglobals : scope.globals.length ≤ spaces.globals.length)
    (hhook : spaces.functions[Layout.traceHook]? = some ⟨[], []⟩) {body : FuncBody}
    (h : f.lower scope traced seg = .ok body seg') :
    body.code.isOrderly spaces (f.type.params ++ body.locals) = true := by
  obtain ⟨-, entry, mid, code, st, exit, hentry, hlower, -, hexit, rfl⟩ := lower_eq_ok h
  have hc := covers (f := f) hfit hfunctions hglobals st.slots
  obtain ⟨hstraight, htype⟩ := entry_straight hfit.dataStart hhook hentry [] []
  have hcode := (Lowers.of_lower hlower).isOrderly hc (Nat.le_refl 0) (Nat.le_refl _)
  have hreturn : exit.isOrderly spaces (f.type.params ++ f.localKinds st.slots) = true := by
    split at hexit
    · obtain ⟨record, rfl, hstraight', htype'⟩ :=
        Trace.exit_straight hfit.dataStart hhook hc.kinds.register hexit
      refine Code.isOrderly_append ?_ (Code.isOrderly_of_hasType hstraight' (htype' [] []))
      cases f.resultKind with
      | none => rfl
      | some k =>
        have htee : Code.HasType spaces (f.type.params ++ f.localKinds st.slots) []
            [.localTee (f.frame.registers.forKind k)] [k] [k] := .single (.localTee (hc.kinds.register k))
        exact Code.isOrderly_of_hasType rfl htee
    · obtain ⟨rfl, -⟩ := pure_eq_ok.1 hexit
      rfl
  refine Code.isOrderly_append (Code.isOrderly_append (Code.isOrderly_append
    (Code.isOrderly_of_hasType hstraight htype) hcode) hreturn) ?_
  split <;> rfl

end Functions

end WasmLowering
