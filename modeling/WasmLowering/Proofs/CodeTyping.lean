/-
# Types of code

The typing rules of structured code: an instruction takes words of some kinds
from the stack and leaves others, the topmost kind first.  A branch to a label
takes along the words of the label, and what follows it is never run, so it may
leave anything.

| instruction   | takes                | leaves             | needs                       |
|---------------|----------------------|--------------------|-----------------------------|
| on words      | as `Plain.onKinds`   | as `Plain.onKinds` |                             |
| `localGet i`  |                      | `k`                | local `i` is of kind `k`    |
| `localSet i`  | `k`                  |                    | local `i` is of kind `k`    |
| `localTee i`  | `k`                  | `k`                | local `i` is of kind `k`    |
| `globalGet i` |                      | `k`                | global `i` is of kind `k`   |
| `load op`     | `i32`                | the kind of `op`   | natural alignment at most   |
| `store op`    | the kind of `op`, `i32` |                 | natural alignment at most   |
| `call i`      | parameters, reversed | results, reversed  | the type of function `i`    |
| `br d`        | label `d`, reversed  | anything           | label `d` exists            |
| `cond`        | `i32`                | the result         | both arms leave the result  |
| `loop`        |                      |                    | its body leaves nothing     |

Lowering emits code that these rules accept: the code of a well-kinded expression
leaves one word of its kind on any stack, and the body of a function its result.
-/

import WasmLowering.Proofs.Kinding
import WasmLowering.Proofs.Lowering

namespace WasmLowering
namespace Wasm

/-- The number that the offset of an access stays below. -/
def MemArg.offsetBound : Nat := 4294967296

/-- An access promises no more than the natural alignment. -/
structure MemArg.Fits (arg : MemArg) (naturalAlign : Nat) : Prop where
  align : arg.align ≤ naturalAlign
  offset : arg.offset < MemArg.offsetBound

mutual

/-- An instruction takes words of some kinds, topmost first, and leaves others. -/
inductive Instr.HasType (spaces : IndexSpaces) (locals : List Kind) :
    (labels : List (List Kind)) → Instr → (takes leaves : List Kind) → Prop
  | words {labels : List (List Kind)} {p : Plain} {takes leaves : List Kind} :
    p.onKinds takes = some leaves → Instr.HasType spaces locals labels (.plain p) takes leaves
  | localGet {labels : List (List Kind)} {i : Nat} {k : Kind} {ks : List Kind} :
    locals[i]? = some k → Instr.HasType spaces locals labels (.localGet i) ks (k :: ks)
  | localSet {labels : List (List Kind)} {i : Nat} {k : Kind} {ks : List Kind} :
    locals[i]? = some k → Instr.HasType spaces locals labels (.localSet i) (k :: ks) ks
  | localTee {labels : List (List Kind)} {i : Nat} {k : Kind} {ks : List Kind} :
    locals[i]? = some k → Instr.HasType spaces locals labels (.localTee i) (k :: ks) (k :: ks)
  | globalGet {labels : List (List Kind)} {i : Nat} {k : Kind} {ks : List Kind} :
    spaces.globals[i]? = some k → Instr.HasType spaces locals labels (.globalGet i) ks (k :: ks)
  | load {labels : List (List Kind)} {op : LoadOp} {arg : MemArg} {ks : List Kind} :
    arg.Fits op.naturalAlign →
      Instr.HasType spaces locals labels (.load op arg) (.i32 :: ks) (op.kind :: ks)
  | store {labels : List (List Kind)} {op : StoreOp} {arg : MemArg} {ks : List Kind} :
    arg.Fits op.naturalAlign →
      Instr.HasType spaces locals labels (.store op arg) (op.kind :: .i32 :: ks) ks
  | call {labels : List (List Kind)} {i : Nat} {t : FuncType} {ks : List Kind} :
    spaces.functions[i]? = some t →
      Instr.HasType spaces locals labels (.call i) (t.params.reverse ++ ks) (t.results.reverse ++ ks)
  | br {labels : List (List Kind)} {d : Nat} {label ks leaves : List Kind} :
    labels[d]? = some label →
      Instr.HasType spaces locals labels (.br d) (label.reverse ++ ks) leaves
  | cond {labels : List (List Kind)} {result : Option Kind} {first second : Code} {ks : List Kind} :
    Code.HasType spaces locals (result.toList :: labels) first [] result.toList →
      Code.HasType spaces locals (result.toList :: labels) second [] result.toList →
      Instr.HasType spaces locals labels (.cond result first second) (.i32 :: ks) (result.toList ++ ks)
  | loop {labels : List (List Kind)} {body : Code} {ks : List Kind} :
    Code.HasType spaces locals ([] :: labels) body [] [] →
      Instr.HasType spaces locals labels (.loop body) ks ks

/-- Code takes words of some kinds and leaves others. -/
inductive Code.HasType (spaces : IndexSpaces) (locals : List Kind) :
    (labels : List (List Kind)) → Code → (takes leaves : List Kind) → Prop
  | nil {labels : List (List Kind)} {ks : List Kind} : Code.HasType spaces locals labels [] ks ks
  | cons {labels : List (List Kind)} {i : Instr} {is : Code} {takes mid leaves : List Kind} :
    Instr.HasType spaces locals labels i takes mid → Code.HasType spaces locals labels is mid leaves →
      Code.HasType spaces locals labels (i :: is) takes leaves

end

variable {spaces : IndexSpaces} {locals : List Kind} {labels : List (List Kind)}

namespace Code.HasType

/-- **An instruction is code.** -/
theorem single {i : Instr} {takes leaves : List Kind}
    (h : Instr.HasType spaces locals labels i takes leaves) :
    Code.HasType spaces locals labels [i] takes leaves := .cons h .nil

/-- **Pieces of code fit together** if one leaves what the next one takes. -/
theorem append {code code' : Code} {takes mid leaves : List Kind}
    (h : Code.HasType spaces locals labels code takes mid)
    (h' : Code.HasType spaces locals labels code' mid leaves) :
    Code.HasType spaces locals labels (code ++ code') takes leaves := by
  induction code generalizing takes with
  | nil =>
    cases h
    exact h'
  | cons i is ih =>
    cases h with
    | cons hi his => exact .cons hi (ih his)

end Code.HasType

/-- **Kinds below those that an instruction looks at stay.** -/
theorem Plain.onKinds_below (under : List Kind) :
    ∀ {p : Plain} {ks ks' : List Kind}, p.onKinds ks = some ks' →
      p.onKinds (ks ++ under) = some (ks' ++ under)
  | .const _, _, _, h => by
    cases h
    rfl
  | .arith _ _, _ :: _ :: _, _, h => by
    obtain ⟨hk, ⟨⟩⟩ := Option.ite_none_right_eq_some.1 h
    exact if_pos hk
  | .compare _ _, _ :: _ :: _, _, h => by
    obtain ⟨hk, ⟨⟩⟩ := Option.ite_none_right_eq_some.1 h
    exact if_pos hk
  | .convert _, _ :: _, _, h => by
    obtain ⟨hk, ⟨⟩⟩ := Option.ite_none_right_eq_some.1 h
    exact if_pos hk
  | .drop, _ :: _, _, h => by
    cases h
    rfl
  | .arith .., [], _, h | .arith .., [_], _, h | .compare .., [], _, h | .compare .., [_], _, h
  | .convert _, [], _, h | .drop, [], _, h | .localGet _, _, _, h | .localSet _, _, _, h
  | .localTee _, _, _, h | .globalGet _, _, _, h | .load .., _, _, h | .store .., _, _, h => by
    cases h

/-- **Code that looks at words only** has the type that its kinds tell, on any stack. -/
theorem Code.HasType.words (under : List Kind) :
    ∀ {code : Code} {takes leaves : List Kind}, code.onKinds takes = some leaves →
      Code.HasType spaces locals labels code (takes ++ under) (leaves ++ under)
  | [], _, _, h => by
    cases h
    exact .nil
  | .plain _ :: _, _, _, h => by
    obtain ⟨_, hp, his⟩ := Option.bind_eq_some_iff.1 h
    exact .cons (.words (Plain.onKinds_below under hp)) (Code.HasType.words under his)
  | .call _ :: _, _, _, h | .br _ :: _, _, _, h | .cond .. :: _, _, _, h | .loop _ :: _, _, _, h => by
    cases h

end Wasm

open Wasm Lower

/-! ## Expressions -/

/-- The kinds of a function's locals: each variable in its place, the scratch registers, and as many
frame slots as there are. -/
structure Frame.Kinds (frame : Frame) (vars : List Kind) (slots : Nat) (locals : List Kind) : Prop where
  var {i j : Nat} {k : Kind} :
    vars[i]? = some k → frame.localIndex i = .ok j → locals[j]? = some k
  register (k : Kind) : locals[frame.registers.forKind k]? = some k
  second : locals[frame.registers.second]? = some .i32
  slot {d : Nat} : d < slots → locals[frame.slot d]? = some .i32

section Pieces

variable {spaces : IndexSpaces} {locals : List Kind} {labels : List (List Kind)} {ks : List Kind}

open Code.HasType

/-- **The unit value** is of kind `i32`. -/
theorem Wasm.Instr.hasType_unit : Code.HasType spaces locals labels [.unit] ks (.i32 :: ks) :=
  single (.words rfl)

theorem Highwater.hasType_read :
    Code.HasType spaces locals labels Highwater.read ks (.i32 :: ks) :=
  .cons (.words rfl) (single (.load ⟨Nat.le_refl 2, by decide⟩))

theorem Segment.hasType_address (hstart : spaces.globals[Layout.dataStartGlobal]? = some .i32)
    (o : Nat) : Code.HasType spaces locals labels (Segment.address o) ks (.i32 :: ks) :=
  .cons (.globalGet hstart) <| .cons (.words rfl) <| single (.words rfl)

theorem hasType_elementAddress (size : Nat) :
    Code.HasType spaces locals labels (elementAddress size) (.i32 :: .i32 :: ks) (.i32 :: ks) :=
  .cons (.words rfl) <| .cons (.words rfl) <| single (.words rfl)

variable {frame : Frame} {vars : List Kind} {slots : Nat}

theorem Highwater.hasType_write (hl : frame.Kinds vars slots locals) :
    Code.HasType spaces locals labels (Highwater.write frame.registers) (.i32 :: ks) ks := by
  have hfirst : locals[frame.registers.first]? = some .i32 := hl.register .i32
  exact .cons (.words rfl) <| .cons (.localSet hfirst) <| .cons (.localSet hl.second) <|
    .cons (.localGet hfirst) <| .cons (.localGet hl.second) <|
    single (.store ⟨Nat.le_refl 2, by decide⟩)

theorem Highwater.hasType_grow (hl : frame.Kinds vars slots locals) :
    Code.HasType spaces locals labels (Highwater.grow frame.registers) (.i32 :: ks) ks :=
  Highwater.hasType_read.append (.cons (.words rfl) (Highwater.hasType_write hl))

/-- **An access at its own address with natural alignment** is in order. -/
theorem Wasm.MemArg.Fits.natural {arg : MemArg} {naturalAlign : Nat} (ho : arg.offset = 0)
    (ha : arg.align = naturalAlign) : arg.Fits naturalAlign :=
  ⟨Nat.le_of_eq ha, by rw [ho]; decide⟩

end Pieces

section Expressions

variable {spaces : IndexSpaces} {scope : Scope} {frame : Frame} {vars locals : List Kind} {slots : Nat}

mutual

/-- **The code of an expression leaves one word of its kind,** whatever is on the stack. -/
theorem Lowers.hasType (hfit : spaces.Fit scope) (hl : frame.Kinds vars slots locals) :
    ∀ {st st' : LowerState} {e : Expr} {code : Code} {k : Kind},
      Lowers scope frame st e code st' → HasKind spaces scope vars e k → st.depth ≤ st.slots →
      st'.slots ≤ slots → ∀ (labels : List (List Kind)) (ks : List Kind),
      Code.HasType spaces locals labels code ks (k :: ks)
  | _, _, _, _, _, .var hj, .var hk, _, _, _, _ => .single (.localGet (hl.var hk hj))
  | _, _, _, _, _, .global hi, .global hi' hk, _, _, _, _ => by
    obtain rfl := Option.some.inj ((Scope.global_eq_ok.1 hi).symm.trans hi')
    exact .single (.globalGet hk)
  | _, _, _, _, _, .literal hv, .literal, _, _, _, _ => by
    rw [← Literal.kind_of_parse hv]
    exact .single (.words rfl)
  | _, _, _, _, _, .string, .string, _, _, _, _ => Segment.hasType_address hfit.dataStart _
  | _, _, _, _, _, .binary hl' hr ha, .binary hlk hrk, hd, hs, labels, ks =>
    ((hl'.hasType hfit hl hlk hd (Nat.le_trans hr.grows.slots hs) labels ks).append
      (hr.hasType hfit hl hrk (hl'.depth_le_slots hd) hs labels _)).append
      (.words ks (Operator.onKinds_lower ha))
  | _, _, _, _, _, .call hi hargs, .call hi' ht hks hk, hd, hs, labels, ks => by
    obtain rfl := Option.some.inj ((Scope.function_eq_ok.1 hi).symm.trans hi')
    rw [hfit.hasResult ht, hk]
    have hcall : Instr.HasType spaces locals labels (.call _) (_ ++ ks) (_ ++ ks) := .call ht
    rw [hk] at hcall
    exact (hargs.hasType hfit hl hks hd hs labels ks).append (.single hcall)
  | _, _, _, _, _, .call hi hargs, .callVoid hi' ht hks hk, hd, hs, labels, ks => by
    obtain rfl := Option.some.inj ((Scope.function_eq_ok.1 hi).symm.trans hi')
    rw [hfit.hasResult ht, hk]
    have hcall : Instr.HasType spaces locals labels (.call _) (_ ++ ks) (_ ++ ks) := .call ht
    rw [hk] at hcall
    exact (hargs.hasType hfit hl hks hd hs labels ks).append (.cons hcall Instr.hasType_unit)
  | _, _, _, _, _, .bufCreate hc, .bufCreate hck, hd, hs, labels, ks =>
    ((Highwater.hasType_read.append (hc.hasType hfit hl hck hd hs labels _)).append
      (.cons (.words rfl) (.single (.words rfl)))).append (Highwater.hasType_grow hl)
  | _, _, _, _, _, .bufRead hb hi hload, .bufRead hbk hik, hd, hs, labels, ks => by
    obtain ⟨op, arg, rfl, rfl, ho, hk, ha⟩ := loadElement_eq_ok hload
    rw [← hk]
    exact (((hb.hasType hfit hl hbk hd (Nat.le_trans hi.grows.slots hs) labels ks).append
      (hi.hasType hfit hl hik (hb.depth_le_slots hd) hs labels _)).append
      (hasType_elementAddress _)).append (.single (.load (.natural ho ha)))
  | _, _, _, _, _, .bufWrite hb hi hv hst, .bufWrite hbk hik hvk, hd, hs, labels, ks => by
    obtain ⟨op, arg, rfl, rfl, ho, hk, ha⟩ := storeElement_eq_ok hst
    rw [← hk] at hvk
    have hs' := Nat.le_trans hv.grows.slots hs
    have hd' := hb.depth_le_slots hd
    exact ((((hb.hasType hfit hl hbk hd (Nat.le_trans hi.grows.slots hs') labels ks).append
      (hi.hasType hfit hl hik hd' hs' labels _)).append (hasType_elementAddress _)).append
      (hv.hasType hfit hl hvk (hi.depth_le_slots hd') hs labels _)).append
      (.cons (.store (.natural ho ha)) Instr.hasType_unit)
  | _, _, _, _, _, .bufSub hb hi, .bufSub hbk hik, hd, hs, labels, ks =>
    ((hb.hasType hfit hl hbk hd (Nat.le_trans hi.grows.slots hs) labels ks).append
      (hi.hasType hfit hl hik (hb.depth_le_slots hd) hs labels _)).append (hasType_elementAddress _)
  | _, _, _, _, _, .cast he hc, .cast hek, hd, hs, labels, ks =>
    (he.hasType hfit hl hek hd hs labels ks).append (.words ks (Width.onKinds_castTo hc))
  | _, _, _, _, _, .ifThenElse hc ht _ hf _, .ifThenElse hck htk hfk, hd, hs, labels, ks => by
    have hs' := Nat.le_trans hf.grows.slots hs
    have hd' := hc.depth_le_slots hd
    exact (hc.hasType hfit hl hck hd (Nat.le_trans ht.grows.slots hs') labels ks).append
      (.single (.cond (ht.hasType hfit hl htk hd' hs' _ [])
        (hf.hasType hfit hl hfk (ht.depth_le_slots hd') hs _ [])))
  | _, _, _, _, _, .assign hv hj, .assign hk hvk, hd, hs, labels, ks =>
    (hv.hasType hfit hl hvk hd hs labels ks).append
      (.cons (.localSet (hl.var hk hj)) Instr.hasType_unit)
  | _, _, _, _, _, .whileLoop hc hb _, .whileLoop hck hbk, hd, hs, labels, ks => by
    have htest := hc.hasType hfit hl hck hd (Nat.le_trans hb.grows.slots hs) ([] :: labels) []
    have hstep := hb.hasType hfit hl hbk (hc.depth_le_slots hd) hs ([] :: [] :: labels) []
    have hbranch : Instr.HasType spaces locals ([] :: [] :: labels) (.br 1) ([].reverse ++ []) [] :=
      .br rfl
    have hback (k : Kind) : Code.HasType spaces locals ([] :: [] :: labels) [.drop, .br 1] [k] [] :=
      .cons (.words rfl) (.single hbranch)
    have hround : Instr.HasType spaces locals ([] :: labels) (.cond none _ []) [.i32] [] :=
      .cond (hstep.append (hback _)) .nil
    exact .cons (.loop (htest.append (.single hround))) Instr.hasType_unit
  | _, _, _, _, _, .ignore he, .ignore hek, hd, hs, labels, ks =>
    (he.hasType hfit hl hek hd hs labels ks).append (.cons (.words rfl) Instr.hasType_unit)
  | _, _, _, _, _, .empty, .empty, _, _, _, _ => Instr.hasType_unit
  | _, _, _, _, _, .last he, .last hek, hd, hs, labels, ks => he.hasType hfit hl hek hd hs labels ks
  | _, _, _, _, _, .sequence he hes, .sequence hek hesk, hd, hs, labels, ks =>
    (he.hasType hfit hl hek hd (Nat.le_trans hes.grows.slots hs) labels ks).append
      (.cons (.words rfl) (hes.hasType hfit hl hesk (he.depth_le_slots hd) hs labels ks))
  | _, _, _, _, _, .pushFrame, .pushFrame, _, hs, _, _ =>
    Highwater.hasType_read.append
      (.cons (.localSet (hl.slot (Nat.lt_of_lt_of_le (Nat.lt_succ_self _)
        (Nat.le_trans (Nat.le_max_right ..) hs)))) Instr.hasType_unit)
  | _, _, _, _, _, .popFrame h, .popFrame, hd, hs, _, _ => by
    rw [h] at hd
    exact .cons (.localGet (hl.slot (Nat.le_trans hd hs)))
      ((Highwater.hasType_write hl).append Instr.hasType_unit)

theorem LowersArgs.hasType (hfit : spaces.Fit scope) (hl : frame.Kinds vars slots locals) :
    ∀ {st st' : LowerState} {es : List Expr} {code : Code} {kinds : List Kind},
      LowersArgs scope frame st es code st' → HaveKinds spaces scope vars es kinds →
      st.depth ≤ st.slots → st'.slots ≤ slots → ∀ (labels : List (List Kind)) (ks : List Kind),
      Code.HasType spaces locals labels code ks (kinds.reverse ++ ks)
  | _, _, _, _, _, .nil, .nil, _, _, _, _ => .nil
  | _, _, _, _, _, .cons he hes, .cons hek hesk, hd, hs, labels, ks => by
    rw [List.reverse_cons, List.append_assoc]
    exact (he.hasType hfit hl hek hd (Nat.le_trans hes.grows.slots hs) labels ks).append
      (hes.hasType hfit hl hesk (he.depth_le_slots hd) hs labels _)

end

end Expressions

/-! ## Functions -/

theorem getElem?_append_add {α : Type} (as bs : List α) (i : Nat) :
    (as ++ bs)[as.length + i]? = bs[i]? := by
  rw [List.getElem?_append_right (Nat.le_add_right ..), Nat.add_sub_cancel_left]

namespace Function

variable (f : Function) (slots : Nat)

/-- **Behind the parameters** stand the scratch registers. -/
theorem getElem?_locals (i : Nat) :
    (f.type.params ++ f.localKinds slots)[f.args.length + i]? = (f.localKinds slots)[i]? := by
  have hlen : f.args.length = f.type.params.length := (List.length_map ..).symm
  rw [hlen, getElem?_append_add]

/-- **Behind the scratch registers** stand the declared locals and the frame slots. -/
theorem getElem?_localKinds (i : Nat) :
    (f.localKinds slots)[3 + i]? = (f.locals.map Width.kind ++ List.replicate slots .i32)[i]? := by
  rw [localKinds, List.append_assoc]
  exact getElem?_append_add scratchKinds _ i

/-- **The locals of a function are of the kinds that its code expects.** -/
theorem kinds_locals :
    f.frame.Kinds ((f.args ++ f.locals).map Width.kind) slots (f.type.params ++ f.localKinds slots) where
  var {i j k} hk hj := by
    rw [List.map_append] at hk
    obtain ⟨hi, rfl⟩ | ⟨hi, hi', rfl⟩ := Frame.localIndex_eq_ok hj
    · have hi : j < (f.args.map Width.kind).length := by
        rw [List.length_map]
        exact hi
      rw [List.getElem?_append_left hi] at hk
      exact (List.getElem?_append_left hi).trans hk
    · obtain ⟨n, rfl⟩ := Nat.exists_eq_add_of_le hi
      have hn : n < (f.locals.map Width.kind).length := by
        rw [List.length_map]
        exact Nat.lt_of_add_lt_add_left hi'
      have hvar := getElem?_append_add (f.args.map Width.kind) (f.locals.map Width.kind) n
      rw [List.length_map] at hvar
      rw [Nat.add_assoc, Nat.add_comm n]
      refine (f.getElem?_locals slots _).trans ?_
      rw [getElem?_localKinds, List.getElem?_append_left hn]
      exact hvar.symm.trans hk
  register
    | .i32 => f.getElem?_locals slots 0
    | .i64 => f.getElem?_locals slots 2
  second := f.getElem?_locals slots 1
  slot {d} hd := by
    have hslot := getElem?_append_add (f.locals.map Width.kind) (List.replicate slots .i32) d
    rw [List.length_map] at hslot
    rw [Frame.slot_eq, Nat.add_assoc, Nat.add_assoc]
    refine (f.getElem?_locals slots _).trans ?_
    rw [getElem?_localKinds]
    exact hslot.trans (List.getElem?_replicate_of_lt hd)

end Function

section Traces

variable {spaces : IndexSpaces} {locals : List Kind} {labels : List (List Kind)} {ks : List Kind}

/-- A field of a trace record can be written: the word it holds is in a local of its kind. -/
def TraceField.Readable (locals : List Kind) : TraceField → Prop
  | .word i k => locals[i]? = some k
  | _ => True

theorem TraceField.hasType_storeTag {position tag : Nat} (hp : position < MemArg.offsetBound) :
    Code.HasType spaces locals labels (storeTag position tag) ks ks :=
  .cons (.words rfl) <| .cons (.words rfl) <| .single (.store ⟨Nat.le_refl 0, hp⟩)

theorem TraceField.hasType_storeWord {position : Nat} {k : Kind} {code : Code}
    (hp : position < MemArg.offsetBound)
    (h : Code.HasType spaces locals labels code (.i32 :: ks) (k :: .i32 :: ks)) :
    Code.HasType spaces locals labels (storeWord position k code) ks ks := by
  have hk : (storeOp k).kind = k := by cases k <;> rfl
  have hstore : Instr.HasType spaces locals labels (.store (storeOp k) ⟨0, position⟩)
      ((storeOp k).kind :: .i32 :: ks) ks := .store ⟨Nat.zero_le _, hp⟩
  rw [hk] at hstore
  exact .cons (.words rfl) (h.append (.single hstore))

theorem TraceField.hasType_store (hstart : spaces.globals[Layout.dataStartGlobal]? = some .i32)
    {position : Nat} (hp : position + 1 < MemArg.offsetBound) {f : TraceField}
    (hf : f.Readable locals) : Code.HasType spaces locals labels (f.store position) ks ks := by
  refine (hasType_storeTag (by omega)).append ?_
  cases f with
  | string offset => exact hasType_storeWord hp (Segment.hasType_address hstart offset)
  | word i k => exact hasType_storeWord hp (.single (.localGet hf))
  | increment => exact .nil
  | decrement => exact .nil

/-- **The fields of a record** are written one after the other. -/
theorem Trace.hasType_stores (hstart : spaces.globals[Layout.dataStartGlobal]? = some .i32) :
    ∀ {fields : List TraceField} {position : Nat}, position + Trace.size fields < MemArg.offsetBound →
      (∀ f ∈ fields, f.Readable locals) →
      Code.HasType spaces locals labels (Trace.stores position fields) ks ks
  | [], _, hp, _ => TraceField.hasType_storeTag (Nat.lt_of_succ_lt hp)
  | f :: fs, position, hp, hf => by
    have hpos := f.size_pos
    rw [Trace.size] at hp
    exact (TraceField.hasType_store hstart (by omega) (hf f (.head _))).append
      (Trace.hasType_stores hstart (by omega) fun g hg => hf g (.tail _ hg))

/-- **A record** is written and the hook is called. -/
theorem Trace.hasType_record (hstart : spaces.globals[Layout.dataStartGlobal]? = some .i32)
    (hhook : spaces.functions[Layout.traceHook]? = some ⟨[], []⟩) {fields : List TraceField}
    {code : Code} (h : Trace.record fields = .ok code) (hf : ∀ f ∈ fields, f.Readable locals) :
    Code.HasType spaces locals labels code ks ks := by
  unfold Trace.record at h
  split at h
  · rename_i hsize
    cases h
    refine (Trace.hasType_stores hstart ?_ hf).append (.single (.call hhook))
    exact Nat.lt_of_le_of_lt (Nat.add_le_add_left hsize _) (by decide)
  · cases h

/-- **The record of entry** holds the parameters, which are the first locals. -/
theorem Trace.readable_entryFields (offset : Nat) (args rest : List Kind) :
    ∀ f ∈ Trace.entryFields offset args, f.Readable (args ++ rest) := by
  intro f hf
  obtain rfl | hf := List.mem_cons.1 hf
  · trivial
  · obtain hf | hf := List.mem_append.1 hf
    · obtain ⟨⟨k, i⟩, hki, rfl⟩ := List.mem_map.1 hf
      have hk : args[i]? = some k := List.mk_mem_zipIdx_iff_getElem?.1 hki
      exact (List.getElem?_append_left (List.getElem?_eq_some_iff.1 hk).1).trans hk
    · obtain rfl := List.mem_singleton.1 hf
      trivial

/-- **The record of return** holds the result, which is in its register. -/
theorem Trace.readable_exitFields (offset : Nat) (result : Option Kind) {r : Registers}
    (hr : ∀ k, locals[r.forKind k]? = some k) :
    ∀ f ∈ Trace.exitFields offset result r, f.Readable locals := by
  intro f hf
  obtain rfl | hf := List.mem_cons.1 hf
  · trivial
  · obtain rfl | hf := List.mem_cons.1 hf
    · trivial
    · obtain ⟨j, _, rfl⟩ := Option.map_eq_some_iff.1 (Option.mem_toList.1 hf)
      exact hr j

/-- **The record of entry** changes nothing on the stack. -/
theorem Trace.hasType_entry (hstart : spaces.globals[Layout.dataStartGlobal]? = some .i32)
    (hhook : spaces.functions[Layout.traceHook]? = some ⟨[], []⟩) {name : String} {args rest : List Kind}
    {seg seg' : Segment} {code : Code} (h : Trace.entry name args seg = .ok code seg') :
    Code.HasType spaces (args ++ rest) labels code ks ks := by
  obtain ⟨offset, mid, _, hrecord⟩ := bind_eq_ok.1 h
  obtain ⟨hrecord, _⟩ := lift_eq_ok.1 hrecord
  exact Trace.hasType_record hstart hhook hrecord (Trace.readable_entryFields offset args rest)

/-- **The record of return** keeps the result on the stack. -/
theorem Trace.hasType_exit (hstart : spaces.globals[Layout.dataStartGlobal]? = some .i32)
    (hhook : spaces.functions[Layout.traceHook]? = some ⟨[], []⟩) {result : Option Kind}
    {r : Registers} (hr : ∀ k, locals[r.forKind k]? = some k) {seg seg' : Segment} {code : Code}
    (h : Trace.exit result r seg = .ok code seg') (k : Kind) (hk : ∀ j ∈ result, j = k) :
    Code.HasType spaces locals labels code (k :: ks) (k :: ks) := by
  obtain ⟨offset, mid, _, h⟩ := bind_eq_ok.1 h
  obtain ⟨record, _, hrecord, h⟩ := bind_eq_ok.1 h
  obtain ⟨rfl, rfl⟩ := pure_eq_ok.1 h
  obtain ⟨hrecord, _⟩ := lift_eq_ok.1 hrecord
  have hcode : Code.HasType spaces locals labels record (k :: ks) (k :: ks) :=
    Trace.hasType_record hstart hhook hrecord (Trace.readable_exitFields offset result hr)
  cases result with
  | none => exact hcode
  | some j =>
    obtain rfl := hk j rfl
    exact .cons (.localTee (hr j)) hcode

end Traces

/-- **The body of a function is lowered without open frames.** -/
theorem Function.lowerBody_eq_ok {scope : Scope} {f : Function} {seg seg' : Segment} {code : Code}
    {st : LowerState} (h : f.lowerBody scope seg = .ok (code, st) seg') :
    f.body.lower scope f.frame (.start seg) = .ok code st ∧ st.segment = seg' := by
  unfold Function.lowerBody at h
  split at h
  · rename_i hlower
    cases h
    exact ⟨hlower, rfl⟩
  · cases h

/-- **The parts of a lowered function:** the record of entry, the code of the body, which closes all
frames, and the record of return. -/
theorem Function.lower_eq_ok {scope : Scope} {traced : Bool} {f : Function} {seg seg' : Segment}
    {body : FuncBody} (h : f.lower scope traced seg = .ok body seg') :
    f.results.length ≤ 1 ∧ ∃ entry mid code st exit,
      (if traced then Trace.entry f.name (f.args.map Width.kind) else pure []) seg = .ok entry mid ∧
      f.body.lower scope f.frame (.start mid) = .ok code st ∧ st.depth = 0 ∧
      (if traced then Trace.exit f.resultKind f.frame.registers else pure []) st.segment =
        .ok exit seg' ∧
      body = { locals := f.localKinds st.slots,
               code := entry ++ code ++ exit ++ if f.resultKind.isNone then [.drop] else [] } := by
  unfold Function.lower at h
  split at h
  · cases h
  · rename_i hresults
    refine ⟨Nat.le_of_not_gt hresults, ?_⟩
    cases traced
    all_goals
      simp only [Bool.false_eq_true, if_false, if_true, bind_eq_ok, ite_not] at h ⊢
      obtain ⟨entry, mid, hentry, ⟨code, st⟩, _, hbody, h⟩ := h
      obtain ⟨hcode, rfl⟩ := lowerBody_eq_ok hbody
      split at h
      · rename_i hdepth
        obtain ⟨exit, _, hexit, hreturn⟩ := bind_eq_ok.1 h
        obtain ⟨rfl, rfl⟩ := pure_eq_ok.1 hreturn
        exact ⟨entry, mid, code, st, exit, hentry, hcode, hdepth, hexit, rfl⟩
      · cases h

/-- **A function is lowered if its parts are:** at most one result, the records, and a body that closes
all frames. -/
theorem Function.lower_of_parts {scope : Scope} {traced : Bool} {f : Function} {seg mid seg' : Segment}
    {entry code exit : Code} {st : LowerState} (hresults : f.results.length ≤ 1)
    (hentry : (if traced then Trace.entry f.name (f.args.map Width.kind) else pure []) seg = .ok entry mid)
    (hbody : f.body.lower scope f.frame (.start mid) = .ok code st) (hdepth : st.depth = 0)
    (hexit : (if traced then Trace.exit f.resultKind f.frame.registers else pure []) st.segment =
      .ok exit seg') :
    f.lower scope traced seg =
      .ok { locals := f.localKinds st.slots,
            code := entry ++ code ++ exit ++ if f.resultKind.isNone then [.drop] else [] } seg' := by
  have hlower : f.lowerBody scope mid = .ok (code, st) st.segment := by
    unfold lowerBody
    rw [hbody]
  unfold lower
  rw [if_neg (Nat.not_lt.2 hresults)]
  cases traced
  all_goals
    refine bind_eq_ok.2 ⟨entry, mid, hentry, bind_eq_ok.2 ⟨(code, st), _, hlower, ?_⟩⟩
    show (if st.depth ≠ 0 then _ else _ : EStateM Fault Segment FuncBody) st.segment = _
    rw [if_neg (not_not_intro hdepth)]
    exact bind_eq_ok.2 ⟨exit, seg', hexit, pure_eq_ok.2 ⟨rfl, rfl⟩⟩

/-- **The code of a function leaves its results,** with its locals behind its parameters. -/
theorem Function.hasType_lower {spaces : IndexSpaces} {scope : Scope} {traced : Bool} {f : Function}
    {seg seg' : Segment} {body : FuncBody} (hfit : spaces.Fit scope)
    (hhook : traced = true → spaces.functions[Layout.traceHook]? = some ⟨[], []⟩)
    (hkind : f.WellKinded spaces scope) (h : f.lower scope traced seg = .ok body seg')
    (labels : List (List Kind)) :
    Code.HasType spaces (f.type.params ++ body.locals) labels body.code [] f.type.results.reverse := by
  obtain ⟨hresults, entry, mid, code, st, exit, hentry, hlower, hdepth, hexit, rfl⟩ := lower_eq_ok h
  obtain ⟨k, hk, hr⟩ := hkind
  have hl := f.kinds_locals st.slots
  have hbody := (Lowers.of_lower hlower).hasType hfit hl hk (Nat.le_refl 0) (Nat.le_refl _) labels []
  have hentry : Code.HasType spaces (f.type.params ++ f.localKinds st.slots) labels entry [] [] := by
    split at hentry
    · rename_i ht
      exact Trace.hasType_entry hfit.dataStart (hhook ht) hentry
    · cases hentry
      exact .nil
  have hexit : Code.HasType spaces (f.type.params ++ f.localKinds st.slots) labels exit [k] [k] := by
    split at hexit
    · rename_i ht
      exact Trace.hasType_exit hfit.dataStart (hhook ht) hl.register hexit k hr
    · cases hexit
      exact .nil
  refine ((hentry.append hbody).append hexit).append ?_
  -- the word of the body is the result, or is dropped
  show Code.HasType _ _ _ (if f.resultKind.isNone then [.drop] else []) [k]
    (f.results.map Width.kind).reverse
  unfold resultKind at hr ⊢
  match f.results, hresults, hr with
  | [], _, _ => exact .single (.words rfl)
  | [w], _, hr =>
    obtain rfl := hr _ rfl
    exact .nil
  | _ :: _ :: _, hlen, _ => exact absurd hlen (by simp)

end WasmLowering
