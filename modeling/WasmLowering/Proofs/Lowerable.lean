/-
# Which functions are lowered

Lowering a function may fail in many places.  Whether it does can be told from the
function and the scope alone, without lowering anything:

| condition            | of                                                            |
|----------------------|---------------------------------------------------------------|
| `Expr.HasCode`       | each node of the body, whatever it is made of                 |
| `Expr.Threads`       | the number of open frames, from left to right over the body   |
| at most one result   | the function                                                  |
| a record that fits   | the kinds of the arguments, with tracing on                   |

`Function.exists_lower_iff` says that a function is lowered just if these hold.
One way, the nodes of a lowered expression are lowered in their turn, so none of
them is left out (`Lowers.hasCode_within`), and the numbers of open frames of a
lowering are those of the threading (`Lowers.threads`).  The other way, a threading
is a plan to lower the parts of an expression one after the other, in whatever
state lowering has come to (`Expr.Threads.lowers`).
-/

import WasmLowering.Proofs.Emission
import WasmLowering.Proofs.TraceFrame

namespace WasmLowering

open Wasm Lower

/-! ## What has code -/

/-- The operators that have code at a width. -/
def Operator.table (w : Width) : List Operator :=
  if w = .bool then [and, or, xor, eq, neq]
  else if w.narrow && w.signed then
    [add, addW, sub, subW, mult, multW, bOr, bAnd, bXor, bShiftL, eq, neq]
  else
    [add, addW, sub, subW, mult, multW, div, divW, mod, bOr, bAnd, bXor, bShiftL, bShiftR, eq, neq,
      lt, lte, gt, gte]

/-- The pairs of widths that have code for a cast. -/
def Width.Castable (source target : Width) : Prop :=
  source ≠ .bool ∧ target ≠ .bool ∧
    (source.bits = target.bits ∨ source.bits = 64 ∨
      target.bits = 64 ∧ (source.signed = false ∨ source = .i32) ∨
      source.signed = false ∧ target.signed = false)

instance (source target : Width) : Decidable (source.Castable target) :=
  inferInstanceAs (Decidable (_ ∧ _))

namespace Expr

/-- An expression has code, if its parts have. -/
def HasCode (scope : Scope) (frame : Frame) : Expr → Prop
  | var index | assign index _ => index < frame.args + frame.locals
  | global name => name ∈ scope.globals
  | call name _ => ∃ f ∈ scope.functions, f.name = name
  | literal w text => ∃ v, Literal.parse w text = .ok v
  | binary op w _ _ => op ∈ Operator.table w
  | cast _ source target => source.Castable target
  | bufRead size _ _ | bufWrite size _ _ _ => size ∈ elementSizes
  | bufInit .. | bufBlit .. | bufFill .. | bufFree _ | abort _ | switch .. => False
  | _ => True

/-- An expression stands within another, at any depth. -/
inductive Within (node : Expr) : Expr → Prop
  | self : Within node node
  | part {e part : Expr} : part ∈ e.parts → Within node part → Within node e

/-- Whether a construct has a rule of its own for open frames. -/
def isFramed : Expr → Bool
  | pushFrame | popFrame | ifThenElse .. | whileLoop .. => true
  | _ => false

mutual

/-- The number of open frames before an expression and the number after it. -/
inductive Threads : Nat → Expr → Nat → Prop
  | pushFrame {d : Nat} : Threads d .pushFrame (d + 1)
  | popFrame {d : Nat} : Threads (d + 1) .popFrame d
  /-- Neither arm changes the number. -/
  | ifThenElse {d d' : Nat} {cond whenTrue whenFalse : Expr} {w : Width} :
    Threads d cond d' → Threads d' whenTrue d' → Threads d' whenFalse d' →
      Threads d (.ifThenElse cond whenTrue whenFalse w) d'
  /-- One turn of a loop, its test included, does not change the number. -/
  | whileLoop {d d' : Nat} {cond body : Expr} :
    Threads d cond d' → Threads d' body d → Threads d (.whileLoop cond body) d
  /-- Any other construct passes the number from part to part. -/
  | parts {d d' : Nat} {e : Expr} :
    e.isFramed = false → ThreadsEach d e.parts d' → Threads d e d'

/-- The number of open frames before some expressions and the number after the last. -/
inductive ThreadsEach : Nat → List Expr → Nat → Prop
  | nil {d : Nat} : ThreadsEach d [] d
  | cons {d d₁ d₂ : Nat} {e : Expr} {es : List Expr} :
    Threads d e d₁ → ThreadsEach d₁ es d₂ → ThreadsEach d (e :: es) d₂

end

end Expr

section Tables

/-- **There is a result** of a computation that succeeds. -/
theorem exists_ok {ε α : Type} {x : Except ε α} : (∃ a, x = .ok a) ↔ x.isOk = true := by
  cases x <;> simp [Except.isOk, Except.toBool]

/-- **The operators with code are those of the table.** -/
theorem Operator.exists_lower {op : Operator} {w : Width} :
    (∃ code, op.lower w = .ok code) ↔ op ∈ table w := by
  have h : (op.lower w).isOk = decide (op ∈ table w) := by
    cases w <;> cases op <;> rfl
  rw [exists_ok, h, decide_eq_true_iff]

/-- **The casts with code are those between castable widths.** -/
theorem Width.exists_castTo {source target : Width} :
    (∃ code, source.castTo target = .ok code) ↔ source.Castable target := by
  have h : (source.castTo target).isOk = decide (source.Castable target) := by
    cases source <;> cases target <;> rfl
  rw [exists_ok, h, decide_eq_true_iff]

/-- **Something is last of what is there.** -/
theorem exists_lastIdx? {α : Type} {p : α → Bool} {as : List α} :
    (∃ i, lastIdx? p as = some i) ↔ ∃ a ∈ as, p a = true := by
  induction as with
  | nil => simp [lastIdx?]
  | cons a as ih =>
    rw [lastIdx?]
    simp only [List.mem_cons, or_and_right, exists_or, exists_eq_left, ← ih]
    cases lastIdx? p as <;> cases p a <;> simp

theorem Scope.exists_global {scope : Scope} {name : String} :
    (∃ i, scope.global name = .ok i) ↔ name ∈ scope.globals := by
  simp only [global_eq_ok, global?, exists_lastIdx?, beq_iff_eq, exists_eq_right]

theorem Scope.exists_function {scope : Scope} {name : String} :
    (∃ i, scope.function name = .ok i) ↔ ∃ f ∈ scope.functions, f.name = name := by
  simp only [function_eq_ok, function?, exists_lastIdx?, beq_iff_eq]

theorem Frame.exists_localIndex {f : Frame} {i : Nat} :
    (∃ j, f.localIndex i = .ok j) ↔ i < f.args + f.locals := by
  constructor
  · rintro ⟨j, hj⟩
    have := localIndex_eq_ok hj
    omega
  · intro hi
    unfold localIndex
    rw [if_pos hi]
    split <;> exact ⟨_, rfl⟩

end Tables

variable {scope : Scope} {frame : Frame} {st st' : LowerState} {e : Expr} {es : List Expr}
  {code : Code} {codes : List Code} {d d' : Nat}

/-! ## What is lowered -/

/-- **A lowered expression has code.** -/
theorem Lowers.hasCode (h : Lowers scope frame st e code st') : e.HasCode scope frame := by
  cases h with
  | var hj => exact Frame.exists_localIndex.1 ⟨_, hj⟩
  | global hi => exact Scope.exists_global.1 ⟨_, hi⟩
  | literal hv => exact ⟨_, hv⟩
  | binary _ _ ha => exact Operator.exists_lower.1 ⟨_, ha⟩
  | call hi _ => exact Scope.exists_function.1 ⟨_, hi⟩
  | bufRead _ _ hl => exact exists_loadElement.1 ⟨_, hl⟩
  | bufWrite _ _ _ hs => exact exists_storeElement.1 ⟨_, hs⟩
  | cast _ hc => exact Width.exists_castTo.1 ⟨_, hc⟩
  | assign _ hj => exact Frame.exists_localIndex.1 ⟨_, hj⟩
  | string | bufCreate | bufSub | ifThenElse | whileLoop | ignore | empty | last | sequence | pushFrame
  | popFrame => exact trivial

/-- **No node of a lowered expression is without code.** -/
theorem Lowers.hasCode_within {node : Expr} (hnode : node.Within e)
    (h : Lowers scope frame st e code st') : node.HasCode scope frame := by
  induction hnode generalizing st code st' with
  | self => exact h.hasCode
  | part hpart _ ih =>
    obtain ⟨codes, heach, -⟩ := h.each (List.ne_nil_of_mem hpart)
    obtain ⟨before, after, hparts⟩ := List.append_of_mem hpart
    rw [hparts] at heach
    obtain ⟨_, _, _, _, _, -, hlowers, -, -⟩ := heach.split
    exact ih hlowers

/-- **A sequence threads its items.** -/
theorem Expr.Threads.items (h : (Expr.sequence es).Threads d d') : Expr.ThreadsEach d es d' := by
  cases h with
  | parts _ heach => exact heach

mutual

/-- **Lowering threads the open frames** from its first state to its last. -/
theorem Lowers.threads : ∀ {st st' : LowerState} {e : Expr} {code : Code},
    Lowers scope frame st e code st' → e.Threads st.depth st'.depth
  | _, _, _, _, .pushFrame => .pushFrame
  | _, _, _, _, .popFrame hd => hd ▸ .popFrame
  | _, _, _, _, .ifThenElse hc ht hd hf hd' => by
    have htrue := ht.threads
    have hfalse := hf.threads
    rw [hd] at htrue
    rw [hd, hd'] at hfalse
    rw [hd']
    exact .ifThenElse hc.threads htrue hfalse
  | _, _, _, _, .whileLoop hc hb hd => by
    have hbody := hb.threads
    rw [hd] at hbody
    rw [hd]
    exact .whileLoop hc.threads hbody
  | _, _, _, _, .binary hl hr _ => .parts rfl (.cons hl.threads (.cons hr.threads .nil))
  | _, _, _, _, .call _ hargs => .parts rfl hargs.threads
  | _, _, _, _, .bufCreate hn => .parts rfl (.cons hn.threads .nil)
  | _, _, _, _, .bufRead hb hi _ => .parts rfl (.cons hb.threads (.cons hi.threads .nil))
  | _, _, _, _, .bufWrite hb hi hv _ =>
    .parts rfl (.cons hb.threads (.cons hi.threads (.cons hv.threads .nil)))
  | _, _, _, _, .bufSub hb hi => .parts rfl (.cons hb.threads (.cons hi.threads .nil))
  | _, _, _, _, .cast hw _ => .parts rfl (.cons hw.threads .nil)
  | _, _, _, _, .assign hv _ => .parts rfl (.cons hv.threads .nil)
  | _, _, _, _, .ignore hw => .parts rfl (.cons hw.threads .nil)
  | _, _, _, _, .last h => .parts rfl (.cons h.threads .nil)
  | _, _, _, _, .sequence hfirst hrest => .parts rfl (.cons hfirst.threads hrest.threads.items)
  | _, _, _, _, .var _ | _, _, _, _, .global _ | _, _, _, _, .literal _ | _, _, _, _, .string
  | _, _, _, _, .empty => .parts rfl .nil

theorem LowersArgs.threads : ∀ {st st' : LowerState} {es : List Expr} {code : Code},
    LowersArgs scope frame st es code st' → Expr.ThreadsEach st.depth es st'.depth
  | _, _, _, _, .nil => .nil
  | _, _, _, _, .cons hfirst hrest => .cons hfirst.threads hrest.threads

end

/-! ## What can be lowered -/

namespace LowersEach

/-- **Expressions that are lowered one after the other** can be the arguments of a call. -/
theorem args (h : LowersEach scope frame st es codes st') :
    ∃ code, LowersArgs scope frame st es code st' := by
  induction h with
  | nil => exact ⟨_, .nil⟩
  | cons hfirst _ ih =>
    obtain ⟨rest, hrest⟩ := ih
    exact ⟨_, .cons hfirst hrest⟩

/-- **Expressions that are lowered one after the other** can be the items of a sequence. -/
theorem sequence (h : LowersEach scope frame st es codes st') :
    ∃ code, Lowers scope frame st (.sequence es) code st' := by
  induction h with
  | nil => exact ⟨_, .empty⟩
  | @cons st st₁ st₂ e es first codes hfirst hes ih =>
    cases es with
    | nil =>
      cases hes
      exact ⟨_, .last hfirst⟩
    | cons next es =>
      obtain ⟨rest, hrest⟩ := ih
      exact ⟨_, .sequence hfirst hrest⟩

/-- **An expression that has code is lowered if its parts are,** unless it has to watch the open frames.  It
leaves as many frames open as the last of its parts. -/
theorem lowers (h : LowersEach scope frame st e.parts codes st') (hframed : e.isFramed = false)
    (hcode : e.HasCode scope frame) :
    ∃ code last, Lowers scope frame st e code last ∧ last.depth = st'.depth := by
  cases e with
  | var index =>
    obtain _ | _ := h
    obtain ⟨j, hj⟩ := Frame.exists_localIndex.2 hcode
    exact ⟨_, _, .var hj, rfl⟩
  | global name =>
    obtain _ | _ := h
    obtain ⟨i, hi⟩ := Scope.exists_global.2 hcode
    exact ⟨_, _, .global hi, rfl⟩
  | literal w text =>
    obtain _ | _ := h
    obtain ⟨v, hv⟩ := hcode
    exact ⟨_, _, .literal hv, rfl⟩
  | string text =>
    obtain _ | _ := h
    exact ⟨_, _, .string, rfl⟩
  | binary op w lhs rhs =>
    obtain _ | ⟨hl, _ | ⟨hr, _ | _⟩⟩ := h
    obtain ⟨apply, ha⟩ := Operator.exists_lower.2 hcode
    exact ⟨_, _, .binary hl hr ha, rfl⟩
  | call name args =>
    obtain ⟨i, hi⟩ := Scope.exists_function.2 hcode
    obtain ⟨operands, hargs⟩ := h.args
    exact ⟨_, _, .call hi hargs, rfl⟩
  | bufCreate size count =>
    obtain _ | ⟨hn, _ | _⟩ := h
    exact ⟨_, _, .bufCreate hn, rfl⟩
  | bufRead size base index =>
    obtain _ | ⟨hb, _ | ⟨hi, _ | _⟩⟩ := h
    obtain ⟨load, hl⟩ := exists_loadElement.2 hcode
    exact ⟨_, _, .bufRead hb hi hl, rfl⟩
  | bufWrite size base index value =>
    obtain _ | ⟨hb, _ | ⟨hi, _ | ⟨hv, _ | _⟩⟩⟩ := h
    obtain ⟨store, hs⟩ := exists_storeElement.2 hcode
    exact ⟨_, _, .bufWrite hb hi hv hs, rfl⟩
  | bufSub size base index =>
    obtain _ | ⟨hb, _ | ⟨hi, _ | _⟩⟩ := h
    exact ⟨_, _, .bufSub hb hi, rfl⟩
  | cast operand source target =>
    obtain _ | ⟨hw, _ | _⟩ := h
    obtain ⟨convert, hc⟩ := Width.exists_castTo.2 hcode
    exact ⟨_, _, .cast hw hc, rfl⟩
  | assign index value =>
    obtain _ | ⟨hv, _ | _⟩ := h
    obtain ⟨j, hj⟩ := Frame.exists_localIndex.2 hcode
    exact ⟨_, _, .assign hv hj, rfl⟩
  | ignore operand =>
    obtain _ | ⟨hw, _ | _⟩ := h
    exact ⟨_, _, .ignore hw, rfl⟩
  | sequence items =>
    obtain ⟨code, hitems⟩ := h.sequence
    exact ⟨code, _, hitems, rfl⟩
  | pushFrame | popFrame | ifThenElse | whileLoop => cases hframed
  | bufInit | bufBlit | bufFill | bufFree | abort | switch => exact hcode.elim

end LowersEach

mutual

/-- **What can be threaded can be lowered,** if each of its nodes has code. -/
theorem Expr.Threads.lowers : ∀ {d d' : Nat} {e : Expr}, e.Threads d d' →
    (∀ node : Expr, node.Within e → node.HasCode scope frame) → ∀ {st : LowerState}, st.depth = d →
      ∃ code st', Lowers scope frame st e code st' ∧ st'.depth = d'
  | _, _, _, .pushFrame, _, st, hd => ⟨_, _, .pushFrame, congrArg (· + 1) hd⟩
  | _, _, _, .popFrame, _, st, hd => ⟨_, _, .popFrame hd, rfl⟩
  | _, _, .ifThenElse cond whenTrue whenFalse w, .ifThenElse hc ht hf, hcode, st, hd => by
    have hparts : ∀ part ∈ [cond, whenTrue, whenFalse], ∀ node : Expr, node.Within part →
        node.HasCode scope frame := fun part hpart node hnode => hcode node (.part hpart hnode)
    obtain ⟨test, st₁, hcond, hd₁⟩ := hc.lowers (hparts cond (by simp)) hd
    obtain ⟨first, st₂, htrue, hd₂⟩ := ht.lowers (hparts whenTrue (by simp)) hd₁
    obtain ⟨second, st₃, hfalse, hd₃⟩ := hf.lowers (hparts whenFalse (by simp)) hd₂
    exact ⟨_, st₃, .ifThenElse hcond htrue (hd₂.trans hd₁.symm) hfalse (hd₃.trans hd₁.symm), hd₃⟩
  | _, _, .whileLoop cond body, .whileLoop hc hb, hcode, st, hd => by
    have hparts : ∀ part ∈ [cond, body], ∀ node : Expr, node.Within part →
        node.HasCode scope frame := fun part hpart node hnode => hcode node (.part hpart hnode)
    obtain ⟨test, st₁, hcond, hd₁⟩ := hc.lowers (hparts cond (by simp)) hd
    obtain ⟨step, st₂, hbody, hd₂⟩ := hb.lowers (hparts body (by simp)) hd₁
    exact ⟨_, st₂, .whileLoop hcond hbody (hd₂.trans hd.symm), hd₂⟩
  | _, _, _, .parts hframed heach, hcode, st, hd => by
    obtain ⟨codes, st', hlowers, hd'⟩ :=
      heach.lowersEach (fun part hpart node hnode => hcode node (.part hpart hnode)) hd
    obtain ⟨code, last, h, hlast⟩ := hlowers.lowers hframed (hcode _ .self)
    exact ⟨code, last, h, hlast.trans hd'⟩

theorem Expr.ThreadsEach.lowersEach : ∀ {d d' : Nat} {es : List Expr}, Expr.ThreadsEach d es d' →
    (∀ e ∈ es, ∀ node : Expr, node.Within e → node.HasCode scope frame) →
      ∀ {st : LowerState}, st.depth = d →
        ∃ codes st', LowersEach scope frame st es codes st' ∧ st'.depth = d'
  | _, _, _, .nil, _, st, hd => ⟨_, _, .nil, hd⟩
  | _, _, _, .cons hfirst hrest, hcode, st, hd => by
    obtain ⟨code, st₁, hlowers, hd₁⟩ := hfirst.lowers (hcode _ List.mem_cons_self) hd
    obtain ⟨codes, st₂, heach, hd₂⟩ :=
      hrest.lowersEach (fun e he => hcode e (List.mem_cons_of_mem _ he)) hd₁
    exact ⟨_, st₂, .cons hlowers heach, hd₂⟩

end

/-- **An expression is lowered just if its nodes have code and its frames can be threaded.** -/
theorem exists_lowers : (∃ code st', Lowers scope frame st e code st' ∧ st'.depth = d') ↔
    (∀ node : Expr, node.Within e → node.HasCode scope frame) ∧ e.Threads st.depth d' := by
  constructor
  · rintro ⟨code, st', h, rfl⟩
    exact ⟨fun node hnode => h.hasCode_within hnode, h.threads⟩
  · rintro ⟨hcode, hthreads⟩
    exact hthreads.lowers hcode rfl

/-! ## Records that fit -/

namespace Trace

/-- **A record is written just if it fits the window.** -/
theorem exists_record {fields : List TraceField} : (∃ code, record fields = .ok code) ↔ size fields ≤ 124 := by
  constructor
  · rintro ⟨code, h⟩
    exact (record_eq_ok h).1
  · intro h
    exact ⟨_, if_pos h⟩

/-- **The record of entry** takes a tag and a word for each argument, and seven bytes. -/
theorem size_entryFields (offset : Nat) (args : List Kind) :
    size (entryFields offset args) = 5 + (args.map fun k => 1 + k.bits / 8).sum + 2 := by
  have hargs : ∀ i, ((args.zipIdx i).map fun a => (TraceField.word a.2 a.1).size).sum =
      (args.map fun k => 1 + k.bits / 8).sum := by
    induction args with
    | nil => exact fun _ => rfl
    | cons k args ih =>
      intro i
      rw [List.zipIdx_cons, List.map_cons, List.map_cons, List.sum_cons, List.sum_cons, ih]
      cases k <;> rfl
  rw [size_eq, entryFields, argFields]
  simp only [List.map_append, List.map_cons, List.map_map, List.sum_append, List.sum_cons, List.map_nil,
    List.sum_nil, List.cons_append, Function.comp_def, hargs]
  simp only [TraceField.size]
  omega

/-- **The record of entry is written just if it fits the window.** -/
theorem exists_entry (name : String) (args : List Kind) (seg : Segment) :
    (∃ code seg', entry name args seg = .ok code seg') ↔
      5 + (args.map fun k => 1 + k.bits / 8).sum + 2 ≤ 124 := by
  rw [← size_entryFields (seg.intern name).1, ← exists_record]
  constructor
  · rintro ⟨code, seg', h⟩
    exact ⟨code, (entry_eq_ok h).2⟩
  · rintro ⟨code, h⟩
    exact ⟨code, _, bind_eq_ok.2 ⟨_, _, rfl, lift_eq_ok.2 ⟨h, rfl⟩⟩⟩

/-- **The record of return always fits.** -/
theorem exists_exit (result : Option Kind) (r : Registers) (seg : Segment) :
    ∃ code seg', exit result r seg = .ok code seg' := by
  have hsize (offset : Nat) : size (exitFields offset result r) ≤ 124 := by
    rcases result with _ | _ | _ <;> exact Nat.le_of_ble_eq_true rfl
  obtain ⟨code, h⟩ := exists_record.2 (hsize (seg.intern returnMarker).1)
  exact ⟨_, _, bind_eq_ok.2 ⟨_, _, rfl, bind_eq_ok.2 ⟨code, _, lift_eq_ok.2 ⟨h, rfl⟩, rfl⟩⟩⟩

end Trace

/-! ## Functions -/

namespace Function

/-- **The code at the entry is there** without tracing, and with tracing if the record fits. -/
theorem exists_entry (traced : Bool) (f : Function) (seg : Segment) :
    (∃ entry mid,
      (if traced then Trace.entry f.name (f.args.map Width.kind) else pure []) seg = .ok entry mid) ↔
      (traced = true → 5 + (f.args.map fun w => 1 + w.kind.bits / 8).sum + 2 ≤ 124) := by
  cases traced with
  | false =>
    refine ⟨fun _ htraced => ?_, fun _ => ⟨[], seg, rfl⟩⟩
    cases htraced
  | true =>
    have hentry := Trace.exists_entry f.name (f.args.map Width.kind) seg
    rw [List.map_map] at hentry
    exact ⟨fun h _ => hentry.1 h, fun h => hentry.2 (h rfl)⟩

/-- **The code at the return is there** in either case. -/
theorem exists_exit (traced : Bool) (f : Function) (seg : Segment) : ∃ exit seg',
    (if traced then Trace.exit f.resultKind f.frame.registers else pure []) seg = .ok exit seg' := by
  cases traced with
  | false => exact ⟨[], seg, rfl⟩
  | true => exact Trace.exists_exit ..

/-- **A function is lowered just if it can be:** it has at most one result; every node of its body, however deep,
has code; the frames that its body opens can be threaded from none to none; and with tracing on, the record of its
arguments fits the window. -/
theorem exists_lower_iff (scope : Scope) (traced : Bool) (f : Function) (seg : Segment) :
    (∃ body seg', f.lower scope traced seg = .ok body seg') ↔
      f.results.length ≤ 1 ∧
      (∀ node : Expr, node.Within f.body → node.HasCode scope f.frame) ∧
      f.body.Threads 0 0 ∧
      (traced = true → 5 + (f.args.map fun w => 1 + w.kind.bits / 8).sum + 2 ≤ 124) := by
  rw [← exists_entry traced f seg]
  constructor
  · rintro ⟨body, seg', h⟩
    obtain ⟨hresults, entry, mid, code, st, exit, hentry, hbody, hdepth, -, -⟩ := lower_eq_ok h
    obtain ⟨hcode, hthreads⟩ := exists_lowers.1 ⟨code, st, Lowers.of_lower hbody, hdepth⟩
    exact ⟨hresults, hcode, hthreads, entry, mid, hentry⟩
  · rintro ⟨hresults, hcode, hthreads, entry, mid, hentry⟩
    -- The segment that the entry leaves has a say in the code, but none in whether there is any.
    have hstart : f.body.Threads (LowerState.start mid).depth 0 := hthreads
    obtain ⟨code, st, hlowers, hdepth⟩ := exists_lowers.2 ⟨hcode, hstart⟩
    obtain ⟨exit, seg', hexit⟩ := exists_exit traced f st.segment
    exact ⟨_, seg', lower_of_parts hresults hentry hlowers.lower hdepth hexit⟩

end Function

end WasmLowering
