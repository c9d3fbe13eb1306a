/-
# A frame restores the mark

A frame around an expression puts the highwater mark back to where it was, whatever
the expression does to memory: the mark is saved in a local, and the code of the
expression does not write it.

| code                         | writes of the frame slots               |
|------------------------------|-----------------------------------------|
| opening a frame at depth `d` | the slot `d`                            |
| everything else              | none: variables and registers are below |

So code that is emitted while more than `j` frames are open nowhere writes the slot
`j` (`Lowers.spares`), and code that nowhere writes a local leaves it alone, however
often its loops run (`Code.keeps`).
-/

import WasmLowering.Proofs.Following
import WasmLowering.Proofs.Preservation

namespace WasmLowering

open Wasm

/-! ## Locals that code does not write -/

namespace Wasm

/-- Whether an instruction does not write a local. -/
def Plain.spares (i : Nat) : Plain → Bool
  | localSet j | localTee j => j != i
  | _ => true

mutual

/-- Whether an instruction nowhere writes a local. -/
def Instr.spares (i : Nat) : Instr → Bool
  | .plain p => p.spares i
  | .cond _ first second => Code.spares i first && Code.spares i second
  | .loop body => Code.spares i body
  | .call _ | .br _ => true

/-- Whether code nowhere writes a local. -/
def Code.spares (i : Nat) : Code → Bool
  | [] => true
  | c :: cs => c.spares i && Code.spares i cs

end

/-- The local holds the value, wherever a run ends unless it halts. -/
def Outcome.Keeps (i : Nat) (v : Option Value) : Outcome → Prop
  | next m | branch _ m => m.locals[i]? = v
  | halt _ => True

namespace Outcome.Keeps

variable {i : Nat} {v : Option Value}

theorem andThen {o : Outcome} {f : Machine → Outcome} (h : o.Keeps i v)
    (hf : ∀ m : Machine, m.locals[i]? = v → (f m).Keeps i v) : (o.andThen f).Keeps i v := by
  cases o with
  | next m => exact hf m h
  | branch d m => exact h
  | halt cause => trivial

theorem leave {o : Outcome} (h : o.Keeps i v) (results : Nat) (ws : List Value) :
    (o.leave results ws).Keeps i v := by
  cases o with
  | next m => exact h
  | branch d m => cases d <;> exact h
  | halt cause => trivial

/-- **A loop leaves what its body leaves,** however often the body is run. -/
theorem iterate {body : Machine → Outcome} (h : ∀ m : Machine, m.locals[i]? = v → (body m).Keeps i v)
    (ws : List Value) (fuel : Nat) {m : Machine} (hm : m.locals[i]? = v) :
    (Outcome.iterate body ws fuel m).Keeps i v := by
  induction fuel generalizing m with
  | zero => trivial
  | succ fuel ih =>
    have hbody := h { m with stack := [] } hm
    rw [Outcome.iterate]
    split
    · rename_i m' hrun
      rw [hrun] at hbody
      exact ih hbody
    · exact hbody.leave 0 ws

end Outcome.Keeps

/-- **A plain instruction leaves the locals that it does not write.** -/
theorem Plain.locals_of_step {i : Nat} {globals : List Value} {p : Plain} {m m' : Machine}
    (hp : p.spares i = true) (h : p.step globals m = .ok m') : m'.locals[i]? = m.locals[i]? := by
  cases p with
  | localSet j =>
    obtain ⟨v, ws, -, -, rfl⟩ := Plain.step_localSet_eq_ok h
    exact List.getElem?_set_ne (bne_iff_ne.1 hp)
  | localTee j =>
    rw [Plain.step] at h
    split at h
    · split at h
      · cases h
        exact List.getElem?_set_ne (bne_iff_ne.1 hp)
      · cases h
    · cases h
  | store op arg =>
    obtain ⟨_, _, _, -, -, -, hlocals, -⟩ := Plain.step_store_eq_ok h
    rw [hlocals]
  | _ =>
    have hstill : m.Still 0 m' := Plain.still_of_step rfl h
    exact hstill.locals i (Nat.zero_le i)

variable {spaces : IndexSpaces} (inst : Instance spaces) {fuel i : Nat} {v : Option Value}

mutual

/-- **An instruction leaves the locals that it does not write.** -/
theorem Instr.keeps : ∀ {c : Instr} {m : Machine}, c.spares i = true → m.locals[i]? = v →
    (c.exec inst fuel m).Keeps i v
  | .plain p, m, hc, hm => by
    rw [Instr.exec]
    cases hp : p.step inst.globals m with
    | error cause => trivial
    | ok m' => exact (Plain.locals_of_step hc hp).trans hm
  | .call n, m, _, hm => by
    rw [Instr.exec]
    cases hcall : m.call inst n with
    | error cause => trivial
    | ok m' => exact (congrArg (·[i]?) (Machine.locals_of_call inst hcall)).trans hm
  | .br d, m, _, hm => by
    rw [Instr.exec]
    exact hm
  | .cond result first second, m, hc, hm => by
    rw [Instr.spares, Bool.and_eq_true] at hc
    rw [Instr.exec]
    split
    · split
      · exact .leave (Code.keeps hc.2 (by exact hm)) _ _
      · exact .leave (Code.keeps hc.1 (by exact hm)) _ _
    · trivial
  | .loop body, m, hc, hm => by
    rw [Instr.exec]
    exact .iterate (fun _ => Code.keeps hc) m.stack fuel hm

/-- **Code leaves the locals that it does not write.** -/
theorem Code.keeps : ∀ {code : Code} {m : Machine}, code.spares i = true → m.locals[i]? = v →
    (Code.exec inst fuel code m).Keeps i v
  | [], m, _, hm => by
    rw [Code.exec]
    exact hm
  | c :: cs, m, hc, hm => by
    rw [Code.spares, Bool.and_eq_true] at hc
    rw [Code.exec]
    exact (Instr.keeps hc.1 hm).andThen fun _ => Code.keeps hc.2

end

/-- **A run to the end** leaves the locals that the code does not write. -/
theorem Code.locals_of_exec {code : Code} {m m' : Machine} (hc : code.spares i = true)
    (h : Code.exec inst fuel code m = .next m') : m'.locals[i]? = m.locals[i]? := by
  have hkeeps : (Code.exec inst fuel code m).Keeps i m.locals[i]? := Code.keeps inst hc rfl
  rwa [h] at hkeeps

theorem Code.spares_append {a b : Code} (ha : a.spares i = true) (hb : b.spares i = true) :
    (a ++ b).spares i = true := by
  induction a with
  | nil => exact hb
  | cons c cs ih =>
    rw [Code.spares, Bool.and_eq_true] at ha
    rw [List.cons_append, Code.spares, ha.1, ih ha.2]
    rfl

/-- **Silent code writes no local** from its bound on. -/
theorem Code.spares_of_isSilent {bound : Nat} {code : Code} (h : code.isSilent bound = true)
    (hi : bound ≤ i) : code.spares i = true := by
  induction code with
  | nil => rfl
  | cons c cs ih =>
    cases c with
    | plain p =>
      rw [Code.isSilent, Bool.and_eq_true] at h
      rw [Code.spares, Bool.and_eq_true]
      refine ⟨?_, ih h.2⟩
      cases p with
      | localSet j | localTee j =>
        have hj : j < bound := of_decide_eq_true h.1
        exact bne_iff_ne.2 (by omega)
      | _ => rfl
    | call | br | cond | loop => cases h

end Wasm

/-! ## Frames that are open -/

namespace Expr

mutual

/-- The fewest frames that are open at any point of an expression, if so many are open before it. -/
def lowest : Expr → (depth : Nat) → Nat
  | binary _ _ lhs rhs, d => min (lhs.lowest d) (rhs.lowest (lhs.after d))
  | call _ args, d => lowestOf args d
  | bufCreate _ count, d => count.lowest d
  | bufRead _ base index, d => min (base.lowest d) (index.lowest (base.after d))
  | bufWrite _ base index value, d =>
    min (base.lowest d) (min (index.lowest (base.after d)) (value.lowest (index.after (base.after d))))
  | bufSub _ base index, d => min (base.lowest d) (index.lowest (base.after d))
  | cast operand _ _, d => operand.lowest d
  | ifThenElse cond whenTrue whenFalse _, d =>
    min (cond.lowest d) (min (whenTrue.lowest (cond.after d)) (whenFalse.lowest (cond.after d)))
  | assign _ value, d => value.lowest d
  | whileLoop cond body, d => min (cond.lowest d) (body.lowest (cond.after d))
  | ignore operand, d => operand.lowest d
  | sequence items, d => lowestOf items d
  | popFrame, d => d - 1
  | _, d => d

/-- The fewest frames that are open at any point of expressions that are run one after the other. -/
def lowestOf : List Expr → (depth : Nat) → Nat
  | [], d => d
  | e :: es, d => min (e.lowest d) (lowestOf es (e.after d))

end

/-- **Among expressions that keep frames open each does.** -/
theorem lowest_of_places {es : List Expr} {d j : Nat} (h : j < lowestOf es d) :
    ∀ p ∈ places es d, j < p.1.lowest p.2 := by
  induction es generalizing d with
  | nil => exact fun p hp => nomatch hp
  | cons e es ih =>
    rw [lowestOf, Nat.lt_min] at h
    exact List.forall_mem_cons.2 ⟨h.1, ih h.2⟩

/-- **The operands of an expression that keeps frames open do.** -/
theorem lowest_of_operands {e : Expr} {d j : Nat} (h : j < e.lowest d) :
    ∀ p ∈ e.operands d, j < p.1.lowest p.2 := by
  cases e with
  | call name args => exact lowest_of_places h
  | sequence items => exact lowest_of_places h
  | bufCreate | cast | assign | ignore => exact List.forall_mem_singleton.2 h
  | binary | bufRead | bufSub | whileLoop =>
    obtain ⟨hfirst, hsecond⟩ := Nat.lt_min.1 h
    exact List.forall_mem_cons.2 ⟨hfirst, List.forall_mem_singleton.2 hsecond⟩
  | bufWrite | ifThenElse =>
    obtain ⟨hfirst, hrest⟩ := Nat.lt_min.1 h
    obtain ⟨hsecond, hthird⟩ := Nat.lt_min.1 hrest
    exact List.forall_mem_cons.2 ⟨hfirst, List.forall_mem_cons.2 ⟨hsecond, List.forall_mem_singleton.2 hthird⟩⟩
  | _ => exact fun p hp => nomatch hp

end Expr

/-! ## Emitted code -/

namespace Highwater

variable {r : Registers} {i : Nat}

/-- **Writing the mark** needs the scratch registers only. -/
theorem spares_write (h : r.base + 2 ≤ i) : (write r).spares i = true := by
  have hfirst : (r.first != i) = true := bne_iff_ne.2 (by unfold Registers.first; omega)
  have hsecond : (r.second != i) = true := bne_iff_ne.2 (by unfold Registers.second; omega)
  simp [write, Registers.swap, Code.spares, Instr.spares, Plain.spares, hfirst, hsecond]

/-- **Moving the mark up** needs the scratch registers only. -/
theorem spares_grow (h : r.base + 2 ≤ i) : (grow r).spares i = true := by
  refine Code.spares_append rfl ?_
  rw [Code.spares, spares_write h]
  rfl

end Highwater

theorem Frame.registers_lt_slot (f : Frame) (d : Nat) : f.registers.base + 2 ≤ f.slot d := by
  rw [Frame.slot_eq, Frame.registers]
  show f.args + 2 ≤ _
  omega

section Emitted

variable {scope : Scope} {frame : Frame} {j : Nat}

/-- **What comes behind an expression** starts with the frames that its lowering leaves open. -/
theorem Lowers.lowest {st st' : LowerState} {e next : Expr} {code : Code} (h : Lowers scope frame st e code st')
    (hnext : j < next.lowest (e.after st.depth)) : j < next.lowest st'.depth := by
  rwa [Expr.after_eq h] at hnext

mutual

/-- **Code that is emitted while more than `j` frames are open** nowhere writes the slot `j`. -/
theorem Lowers.spares : ∀ {st st' : LowerState} {e : Expr} {code : Code}, Lowers scope frame st e code st' →
    j < e.lowest st.depth → code.spares (frame.slot j) = true
  | _, _, _, _, .var _, _ | _, _, _, _, .global _, _ | _, _, _, _, .literal _, _ | _, _, _, _, .string, _
  | _, _, _, _, .empty, _ => rfl
  | _, _, _, _, .binary hlhs hrhs ha, h => by
    have hoperand := Expr.lowest_of_operands h
    have hleft := hlhs.spares (hoperand _ (.head _))
    have hright := hrhs.spares (hlhs.lowest (hoperand _ (.tail _ (.head _))))
    have happly := Code.isSilent_of_onKinds 0 (Operator.onKinds_lower ha)
    exact Code.spares_append (Code.spares_append hleft hright) (Code.spares_of_isSilent happly (Nat.zero_le _))
  | _, _, _, _, .call (i := i) _ hargs, h => by
    refine Code.spares_append (hargs.spares h) ?_
    cases scope.hasResult i <;> rfl
  | _, _, _, _, .bufCreate hcount, h => by
    have hnumber := hcount.spares (Expr.lowest_of_operands h _ (.head _))
    exact Code.spares_append (Code.spares_append (Code.spares_append rfl hnumber) rfl)
      (Highwater.spares_grow (frame.registers_lt_slot j))
  | _, _, _, _, .bufRead hbase hindex hload, h => by
    have hoperand := Expr.lowest_of_operands h
    have hstart := hbase.spares (hoperand _ (.head _))
    have hposition := hindex.spares (hbase.lowest (hoperand _ (.tail _ (.head _))))
    obtain ⟨op, arg, rfl, -⟩ := loadElement_eq_ok hload
    exact Code.spares_append (Code.spares_append (Code.spares_append hstart hposition) rfl) rfl
  | _, _, _, _, .bufWrite hbase hindex hvalue hstore, h => by
    have hoperand := Expr.lowest_of_operands h
    have hstart := hbase.spares (hoperand _ (.head _))
    have hposition := hindex.spares (hbase.lowest (hoperand _ (.tail _ (.head _))))
    have hthird := hoperand _ (.tail _ (.tail _ (.head _)))
    dsimp only at hthird
    rw [Expr.after_eq hbase] at hthird
    have hword := hvalue.spares (hindex.lowest hthird)
    obtain ⟨op, arg, rfl, -⟩ := storeElement_eq_ok hstore
    exact Code.spares_append (Code.spares_append (Code.spares_append (Code.spares_append hstart hposition) rfl)
      hword) rfl
  | _, _, _, _, .bufSub hbase hindex, h => by
    have hoperand := Expr.lowest_of_operands h
    have hstart := hbase.spares (hoperand _ (.head _))
    have hposition := hindex.spares (hbase.lowest (hoperand _ (.tail _ (.head _))))
    exact Code.spares_append (Code.spares_append hstart hposition) rfl
  | _, _, _, _, .cast he hc, h => by
    have hword := he.spares (Expr.lowest_of_operands h _ (.head _))
    have hconvert := Code.isSilent_of_onKinds 0 (Width.onKinds_castTo hc)
    exact Code.spares_append hword (Code.spares_of_isSilent hconvert (Nat.zero_le _))
  | _, _, _, _, .ifThenElse hc ht hd hf _, h => by
    have hoperand := Expr.lowest_of_operands h
    have htest := hc.spares (hoperand _ (.head _))
    have hfirst := ht.spares (hc.lowest (hoperand _ (.tail _ (.head _))))
    have helse := hc.lowest (hoperand _ (.tail _ (.tail _ (.head _))))
    rw [← hd] at helse
    have hsecond := hf.spares helse
    refine Code.spares_append htest ?_
    rw [Code.spares, Instr.spares, hfirst, hsecond]
    rfl
  | _, _, _, _, .assign hv hj, h => by
    have hword := hv.spares (Expr.lowest_of_operands h _ (.head _))
    have hne : _ ≠ frame.slot j := Nat.ne_of_lt (Frame.localIndex_lt_slot hj j)
    refine Code.spares_append hword ?_
    rw [Code.spares, Instr.spares, Plain.spares, bne_iff_ne.2 hne]
    rfl
  | _, _, _, _, .whileLoop hc hb _, h => by
    have hoperand := Expr.lowest_of_operands h
    have htest := hc.spares (hoperand _ (.head _))
    have hstep := hb.spares (hc.lowest (hoperand _ (.tail _ (.head _))))
    have hround := Code.spares_append hstep (b := [.drop, .br 1]) rfl
    rw [Code.spares, Instr.spares, Code.spares_append htest]
    · rfl
    · rw [Code.spares, Instr.spares, hround]
      rfl
  | _, _, _, _, .ignore he, h => by
    exact Code.spares_append (he.spares (Expr.lowest_of_operands h _ (.head _))) rfl
  | _, _, _, _, .last he, h => he.spares (Expr.lowest_of_operands h _ (.head _))
  | _, _, _, _, .sequence he hs, h => by
    rw [Expr.lowest, Expr.lowestOf, Nat.lt_min] at h
    refine Code.spares_append (he.spares h.1) ?_
    rw [Code.spares, hs.spares (he.lowest h.2)]
    rfl
  | st, _, _, _, .pushFrame, h => by
    have hne : frame.slot st.depth ≠ frame.slot j := by
      rw [Expr.lowest] at h
      · rw [Frame.slot_eq, Frame.slot_eq]
        omega
      all_goals simp
    refine Code.spares_append rfl ?_
    rw [Code.spares, Instr.spares, Plain.spares, bne_iff_ne.2 hne]
    rfl
  | _, _, _, _, .popFrame _, _ => by
    refine Code.spares_append ?_ rfl
    rw [Code.spares, Highwater.spares_write (frame.registers_lt_slot j)]
    rfl

theorem LowersArgs.spares : ∀ {st st' : LowerState} {es : List Expr} {code : Code},
    LowersArgs scope frame st es code st' → j < Expr.lowestOf es st.depth → code.spares (frame.slot j) = true
  | _, _, _, _, .nil, _ => rfl
  | _, _, _, _, .cons he hes, h => by
    rw [Expr.lowestOf, Nat.lt_min, Expr.after_eq he] at h
    exact Code.spares_append (he.spares h.1) (hes.spares h.2)

end

end Emitted

/-! ## Frames around expressions -/

namespace Expr

/-- An expression in a frame of its own. -/
def bracket (e : Expr) : Expr := sequence [pushFrame, e, popFrame]

variable {scope : Scope} {frame : Frame} {st after : LowerState} {e : Expr} {body : Code}

/-- **The code of an expression in a frame** is that of the expression, behind code that saves the mark and in
front of code that restores it. -/
theorem lower_bracket (hbody : e.lower scope frame st.opened = .ok body after)
    (hend : after.depth = st.depth + 1) :
    e.bracket.lower scope frame st =
      .ok (Highwater.read ++ [.localSet (frame.slot st.depth), .unit] ++ .drop :: (body ++ .drop ::
        (.localGet (frame.slot st.depth) :: Highwater.write frame.registers ++ [.unit])))
        { after with depth := st.depth } := by
  have hclose : Lower.closeFrame after = .ok st.depth { after with depth := st.depth } :=
    Lower.closeFrame_eq_ok.2 ⟨hend, rfl⟩
  simp only [bracket, Expr.lower, Expr.lowerItems, Lower.bind_eq_ok, Lower.pure_eq_ok]
  exact ⟨_, _, ⟨_, _, rfl, rfl, rfl⟩, _, _,
    ⟨_, _, hbody, _, _, ⟨_, _, hclose, rfl, rfl⟩, rfl, rfl⟩, rfl, rfl⟩

/-- **A frame restores the mark,** whatever happens inside.  Let an expression have code with one frame more
open, leave as many open, and never close that frame on the way.  Then its code in a frame of its own, run to
its end, leaves the mark where it was, and all frames outside keep what they saved. -/
theorem mark_of_bracket (hbody : e.lower scope frame st.opened = .ok body after)
    (hend : after.depth = st.depth + 1) (hlow : st.depth + 1 ≤ e.lowest (st.depth + 1)) :
    ∃ code st', e.bracket.lower scope frame st = .ok code st' ∧ st'.depth = st.depth ∧
      ∀ {spaces : IndexSpaces} (inst : Instance spaces) (fuel : Nat) {m m' : Machine},
        Code.exec inst fuel code m = .next m' →
          (∃ w, m.memory.mark = some w ∧ m'.memory.mark = some w) ∧
          ∀ j < st.depth, m'.locals[frame.slot j]? = m.locals[frame.slot j]? := by
  refine ⟨_, _, lower_bracket hbody hend, rfl, fun {spaces} inst fuel {m m'} hrun => ?_⟩
  obtain ⟨m₁, hsave, hrun⟩ := (Code.exec_append_eq_next inst).1 hrun
  obtain ⟨w, hw, hlt, rfl⟩ := Highwater.exec_save inst hsave
  obtain ⟨_, ⟨⟩, hrun⟩ := (Code.exec_plain_eq_next inst).1 hrun
  obtain ⟨m₂, hinside, hrun⟩ := (Code.exec_append_eq_next inst).1 hrun
  obtain ⟨m₃, hdrop, hrun⟩ := (Code.exec_plain_eq_next inst).1 hrun
  obtain ⟨w', hw', hset, hlocals⟩ := Highwater.exec_restore inst hrun
  -- inside, no slot is written up to the one that holds the mark
  have hinner : ∀ j ≤ st.depth,
      m₃.locals[frame.slot j]? = (m.locals.set (frame.slot st.depth) (.i32 w))[frame.slot j]? := by
    intro j hj
    have hspares : body.spares (frame.slot j) = true :=
      (Lowers.of_lower hbody).spares (Nat.lt_of_lt_of_le (Nat.lt_succ_of_le hj) hlow)
    exact (Plain.locals_of_step rfl hdrop).trans (Code.locals_of_exec inst hspares hinside)
  constructor
  · have hsaved : some (Value.i32 w') = some (.i32 w) := by
      rw [← hw', hinner st.depth (Nat.le_refl _), List.getElem?_set_self hlt]
    cases hsaved
    exact ⟨w, hw, Memory.mark_setMark hset⟩
  · intro j hj
    have hne : frame.slot st.depth ≠ frame.slot j := by
      rw [Frame.slot_eq, Frame.slot_eq]
      omega
    rw [hlocals _ (frame.registers_lt_slot j), hinner j (Nat.le_of_lt hj), List.getElem?_set_ne hne]

end Expr

namespace Tally

/-- Makes a buffer, counts up to three in a loop with a frame and a buffer of its own for each call, and then
writes over the mark. -/
def clobber : Expr := .sequence [
  .assign 1 (.bufCreate 4 (.literal .u32 "2")),
  .whileLoop (.binary .lt .u32 (.var 0) (.literal .u32 "3"))
    (.sequence [.pushFrame, .ignore (.bufCreate 1 (.literal .u32 "8")), .assign 0 (.call "next" [.var 0]), .popFrame]),
  .bufWrite 4 (.literal .u32 "0") (.literal .u32 "0") (.literal .u32 "77")]

/-- Lowering with one frame open. -/
def nested : LowerState := ⟨.empty, 1, 1⟩

def nestedMachine : Machine := ⟨[.i32 0, .i32 7, .i32 8, .i64 9, .i32 0, .i32 6, .i32 0, .i32 0], memory, []⟩

/-- Whether the code of an expression, with one frame open, runs to its end. -/
def runsNested (e : Expr) : Bool :=
  match e.lower scope function.frame nested with
  | .error _ _ => false
  | .ok code _ =>
    match Code.exec inst 4 code nestedMachine with
    | .next _ => true
    | _ => false

theorem of_runsNested {e : Expr} {code : Code} {st' : LowerState}
    (hlower : e.lower scope function.frame nested = .ok code st') (h : runsNested e = true) :
    ∃ m', Code.exec inst 4 code nestedMachine = .next m' := by
  simp only [runsNested, hlower] at h
  split at h
  · next m' hexec => exact ⟨m', hexec⟩
  · cases h

end Tally

/-- A frame around code that writes over the mark leaves it at `128`, and the frame outside keeps what it
saved. -/
theorem Tally.mark_clobber :
    ∃ code st' m', clobber.bracket.lower scope function.frame nested = .ok code st' ∧
      Code.exec inst 4 code nestedMachine = .next m' ∧ m'.memory.mark = some 128 ∧
      m'.locals[function.frame.slot 0]? = some (.i32 6) := by
  have hbody : clobber.lower scope function.frame nested.opened = .ok _ _ := rfl
  obtain ⟨code, st', hlower, -, hruns⟩ := Expr.mark_of_bracket hbody rfl (by decide +kernel)
  obtain ⟨m', hexec⟩ := of_runsNested hlower (by decide +kernel)
  obtain ⟨⟨w, hw, hw'⟩, hslots⟩ := hruns inst 4 hexec
  have hmark : nestedMachine.memory.mark = some 128 := by decide +kernel
  refine ⟨code, st', m', hlower, hexec, ?_, hslots 0 (by decide)⟩
  rw [hw', ← hw, hmark]

end WasmLowering
