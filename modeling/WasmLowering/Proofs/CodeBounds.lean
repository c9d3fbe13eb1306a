/-
# Code that keeps words below bounds

A narrow value is a word with zeros above its bits, a word below a bound.  Code
is checked for bounds as it is checked for kinds: each instruction takes words
below some bounds and leaves words below others, and each local has one bound
throughout.

| instruction       | takes         | leaves                                        |
|-------------------|---------------|-----------------------------------------------|
| a constant        |               | any bound that it is below                    |
| a conjunction     | `b`, any      | `b`                                           |
| a disjunction     | `2`, `2`      | `2`                                           |
| a comparison      | any, any      | `2`                                           |
| a load            | any           | the bound of the bytes that are read          |
| a local, a global |               | its bound                                     |
| a call            | the bounds of the parameters | those of the results           |
| anything else     | any           | none                                          |

A run that keeps its locals below their bounds goes on doing so
(`Code.HasBounds.keeps`), provided that the globals and the functions that are
called keep what is declared of them.
-/

import Mathlib.Data.List.Forall2
import WasmLowering.Proofs.Effects

namespace WasmLowering

/-- A number that a word stays below, if there is one. -/
abbrev Bound := Option Nat

/-- A word stays below a bound. -/
def Value.Below (v : Value) (b : Bound) : Prop := ∀ n ∈ b, v.toNat < n

/-- Every word stays below no bound. -/
theorem Value.below_none (v : Value) : v.Below none := by
  rintro n ⟨⟩

/-- The bound of a width that is narrower than its word, `bool` included. -/
def Width.bound (w : Width) : Bound := if w.bits < 32 then some w.modulus else none

/-- The declared widths of a function. -/
structure FuncWidths where
  params : List Width
  results : List Width
  deriving DecidableEq, Repr

/-- The declared widths of what code may refer to, in index order. -/
structure Declared where
  functions : List FuncWidths
  globals : List Width
  deriving DecidableEq, Repr

namespace Wasm

/-- The bound of what a load reads. -/
def LoadOp.bound : LoadOp → Bound
  | byte => some 256
  | half => some 65536
  | word32 | word64 => none

/-! ## Bounds of code -/

/-- An instruction that looks at words only takes words below some bounds, topmost first, and leaves others. -/
inductive Plain.HasBounds : Plain → (takes leaves : List Bound) → Prop
  | const {v : Value} {b : Bound} {bs : List Bound} : v.Below b → HasBounds (.const v) bs (b :: bs)
  | arith {k : Kind} {op : IntOp} {b c : Bound} {bs : List Bound} :
    HasBounds (.arith k op) (b :: c :: bs) (none :: bs)
  | and {k : Kind} {b c : Bound} {bs : List Bound} : HasBounds (.arith k .and) (b :: c :: bs) (b :: bs)
  | bit {k : Kind} {op : IntOp} {bs : List Bound} :
    op = .or ∨ op = .xor → HasBounds (.arith k op) (some 2 :: some 2 :: bs) (some 2 :: bs)
  | compare {k : Kind} {rel : IntRel} {b c : Bound} {bs : List Bound} :
    HasBounds (.compare k rel) (b :: c :: bs) (some 2 :: bs)
  | convert {c : Conversion} {b : Bound} {bs : List Bound} : HasBounds (.convert c) (b :: bs) (none :: bs)
  | drop {b : Bound} {bs : List Bound} : HasBounds .drop (b :: bs) bs

mutual

/-- An instruction takes words below some bounds, topmost first, and leaves others. -/
inductive Instr.HasBounds (decl : Declared) (locals : Nat → Bound) :
    (labels : List (List Bound)) → Instr → (takes leaves : List Bound) → Prop
  | words {labels : List (List Bound)} {p : Plain} {takes leaves : List Bound} :
    p.HasBounds takes leaves → Instr.HasBounds decl locals labels (.plain p) takes leaves
  | localGet {labels : List (List Bound)} {i : Nat} {bs : List Bound} :
    Instr.HasBounds decl locals labels (.localGet i) bs (locals i :: bs)
  | localSet {labels : List (List Bound)} {i : Nat} {b : Bound} {bs : List Bound} :
    (∀ v : Value, v.Below b → v.Below (locals i)) →
      Instr.HasBounds decl locals labels (.localSet i) (b :: bs) bs
  | localTee {labels : List (List Bound)} {i : Nat} {b : Bound} {bs : List Bound} :
    (∀ v : Value, v.Below b → v.Below (locals i)) →
      Instr.HasBounds decl locals labels (.localTee i) (b :: bs) (b :: bs)
  | globalGet {labels : List (List Bound)} {i : Nat} {w : Width} {bs : List Bound} :
    decl.globals[i]? = some w → Instr.HasBounds decl locals labels (.globalGet i) bs (w.bound :: bs)
  | load {labels : List (List Bound)} {op : LoadOp} {arg : MemArg} {b : Bound} {bs : List Bound} :
    Instr.HasBounds decl locals labels (.load op arg) (b :: bs) (op.bound :: bs)
  | store {labels : List (List Bound)} {op : StoreOp} {arg : MemArg} {b c : Bound} {bs : List Bound} :
    Instr.HasBounds decl locals labels (.store op arg) (b :: c :: bs) bs
  | call {labels : List (List Bound)} {i : Nat} {t : FuncWidths} {bs : List Bound} :
    decl.functions[i]? = some t →
      Instr.HasBounds decl locals labels (.call i) ((t.params.map Width.bound).reverse ++ bs)
        ((t.results.map Width.bound).reverse ++ bs)
  | br {labels : List (List Bound)} {d : Nat} {label bs leaves : List Bound} :
    labels[d]? = some label → Instr.HasBounds decl locals labels (.br d) (label ++ bs) leaves
  | cond {labels : List (List Bound)} {result : Option Kind} {first second : Code} {b : Bound}
      {results bs : List Bound} : results.length = result.toList.length →
    Code.HasBounds decl locals (results :: labels) first [] results →
      Code.HasBounds decl locals (results :: labels) second [] results →
      Instr.HasBounds decl locals labels (.cond result first second) (b :: bs) (results ++ bs)
  | loop {labels : List (List Bound)} {body : Code} {bs : List Bound} :
    Code.HasBounds decl locals ([] :: labels) body [] [] →
      Instr.HasBounds decl locals labels (.loop body) bs bs

/-- Code takes words below some bounds and leaves others.  It may be given words below narrower bounds. -/
inductive Code.HasBounds (decl : Declared) (locals : Nat → Bound) :
    (labels : List (List Bound)) → Code → (takes leaves : List Bound) → Prop
  | nil {labels : List (List Bound)} {bs : List Bound} : Code.HasBounds decl locals labels [] bs bs
  | cons {labels : List (List Bound)} {i : Instr} {is : Code} {takes mid leaves : List Bound} :
    Instr.HasBounds decl locals labels i takes mid → Code.HasBounds decl locals labels is mid leaves →
      Code.HasBounds decl locals labels (i :: is) takes leaves
  | weaken {labels : List (List Bound)} {code : Code} {b c : Bound} {bs leaves : List Bound} :
    (∀ v : Value, v.Below b → v.Below c) → Code.HasBounds decl locals labels code (c :: bs) leaves →
      Code.HasBounds decl locals labels code (b :: bs) leaves

end

variable {decl : Declared} {locals : Nat → Bound} {labels : List (List Bound)}

namespace Code.HasBounds

theorem single {i : Instr} {takes leaves : List Bound} (h : Instr.HasBounds decl locals labels i takes leaves) :
    Code.HasBounds decl locals labels [i] takes leaves :=
  .cons h .nil

/-- **Code is put together.** -/
theorem append {second : Code} {leaves : List Bound} :
    ∀ {first : Code} {takes mid : List Bound}, Code.HasBounds decl locals labels first takes mid →
      Code.HasBounds decl locals labels second mid leaves →
      Code.HasBounds decl locals labels (first ++ second) takes leaves
  | _, _, _, .nil, h => h
  | _, _, _, .cons hi his, h => .cons hi (his.append h)
  | _, _, _, .weaken hle hfirst, h => .weaken hle (hfirst.append h)

/-- **Code is taken apart** at any place. -/
theorem split {second : Code} {leaves : List Bound} :
    ∀ {code : Code} {takes : List Bound}, Code.HasBounds decl locals labels code takes leaves →
      ∀ {first : Code}, code = first ++ second →
      ∃ mid, Code.HasBounds decl locals labels first takes mid ∧
        Code.HasBounds decl locals labels second mid leaves
  | _, takes, .nil, first, hcode => by
    obtain ⟨rfl, rfl⟩ := List.append_eq_nil_iff.1 hcode.symm
    exact ⟨takes, .nil, .nil⟩
  | _, takes, .cons hi his, [], hcode => by
    subst hcode
    exact ⟨takes, .nil, .cons hi his⟩
  | _, _, .cons hi his, _ :: _, hcode => by
    obtain ⟨rfl, htail⟩ := List.cons.inj hcode
    obtain ⟨mid, hfirst, hsecond⟩ := his.split htail
    exact ⟨mid, .cons hi hfirst, hsecond⟩
  | _, _, .weaken hle h, _, hcode => by
    obtain ⟨mid, hfirst, hsecond⟩ := h.split hcode
    exact ⟨mid, .weaken hle hfirst, hsecond⟩

end Code.HasBounds

/-! ## Machines within bounds -/

/-- The locals of a machine stay below their bounds, and so do its words above those that are left alone. -/
structure Machine.Bounded (locals : Nat → Bound) (bs : List Bound) (rest : List Value) (m : Machine) :
    Prop where
  locals : ∀ (i : Nat) (v : Value), m.locals[i]? = some v → v.Below (locals i)
  stack : ∃ ws, m.stack = ws ++ rest ∧ List.Forall₂ Value.Below ws bs

namespace Machine.Bounded

variable {b : Bound} {bs : List Bound} {rest : List Value} {m : Machine}

/-- **The topmost word** is there, below its bound. -/
theorem top (hm : m.Bounded locals (b :: bs) rest) :
    ∃ v ws, m.stack = v :: (ws ++ rest) ∧ v.Below b ∧ List.Forall₂ Value.Below ws bs := by
  obtain ⟨-, ws, hstack, hws⟩ := hm
  rcases hws with _ | ⟨hv, hws⟩
  exact ⟨_, _, hstack, hv, hws⟩

/-- **A word is put** on top of those that are there. -/
theorem push (hm : m.Bounded locals bs rest) {v : Value} (hv : v.Below b) :
    Machine.Bounded locals (b :: bs) rest { m with stack := v :: m.stack } := by
  obtain ⟨hlocals, ws, hstack, hws⟩ := hm
  refine ⟨hlocals, v :: ws, ?_, .cons hv hws⟩
  show v :: m.stack = v :: (ws ++ rest)
  rw [hstack]

/-- **The words on top** are there, below their bounds. -/
theorem take {cs : List Bound} (hm : m.Bounded locals (bs ++ cs) rest) :
    ∃ us ws, m.stack = us ++ (ws ++ rest) ∧ List.Forall₂ Value.Below us bs ∧
      List.Forall₂ Value.Below ws cs := by
  obtain ⟨-, ws, hstack, hws⟩ := hm
  refine ⟨ws.take bs.length, ws.drop bs.length, ?_, List.forall₂_take_append ws bs cs hws,
    List.forall₂_drop_append ws bs cs hws⟩
  rw [← List.append_assoc, List.take_append_drop, hstack]

/-- **The arguments on top,** the last one topmost, are below their bounds. -/
theorem args {cs : List Bound} (hm : m.Bounded locals (bs.reverse ++ cs) rest) {vs below : List Value}
    (hlength : vs.length = bs.length) (hstack : m.stack = vs.reverse ++ below) :
    List.Forall₂ Value.Below vs bs := by
  obtain ⟨us, ws, hus, hbelow, -⟩ := hm.take
  have hsame : us = vs.reverse := by
    refine List.append_inj_left (hus.symm.trans hstack) ?_
    rw [hbelow.length_eq, List.length_reverse, List.length_reverse, hlength]
  rw [← List.forall₂_reverse_iff, ← hsame]
  exact hbelow

/-- **A local is set** to a word below its bound. -/
theorem set (hm : m.Bounded locals bs rest) {i : Nat} {v : Value} (hv : v.Below (locals i)) (j : Nat)
    (w : Value) (hw : (m.locals.set i v)[j]? = some w) : w.Below (locals j) := by
  by_cases hij : i = j
  · subst hij
    rw [List.getElem?_set] at hw
    simp only [if_true] at hw
    split at hw
    · cases hw
      exact hv
    · cases hw
  · rw [List.getElem?_set_ne hij] at hw
    exact hm.locals j w hw

end Machine.Bounded

/-- **The first instruction of code** finds what it takes. -/
theorem Code.HasBounds.head :
    ∀ {code : Code} {takes leaves : List Bound}, Code.HasBounds decl locals labels code takes leaves →
      ∀ {i : Instr} {is : Code}, code = i :: is → ∃ takes' mid, Instr.HasBounds decl locals labels i takes' mid ∧
        ∀ (m : Machine) (rest : List Value), m.Bounded locals takes rest → m.Bounded locals takes' rest
  | _, _, _, .cons hi _, _, _, hcode => by
    obtain ⟨rfl, rfl⟩ := List.cons.inj hcode
    exact ⟨_, _, hi, fun _ _ hm => hm⟩
  | _, _, _, .weaken hle h, _, _, hcode => by
    obtain ⟨takes', mid, hi, htakes⟩ := h.head hcode
    refine ⟨takes', mid, hi, fun m rest hm => htakes m rest ?_⟩
    obtain ⟨v, ws, hstack, hv, hws⟩ := hm.top
    exact ⟨hm.locals, v :: ws, hstack, .cons (hle v hv) hws⟩

section First

variable {code : Code} {takes leaves : List Bound}

/-- **The arms of a conditional** leave the same. -/
theorem Code.HasBounds.arms {result : Option Kind} {first second : Code}
    (h : Code.HasBounds decl locals labels (.cond result first second :: code) takes leaves) :
    ∃ results, Code.HasBounds decl locals (results :: labels) first [] results ∧
      Code.HasBounds decl locals (results :: labels) second [] results := by
  obtain ⟨_, _, hcond, -⟩ := h.head rfl
  cases hcond with
  | cond _ hfirst hsecond => exact ⟨_, hfirst, hsecond⟩

/-- **The body of a loop** takes and leaves nothing. -/
theorem Code.HasBounds.body {body : Code}
    (h : Code.HasBounds decl locals labels (.loop body :: code) takes leaves) :
    Code.HasBounds decl locals ([] :: labels) body [] [] := by
  obtain ⟨_, _, hloop, -⟩ := h.head rfl
  cases hloop with
  | loop hbody => exact hbody

/-- **A call** takes its arguments. -/
theorem Code.HasBounds.callee {i : Nat}
    (h : Code.HasBounds decl locals labels (.call i :: code) takes leaves) :
    ∃ s bs, decl.functions[i]? = some s ∧ ∀ (m : Machine) (rest : List Value), m.Bounded locals takes rest →
      m.Bounded locals ((s.params.map Width.bound).reverse ++ bs) rest := by
  obtain ⟨_, _, hcall, htakes⟩ := h.head rfl
  cases hcall with
  | call hs => exact ⟨_, _, hs, htakes⟩

end First

/-- How a run of code with bounds may end. -/
def Outcome.Bounded (locals : Nat → Bound) (labels : List (List Bound)) (leaves : List Bound)
    (rest : List Value) : Outcome → Prop
  | .next m => m.Bounded locals leaves rest
  | .branch d m => ∃ label, labels[d]? = some label ∧ ∃ below, m.Bounded locals label below
  | .halt _ => True

namespace Outcome.Bounded

variable {leaves bs : List Bound} {rest : List Value}

/-- **A step that cannot branch** is looked at where it goes on. -/
theorem ofExcept {x : Except Halt Machine} (h : ∀ m, x = .ok m → m.Bounded locals leaves rest) :
    (Outcome.ofExcept x).Bounded locals labels leaves rest := by
  rcases x with _ | m
  · trivial
  · exact h m rfl

/-- **Runs within bounds go on within bounds.** -/
theorem andThen {mid : List Bound} {o : Outcome} {f : Machine → Outcome}
    (h : o.Bounded locals labels mid rest)
    (hf : ∀ m, m.Bounded locals mid rest → (f m).Bounded locals labels leaves rest) :
    (o.andThen f).Bounded locals labels leaves rest := by
  rcases o with m | ⟨d, m⟩ | cause
  · exact hf m h
  · exact h
  · trivial

/-- **A block that is left** leaves its results above the words that it hid. -/
theorem leave {results : List Bound} {ws : List Value} {o : Outcome}
    (h : o.Bounded locals (results :: labels) results []) (hws : List.Forall₂ Value.Below ws bs) :
    (o.leave results.length (ws ++ rest)).Bounded locals labels (results ++ bs) rest := by
  rcases o with m | ⟨_ | d, m⟩ | cause
  · obtain ⟨hlocals, vs, hstack, hvs⟩ := h
    refine ⟨hlocals, vs ++ ws, ?_, List.rel_append hvs hws⟩
    show m.stack ++ (ws ++ rest) = _
    rw [hstack, List.append_nil, List.append_assoc]
  · obtain ⟨_, ⟨⟩, below, hlocals, vs, hstack, hvs⟩ := h
    refine ⟨hlocals, vs ++ ws, ?_, List.rel_append hvs hws⟩
    show m.stack.take results.length ++ (ws ++ rest) = _
    rw [hstack, ← hvs.length_eq, List.take_left, List.append_assoc]
  · exact h
  · trivial

/-- **A loop stays within bounds if its rounds do.** -/
theorem iterate {body : Machine → Outcome} {ws : List Value} (hws : List.Forall₂ Value.Below ws bs)
    (hbody : ∀ m : Machine, m.Bounded locals [] [] → (body m).Bounded locals ([] :: labels) [] [])
    (fuel : Nat) {m : Machine} (hlocals : ∀ (i : Nat) (v : Value), m.locals[i]? = some v → v.Below (locals i)) :
    (Outcome.iterate body (ws ++ rest) fuel m).Bounded locals labels bs rest := by
  induction fuel generalizing m with
  | zero => trivial
  | succ fuel ih =>
    have hround := hbody { m with stack := [] } ⟨hlocals, [], rfl, .nil⟩
    have hleave : ((body { m with stack := [] }).leave 0 (ws ++ rest)).Bounded locals labels bs rest :=
      leave hround hws
    rw [Outcome.iterate]
    split
    · rename_i m' hbranch
      rw [hbranch] at hround
      obtain ⟨_, -, _, hm⟩ := hround
      exact ih hm.locals
    · exact hleave

end Outcome.Bounded

/-! ## Words within bounds -/

/-- **A conjunction is below the bound of a factor.** -/
theorem IntOp.below_and {k : Kind} {a b v : Value} {bound : Bound} (hb : b.Below bound)
    (h : IntOp.and.apply k a b = .ok v) : v.Below bound := by
  intro n hn
  refine Nat.lt_of_le_of_lt ?_ (hb n hn)
  cases k <;> cases a <;> cases b <;> cases h <;>
    exact Nat.le_trans (Nat.le_of_eq (BitVec.toNat_and ..)) Nat.and_le_right

/-- **Of two bits, a disjunction is a bit,** exclusive or not. -/
theorem IntOp.below_or {k : Kind} {op : IntOp} (hop : op = .or ∨ op = .xor) {a b v : Value}
    (ha : a.Below (some 2)) (hb : b.Below (some 2)) (h : op.apply k a b = .ok v) : v.Below (some 2) := by
  have ha := ha 2 rfl
  have hb := hb 2 rfl
  rintro _ ⟨⟩
  rcases hop with rfl | rfl <;> cases k <;> cases a <;> cases b <;> cases h
  · exact Nat.lt_of_le_of_lt (Nat.le_of_eq (BitVec.toNat_or ..)) (Nat.or_lt_two_pow (n := 1) ha hb)
  · exact Nat.lt_of_le_of_lt (Nat.le_of_eq (BitVec.toNat_or ..)) (Nat.or_lt_two_pow (n := 1) ha hb)
  · exact Nat.lt_of_le_of_lt (Nat.le_of_eq (BitVec.toNat_xor ..)) (Nat.xor_lt_two_pow (n := 1) ha hb)
  · exact Nat.lt_of_le_of_lt (Nat.le_of_eq (BitVec.toNat_xor ..)) (Nat.xor_lt_two_pow (n := 1) ha hb)

/-- **A comparison gives a bit.** -/
theorem IntRel.below_apply {k : Kind} {rel : IntRel} {a b v : Value} (h : rel.apply k a b = .ok v) :
    v.Below (some 2) := by
  have htruth : ∀ c : Bool, (truth c).Below (some 2) := by
    rintro c _ ⟨⟩
    cases c <;> decide
  cases k <;> cases a <;> cases b <;> cases h
  · exact htruth _
  · exact htruth _

/-- **A load reads a number of its bytes.** -/
theorem LoadOp.below_load {op : LoadOp} {memory : Memory} {a n : Nat} (h : memory.load op.size a = some n) :
    (Value.ofNat op.kind n).Below op.bound := by
  unfold Memory.load at h
  split at h
  · cases h
    have hlt := memory.read_lt op.size a
    intro bound hbound
    rw [Value.toNat_ofNat]
    refine Nat.lt_of_le_of_lt (Nat.mod_le _ _) ?_
    cases op <;> cases hbound <;> exact hlt
  · cases h

/-! ## Instructions within bounds -/

section Steps

variable {leaves bs : List Bound} {rest : List Value} {m m' : Machine} {globals : List Value}

/-- **An instruction on words stays within bounds.** -/
theorem Plain.HasBounds.onWords {p : Plain} {takes : List Bound} {ws out : List Value}
    (h : p.HasBounds takes leaves) (hws : List.Forall₂ Value.Below ws takes)
    (hp : p.onWords (ws ++ rest) = .ok out) :
    ∃ ws', out = ws' ++ rest ∧ List.Forall₂ Value.Below ws' leaves := by
  rcases h with hv | _ | _ | hop | _ | _ | _
  · cases hp
    exact ⟨_ :: ws, rfl, .cons hv hws⟩
  · rcases hws with _ | ⟨hb, _ | ⟨ha, hws⟩⟩
    obtain ⟨v, hv, rfl⟩ := ok_of_map hp
    exact ⟨v :: _, rfl, .cons v.below_none hws⟩
  · rcases hws with _ | ⟨hb, _ | ⟨ha, hws⟩⟩
    obtain ⟨v, hv, rfl⟩ := ok_of_map hp
    exact ⟨v :: _, rfl, .cons (IntOp.below_and hb hv) hws⟩
  · rcases hws with _ | ⟨hb, _ | ⟨ha, hws⟩⟩
    obtain ⟨v, hv, rfl⟩ := ok_of_map hp
    exact ⟨v :: _, rfl, .cons (IntOp.below_or hop ha hb hv) hws⟩
  · rcases hws with _ | ⟨hb, _ | ⟨ha, hws⟩⟩
    obtain ⟨v, hv, rfl⟩ := ok_of_map hp
    exact ⟨v :: _, rfl, .cons (IntRel.below_apply hv) hws⟩
  · rcases hws with _ | ⟨ha, hws⟩
    obtain ⟨v, hv, rfl⟩ := ok_of_map hp
    exact ⟨v :: _, rfl, .cons v.below_none hws⟩
  · rcases hws with _ | ⟨ha, hws⟩
    cases hp
    exact ⟨_, rfl, hws⟩

theorem Plain.HasBounds.step {p : Plain} {takes : List Bound} (h : p.HasBounds takes leaves)
    (hm : m.Bounded locals takes rest) (hp : p.step globals m = .ok m') : m'.Bounded locals leaves rest := by
  have hstep : p.step globals m = (p.onWords m.stack).map fun ws => { m with stack := ws } := by
    cases h <;> rfl
  obtain ⟨hlocals, ws, hstack, hws⟩ := hm
  rw [hstep, hstack] at hp
  obtain ⟨out, hout, rfl⟩ := ok_of_map hp
  obtain ⟨ws', rfl, hws'⟩ := h.onWords hws hout
  exact ⟨hlocals, ws', rfl, hws'⟩

/-- **A load stays within bounds.** -/
theorem Plain.bounded_load {op : LoadOp} {arg : MemArg} {b : Bound} (hm : m.Bounded locals (b :: bs) rest)
    (h : (Plain.load op arg).step globals m = .ok m') : m'.Bounded locals (op.bound :: bs) rest := by
  obtain ⟨v, ws, hstack, -, hws⟩ := hm.top
  rcases v with a | a
  · rw [Plain.step_load hstack] at h
    obtain ⟨n, hn, rfl⟩ := ok_of_map h
    exact ⟨hm.locals, _ :: ws, rfl, .cons (LoadOp.below_load (some_of_orTrap hn)) hws⟩
  · rw [Plain.step, hstack] at h
    cases h

/-- **A store stays within bounds.** -/
theorem Plain.bounded_store {op : StoreOp} {arg : MemArg} {b c : Bound}
    (hm : m.Bounded locals (b :: c :: bs) rest) (h : (Plain.store op arg).step globals m = .ok m') :
    m'.Bounded locals bs rest := by
  obtain ⟨v, ws, hstack, -, hws⟩ := hm.top
  obtain ⟨_, _, _, hstack', -, -, hlocals, hrest⟩ := Plain.step_store_eq_ok h
  rcases hws with _ | ⟨_, hws⟩
  rw [hstack] at hstack'
  obtain ⟨-, htail⟩ := List.cons.inj hstack'
  obtain ⟨-, hbelow⟩ := List.cons.inj htail
  refine ⟨?_, _, hrest.trans hbelow.symm, hws⟩
  rw [hlocals]
  exact hm.locals

end Steps

/-- An instance keeps what is declared: its functions have the declared parameters, its globals are below
their bounds, and calls leave results below theirs if they are given arguments below theirs. -/
structure Instance.Keeps (decl : Declared) {spaces : IndexSpaces} (inst : Instance spaces) : Prop where
  arity {i : Nat} {t : FuncType} {s : FuncWidths} :
    spaces.functions[i]? = some t → decl.functions[i]? = some s → t.params.length = s.params.length
  globals {i : Nat} {v : Value} {w : Width} :
    inst.globals[i]? = some v → decl.globals[i]? = some w → v.Below w.bound
  call {i : Nat} {s : FuncWidths} {args results : List Value} {before after : Memory} :
    decl.functions[i]? = some s → List.Forall₂ Value.Below args (s.params.map Width.bound) →
      inst.call i args before = .ok (results, after) →
      List.Forall₂ Value.Below results (s.results.map Width.bound)

variable {spaces : IndexSpaces} {inst : Instance spaces}

/-- **A call stays within bounds.** -/
theorem Instance.Keeps.bounded_call (hi : inst.Keeps decl) {i : Nat} {s : FuncWidths} {bs : List Bound}
    {rest : List Value} {m m' : Machine} (hs : decl.functions[i]? = some s)
    (hm : m.Bounded locals ((s.params.map Width.bound).reverse ++ bs) rest) (h : m.call inst i = .ok m') :
    m'.Bounded locals ((s.results.map Width.bound).reverse ++ bs) rest := by
  obtain ⟨args, ws, hstack, hargs, hws⟩ := hm.take
  have hbelow : List.Forall₂ Value.Below args.reverse (s.params.map Width.bound) := by
    rw [← List.forall₂_reverse_iff, List.reverse_reverse]
    exact hargs
  cases ht : spaces.functions[i]? with
  | none =>
    rw [Machine.call, ht] at h
    cases h
  | some t =>
    have hlength : t.params.length = args.reverse.length := by
      rw [hi.arity ht hs, hbelow.length_eq, List.length_map]
    have hargs' : m.stack = args.reverse.reverse ++ (ws ++ rest) := by
      rw [List.reverse_reverse, hstack]
    rw [Machine.call_eq inst ht hlength hargs'] at h
    obtain ⟨⟨results, after⟩, hcall, rfl⟩ := ok_of_map h
    have hresults := hi.call hs hbelow hcall
    exact ⟨hm.locals, results.reverse ++ ws, (List.append_assoc ..).symm,
      List.rel_append (List.forall₂_reverse_iff.2 hresults) hws⟩

mutual

/-- **An instruction with bounds keeps them.** -/
theorem Instr.HasBounds.keeps (hinst : inst.Keeps decl) (fuel : Nat) :
    ∀ {labels : List (List Bound)} {i : Instr} {takes leaves : List Bound} {rest : List Value} {m : Machine},
      Instr.HasBounds decl locals labels i takes leaves → m.Bounded locals takes rest →
      (i.exec inst fuel m).Bounded locals labels leaves rest
  | _, _, _, _, _, _, .words h, hm => by
    rw [Instr.exec]
    exact .ofExcept fun m' hm' => h.step hm hm'
  | _, _, _, _, _, m, .localGet, hm => by
    rw [Instr.exec]
    refine .ofExcept fun m' hm' => ?_
    obtain ⟨v, hv, rfl⟩ := Plain.step_localGet_eq_ok hm'
    exact hm.push (hm.locals _ v hv)
  | _, _, _, _, _, _, .localSet h, hm => by
    rw [Instr.exec]
    refine .ofExcept fun m' hm' => ?_
    obtain ⟨v, ws, hstack, hv, hws⟩ := hm.top
    obtain ⟨_, _, hstack', -, rfl⟩ := Plain.step_localSet_eq_ok hm'
    rw [hstack] at hstack'
    obtain ⟨rfl, rfl⟩ := List.cons.inj hstack'
    exact ⟨hm.set (h v hv), ws, rfl, hws⟩
  | _, _, _, _, _, _, .localTee h, hm => by
    rw [Instr.exec]
    refine .ofExcept fun m' hm' => ?_
    obtain ⟨v, ws, hstack, hv, hws⟩ := hm.top
    rw [Plain.step, hstack] at hm'
    simp only at hm'
    split at hm'
    · cases hm'
      exact ⟨hm.set (h v hv), v :: ws, rfl, .cons hv hws⟩
    · cases hm'
  | _, _, _, _, _, _, .globalGet h, hm => by
    rw [Instr.exec]
    refine .ofExcept fun m' hm' => ?_
    rw [Plain.step] at hm'
    split at hm'
    · rename_i v hv
      cases hm'
      exact hm.push (hinst.globals hv h)
    · cases hm'
  | _, _, _, _, _, _, .load, hm => by
    rw [Instr.exec]
    exact .ofExcept fun m' hm' => Plain.bounded_load hm hm'
  | _, _, _, _, _, _, .store, hm => by
    rw [Instr.exec]
    exact .ofExcept fun m' hm' => Plain.bounded_store hm hm'
  | _, _, _, _, _, _, .call hs, hm => by
    rw [Instr.exec]
    exact .ofExcept fun m' hm' => hinst.bounded_call hs hm hm'
  | _, _, _, _, _, _, .br h, hm => by
    obtain ⟨us, ws, hstack, hus, -⟩ := hm.take
    rw [Instr.exec]
    exact ⟨_, h, ws ++ _, hm.locals, us, hstack, hus⟩
  | _, _, _, _, _, m, .cond hlength hfirst hsecond, hm => by
    obtain ⟨v, ws, hstack, -, hws⟩ := hm.top
    rcases v with c | c
    · rw [Instr.exec_cond inst hstack, ← hlength]
      refine .leave ?_ hws
      split
      · exact hsecond.keeps hinst fuel ⟨hm.locals, [], rfl, .nil⟩
      · exact hfirst.keeps hinst fuel ⟨hm.locals, [], rfl, .nil⟩
    · rw [Instr.exec, hstack]
      trivial
  | _, _, _, _, _, _, .loop hbody, hm => by
    obtain ⟨hlocals, ws, hstack, hws⟩ := hm
    rw [Instr.exec, hstack]
    exact .iterate hws (fun m hm => hbody.keeps hinst fuel hm) fuel hlocals

/-- **Code with bounds keeps them.**  The locals stay below theirs, and the words that it leaves are below
theirs, above those that it was not given. -/
theorem Code.HasBounds.keeps (hinst : inst.Keeps decl) (fuel : Nat) :
    ∀ {labels : List (List Bound)} {code : Code} {takes leaves : List Bound} {rest : List Value} {m : Machine},
      Code.HasBounds decl locals labels code takes leaves → m.Bounded locals takes rest →
      (Code.exec inst fuel code m).Bounded locals labels leaves rest
  | _, _, _, _, _, _, .nil, hm => hm
  | _, _, _, _, _, _, .cons hi his, hm => by
    rw [Code.exec]
    exact (hi.keeps hinst fuel hm).andThen fun m hm => his.keeps hinst fuel hm
  | _, _, _, _, _, _, .weaken hle h, hm => by
    obtain ⟨v, ws, hstack, hv, hws⟩ := hm.top
    exact h.keeps hinst fuel ⟨hm.locals, v :: ws, hstack, .cons (hle v hv) hws⟩

end

end Wasm
end WasmLowering
