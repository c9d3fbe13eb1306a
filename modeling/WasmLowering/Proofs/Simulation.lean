/-
# Emitted code does what the expression means

The machine runs the code of an expression in step with its evaluation: from
related states both halt for the same cause or both go on, the machine with the
value of the expression on top of its stack, and to related states again.

| of the evaluation  | on the machine                                |
|--------------------|-----------------------------------------------|
| variable `i`       | local `Frame.localIndex i`                    |
| saved mark `i`     | local `Frame.slot i`                          |
| memory             | memory                                        |
|                    | scratch registers: anything                   |
|                    | words below on the stack: anything, kept      |

Code is put together from pieces that take some words from the stack and leave
others, so `Implements` says of a piece of code and a computation that they do
the same; it is closed under sequencing (`Implements.bind`) and keeps the words
below those it takes (`Implements.below`).
-/

import WasmLowering.Proofs.Evaluation
import WasmLowering.Proofs.Kinding
import WasmLowering.Proofs.Lowering

namespace WasmLowering

open Wasm

/-! ## Related states -/

/-- The locals of a running function: its frame, the kinds of its variables and the number of its frame
slots. -/
structure Shape where
  frame : Frame
  kinds : List Kind
  slots : Nat

/-- A machine holds a store in which so many frames are open. -/
structure Related (shape : Shape) (depth : Nat) (s : Store) (m : Machine) : Prop where
  memory : m.memory = s.memory
  kinds : s.vars.map Value.kind = shape.kinds
  locals : m.locals.length = shape.frame.slot shape.slots
  var {i j : Nat} {v : Value} :
    s.vars[i]? = some v → shape.frame.localIndex i = .ok j → m.locals[j]? = some v
  depth : s.marks.length = depth
  mark {i : Nat} {w : BitVec 32} :
    s.marks[i]? = some w → m.locals[shape.frame.slot i]? = some (.i32 w)

namespace Related

variable {shape : Shape} {depth : Nat} {s : Store} {m : Machine}

/-- **The stack does not matter.** -/
theorem withStack (h : Related shape depth s m) (ws : List Value) :
    Related shape depth s { m with stack := ws } :=
  ⟨h.memory, h.kinds, h.locals, h.var, h.depth, h.mark⟩

/-- **Memories change together.** -/
theorem withMemory (h : Related shape depth s m) (memory : Memory) :
    Related shape depth { s with memory } { m with memory } :=
  ⟨rfl, h.kinds, h.locals, h.var, h.depth, h.mark⟩

/-- **Scratch registers do not matter.** -/
theorem withScratch (h : Related shape depth s m) {r : Nat} (hr : r < 3) (v : Value) :
    Related shape depth s { m with locals := m.locals.set (shape.frame.args + r) v } where
  memory := h.memory
  kinds := h.kinds
  locals := by
    rw [List.length_set]
    exact h.locals
  var hv hj := by
    have := Frame.localIndex_eq_ok hj
    rw [List.getElem?_set_ne (by omega)]
    exact h.var hv hj
  depth := h.depth
  mark hw := by
    rw [List.getElem?_set_ne (by rw [Frame.slot_eq]; omega)]
    exact h.mark hw

/-- **A variable is written in its local.** -/
theorem withVar (h : Related shape depth s m) {i j : Nat} {v : Value} (hi : i < s.vars.length)
    (hj : shape.frame.localIndex i = .ok j) (hk : shape.kinds[i]? = some v.kind) :
    Related shape depth { s with vars := s.vars.set i v } { m with locals := m.locals.set j v } where
  memory := h.memory
  kinds := by
    obtain ⟨_, hv⟩ := List.getElem?_eq_some_iff.1 hk
    rw [List.map_set, h.kinds, ← hv, List.set_getElem_self]
  locals := by
    rw [List.length_set]
    exact h.locals
  var {i' j' v'} hv hj' := by
    have hlt : j < m.locals.length := by
      rw [h.locals]
      exact Frame.localIndex_lt_slot hj _
    by_cases hi' : i = i'
    · subst hi'
      rw [hj] at hj'
      cases hj'
      rw [List.getElem?_set_self hi] at hv
      rw [List.getElem?_set_self hlt, hv]
    · have hne : j ≠ j' := by
        rintro rfl
        exact hi' (Frame.localIndex_injective hj hj')
      rw [List.getElem?_set_ne hi'] at hv
      rw [List.getElem?_set_ne hne]
      exact h.var hv hj'
  depth := h.depth
  mark {i' w} hw := by
    rw [List.getElem?_set_ne (Nat.ne_of_lt (Frame.localIndex_lt_slot hj i'))]
    exact h.mark hw

/-- **A new mark is saved in the next slot.** -/
theorem openFrame (h : Related shape depth s m) (hd : depth < shape.slots) (w : BitVec 32) :
    Related shape (depth + 1) { s with marks := s.marks ++ [w] }
      { m with locals := m.locals.set (shape.frame.slot depth) (.i32 w) } where
  memory := h.memory
  kinds := h.kinds
  locals := by
    rw [List.length_set]
    exact h.locals
  var {i j v} hv hj := by
    rw [List.getElem?_set_ne (Nat.ne_of_gt (Frame.localIndex_lt_slot hj depth))]
    exact h.var hv hj
  depth := by
    rw [List.length_append, h.depth]
    rfl
  mark {i w'} hw := by
    have hlt : shape.frame.slot depth < m.locals.length := by
      rw [h.locals, Frame.slot_eq, Frame.slot_eq]
      omega
    by_cases hi : i = depth
    · subst hi
      rw [← h.depth, List.getElem?_append_right (Nat.le_refl _), Nat.sub_self] at hw
      cases hw
      rw [List.getElem?_set_self hlt]
    · have hi' : i < s.marks.length := by
        have := (List.getElem?_eq_some_iff.1 hw).1
        rw [List.length_append, List.length_singleton] at this
        rw [h.depth] at this ⊢
        omega
      rw [List.getElem?_append_left hi'] at hw
      rw [List.getElem?_set_ne (by rw [Frame.slot_eq, Frame.slot_eq]; omega)]
      exact h.mark hw

/-- **The last mark is forgotten.** -/
theorem closeFrame (h : Related shape (depth + 1) s m) :
    Related shape depth { s with marks := s.marks.dropLast } m where
  memory := h.memory
  kinds := h.kinds
  locals := h.locals
  var := h.var
  depth := by
    rw [List.length_dropLast, h.depth]
    rfl
  mark {i w} hw := by
    rw [List.getElem?_dropLast] at hw
    split at hw
    · exact h.mark hw
    · cases hw

end Related

/-! ## Pieces of code -/

/-- A computation and a run of code end alike: both go on, or both halt for one cause. -/
inductive Agrees {α : Type} (good : α → Store → Machine → Prop) :
    Except Halt (α × Store) → Outcome → Prop
  | goes {a : α} {s : Store} {m : Machine} : good a s m → Agrees good (.ok (a, s)) (.next m)
  | halts {cause : Halt} : cause ≠ .stuck → Agrees good (.error cause) (.halt cause)

/-- **What goes on after an agreement agrees again.** -/
theorem Agrees.bind {α β : Type} {good : α → Store → Machine → Prop}
    {good' : β → Store → Machine → Prop} {x : Eval α} {f : α → Eval β} {s : Store} {o : Outcome}
    {go : Machine → Outcome} (h : Agrees good (x s) o)
    (hgo : ∀ a s m, good a s m → Agrees good' (f a s) (go m)) :
    Agrees good' ((x >>= f) s) (o.andThen go) := by
  show Agrees good' (x s >>= fun p => f p.1 p.2) _
  generalize x s = r at h
  cases h with
  | goes hg => exact hgo _ _ _ hg
  | halts hc => exact .halts hc

/-- Where code runs: the instance, the fuel, and the locals of the running function. -/
structure Site (spaces : IndexSpaces) where
  inst : Instance spaces
  fuel : Nat
  shape : Shape

section Pieces

variable {spaces : IndexSpaces} {site : Site spaces} {α β : Type}

/-- The word that a value is left as. -/
def Word (k : Kind) (v : Value) (ws : List Value) : Prop := ws = [v] ∧ v.kind = k

/-- The words that values are left as, the last one topmost. -/
def Words (ks : List Kind) (vs ws : List Value) : Prop := ws = vs.reverse ∧ vs.map Value.kind = ks

/-- The results of a call, the last one topmost, of which the first one is its value. -/
def Results (ks : List Kind) (v : Value) (ws : List Value) : Prop :=
  ∃ results : List Value, ws = results.reverse ∧ v = results.headD .unit ∧
    results.map Value.kind = ks

/-- A computation that leaves no words. -/
def NoWord (_ : Unit) (ws : List Value) : Prop := ws = []

/-- Code does what a computation does: from related states with the words `takes` on top of the stack,
they end alike, and for a result `a` there are words `ws` with `leaves a ws` in the place of `takes`. -/
def Implements (site : Site spaces) (before after : Nat) (takes : List Value) (code : Code)
    (x : Eval α) (leaves : α → List Value → Prop) : Prop :=
  ∀ (s : Store) (m : Machine) (rest : List Value), Related site.shape before s m →
    m.stack = takes ++ rest →
    Agrees (fun a s' m' => Related site.shape after s' m' ∧ ∃ ws, leaves a ws ∧ m'.stack = ws ++ rest)
      (x s) (Code.exec site.inst site.fuel code m)

namespace Implements

variable {d d₁ d₂ : Nat} {takes : List Value} {code code' : Code} {x : Eval α} {f : α → Eval β}
  {L : α → List Value → Prop} {L' : β → List Value → Prop}

/-- **Pieces in sequence do what the computations do in sequence.** -/
theorem bind (h : Implements site d d₁ takes code x L)
    (h' : ∀ a ws, L a ws → Implements site d₁ d₂ ws code' (f a) L') :
    Implements site d d₂ takes (code ++ code') (x >>= f) L' := by
  intro s m rest hr hm
  rw [Code.exec_append]
  refine (h s m rest hr hm).bind ?_
  rintro a s' m' ⟨hr', ws, hl, hm'⟩
  exact h' a ws hl s' m' rest hr' hm'

/-- **The words below are kept.** -/
theorem below (h : Implements site d d₁ takes code x L) (under : List Value) :
    Implements site d d₁ (takes ++ under) code x fun a ws => ∃ top, L a top ∧ ws = top ++ under := by
  intro s m rest hr hm
  rw [List.append_assoc] at hm
  have h := h s m (under ++ rest) hr hm
  generalize x s = r at h
  generalize Code.exec site.inst site.fuel code m = o at h
  cases h with
  | halts hc => exact .halts hc
  | goes hg =>
    obtain ⟨hr', top, hl, hm'⟩ := hg
    refine .goes ⟨hr', top ++ under, ⟨top, hl, rfl⟩, ?_⟩
    rw [hm', List.append_assoc]

/-- **Code that only moves words** comes after any other code. -/
theorem thenWords {L' : α → List Value → Prop} (h : Implements site d d₁ takes code x L)
    (hw : ∀ a ws, L a ws → ∃ moved, code'.onWords ws = .ok moved ∧ L' a moved) :
    Implements site d d₁ takes (code ++ code') x L' := by
  intro s m rest hr hm
  have h := h s m rest hr hm
  rw [Code.exec_append]
  generalize x s = r at h
  generalize Code.exec site.inst site.fuel code m = o at h
  cases h with
  | halts hc => exact .halts hc
  | goes hg =>
    obtain ⟨hr', ws, hl, hm'⟩ := hg
    obtain ⟨moved, hmoved, hl'⟩ := hw _ ws hl
    rw [Outcome.andThen, Code.exec_onWords_append site.inst site.fuel hm' hmoved]
    exact .goes ⟨hr'.withStack _, moved, hl', rfl⟩

/-- **Code that only moves words** comes before any other code. -/
theorem afterWords {moved : List Value} (hw : code.onWords takes = .ok moved)
    (h : Implements site d d₁ moved code' x L) :
    Implements site d d₁ takes (code ++ code') x L := by
  intro s m rest hr hm
  rw [Code.exec_append, Code.exec_onWords_append site.inst site.fuel hm hw]
  exact h s _ rest (hr.withStack _) rfl

/-- **A constant result:** no code leaves the words at hand. -/
theorem done {a : α} (h : L a takes) : Implements site d d takes [] (pure a) L := by
  intro s m rest hr hm
  exact .goes ⟨hr, takes, h, hm⟩

/-- **Code run for its effect** leaves the unit value. -/
theorem thenUnit {x : Eval Unit} (h : Implements site d d₁ takes code x NoWord) :
    Implements site d d₁ takes (code ++ [.unit]) (x >>= fun _ => pure .unit) (Word .i32) := by
  refine h.bind fun _ ws hws => ?_
  obtain rfl := hws
  show Implements site d₁ d₁ [] ([.unit] ++ []) _ _
  exact afterWords rfl (done ⟨rfl, rfl⟩)

/-! ## Single instructions -/

/-- **A variable is read from its local.** -/
theorem var {i j : Nat} {k : Kind} (hk : site.shape.kinds[i]? = some k)
    (hj : site.shape.frame.localIndex i = .ok j) :
    Implements site d d [] [.localGet j] (do Eval.need (← get).vars[i]?) (Word k) := by
  intro s m rest hr hm
  rw [← hr.kinds, List.getElem?_map] at hk
  obtain ⟨v, hv, rfl⟩ := Option.map_eq_some_iff.1 hk
  rw [Code.exec_plain site.inst (Plain.step_localGet (hr.var hv hj))]
  show Agrees _ (Eval.need s.vars[i]? s) _
  rw [hv]
  exact .goes ⟨hr.withStack _, [v], ⟨rfl, rfl⟩, by rw [hm]; rfl⟩

/-- **A variable is written in its local.** -/
theorem assign {i j : Nat} {v : Value} (hk : site.shape.kinds[i]? = some v.kind)
    (hj : site.shape.frame.localIndex i = .ok j) :
    Implements site d d [v] [.localSet j] (Eval.assign i v) NoWord := by
  intro s m rest hr hm
  have hi : i < s.vars.length := by
    rw [← List.length_map Value.kind, hr.kinds]
    exact (List.getElem?_eq_some_iff.1 hk).1
  have hlt : j < m.locals.length := by
    rw [hr.locals]
    exact Frame.localIndex_lt_slot hj _
  rw [Code.exec_plain site.inst (Plain.step_localSet hm hlt)]
  exact .goes ⟨(hr.withVar hi hj hk).withStack rest, [], rfl, rfl⟩

/-- **A global is read from the instance.** -/
theorem global {i : Nat} {k : Kind} (hk : spaces.globals[i]? = some k) :
    Implements site d d [] [.globalGet i] (Eval.need site.inst.globals[i]?) (Word k) := by
  intro s m rest hr hm
  rw [← site.inst.kind_globals, List.getElem?_map] at hk
  obtain ⟨v, hv, rfl⟩ := Option.map_eq_some_iff.1 hk
  rw [Code.exec_plain site.inst (Plain.step_globalGet hv), hv]
  exact .goes ⟨hr.withStack _, [v], ⟨rfl, rfl⟩, by rw [hm]; rfl⟩

/-- **Code of an operator or a cast** does what it is evaluated by. -/
theorem apply {operands : List Value} {k : Kind}
    (hk : code.onKinds (operands.map Value.kind) = some [k]) :
    Implements site d d operands code (Eval.apply code operands) (Word k) := by
  intro s m rest hr hm
  have hw := Code.delivers_onWords hk
  have hs : code.onWords operands ≠ .error .stuck := by
    obtain h | ⟨ws, h, _⟩ := hw <;> rw [h] <;> exact nofun
  have hexec : Code.exec site.inst site.fuel code m =
      .ofExcept ((code.onWords operands).map fun ws => { m with stack := ws ++ rest }) := by
    have happ := Code.onWords_append rest hs
    rw [← hm] at happ
    rw [Code.exec_onWords, happ]
    · cases code.onWords operands <;> rfl
    · rw [happ]
      obtain h | ⟨ws, h, _⟩ := hw <;> rw [h] <;> exact nofun
  rw [hexec]
  show Agrees _ ((liftM (code.onWords operands) >>= _ : Eval Value) s) _
  obtain h | ⟨ws, h, hks⟩ := hw
  · rw [h]
    exact .halts (by rintro ⟨⟩)
  · obtain ⟨v, rfl, rfl⟩ : ∃ v, ws = [v] ∧ v.kind = k := by
      obtain ⟨v, hv, hvk⟩ := List.map_eq_singleton_iff.1 hks
      exact ⟨v, hv, hvk⟩
    rw [h]
    exact .goes ⟨hr.withStack _, [v], ⟨rfl, rfl⟩, rfl⟩

/-! ## Memory -/

/-- **A load reads an element.** -/
theorem load {op : LoadOp} {arg : MemArg} (harg : arg.offset = 0) (hk : op.kind = elementKind op.size)
    (a : BitVec 32) :
    Implements site d d [.i32 a] [.load op arg] (Eval.read op.size a) (Word (elementKind op.size)) := by
  intro s m rest hr hm
  rw [Code.exec, Instr.exec, Plain.step_load hm, harg, hk, Eval.read_eq, ← hr.memory]
  cases m.memory.load op.size a.toNat with
  | none => exact .halts (by rintro ⟨⟩)
  | some n => exact .goes ⟨hr.withStack _, _, ⟨rfl, Value.kind_ofNat ..⟩, rfl⟩

/-- **A store writes an element.** -/
theorem store {op : StoreOp} {arg : MemArg} (harg : arg.offset = 0) {v : Value}
    (hk : v.kind = op.kind) (a : BitVec 32) :
    Implements site d d [v, .i32 a] [.store op arg] (Eval.write op.size a v) NoWord := by
  intro s m rest hr hm
  rw [Code.exec, Instr.exec, Plain.step_store hm hk, harg, Eval.write_eq, ← hr.memory]
  cases m.memory.store op.size a.toNat v.toNat with
  | none => exact .halts (by rintro ⟨⟩)
  | some memory => exact .goes ⟨(hr.withMemory memory).withStack _, _, rfl, rfl⟩

/-- **The mark is the first word of the memory.** -/
theorem mark : Implements site d d [] Highwater.read Eval.mark fun w ws => ws = [.i32 w] := by
  show Implements site d d [] ([.constI32 Layout.highwater] ++ [.load .word32 Highwater.arg]) _ _
  refine afterWords rfl ?_
  intro s m rest hr hm
  rw [Code.exec, Instr.exec, Plain.step_load hm, Eval.mark_eq, ← hr.memory, Memory.mark]
  show Agrees _ _ ((Outcome.ofExcept ((orTrap (m.memory.load 4 Layout.highwater)).map _)).andThen _)
  cases m.memory.load 4 Layout.highwater with
  | none => exact .halts (by rintro ⟨⟩)
  | some n => exact .goes ⟨hr.withStack _, _, rfl, rfl⟩

/-- **Swapping** changes scratch registers only. -/
theorem swap {a b : Value} (h : Implements site d d₁ [a, b] code x L) :
    Implements site d d₁ [b, a] (site.shape.frame.registers.swap ++ code) x L := by
  intro s m rest hr hm
  have hlen : site.shape.frame.args + 1 < m.locals.length := by
    rw [hr.locals, Frame.slot_eq]
    omega
  let swapped := (m.locals.set (site.shape.frame.args + 0) b).set (site.shape.frame.args + 1) a
  have hfirst : swapped[site.shape.frame.args + 0]? = some b := by
    rw [List.getElem?_set_ne (by omega), List.getElem?_set_self (by omega)]
  have hsecond : swapped[site.shape.frame.args + 1]? = some a := by
    rw [List.getElem?_set_self (by rw [List.length_set]; exact hlen)]
  have hswap : Code.exec site.inst site.fuel (site.shape.frame.registers.swap ++ code) m =
      Code.exec site.inst site.fuel code ⟨swapped, m.memory, [a, b] ++ rest⟩ := by
    refine (Code.exec_plain site.inst (Plain.step_localSet hm (Nat.lt_of_succ_lt hlen)) _).trans ?_
    refine (Code.exec_plain site.inst (Plain.step_localSet rfl ?_) _).trans ?_
    · rw [List.length_set]
      exact hlen
    refine (Code.exec_plain site.inst (Plain.step_localGet hfirst) _).trans ?_
    exact Code.exec_plain site.inst (Plain.step_localGet hsecond) _
  rw [hswap]
  exact h s _ rest (((hr.withScratch (by omega) b).withScratch (by omega) a).withStack _) rfl

/-- **Storing the mark** changes scratch registers and the memory only. -/
theorem setMark (w : BitVec 32) :
    Implements site d d [.i32 w] (Highwater.write site.shape.frame.registers) (Eval.setMark w)
      NoWord := by
  show Implements site d d [.i32 w] ([.constI32 Layout.highwater] ++
    (site.shape.frame.registers.swap ++ [.store .word32 Highwater.arg])) _ _
  refine afterWords rfl (swap ?_)
  intro s m rest hr hm
  rw [Code.exec, Instr.exec, Plain.step_store hm rfl, Eval.setMark_eq, ← hr.memory, Memory.setMark]
  show Agrees _ _
    ((Outcome.ofExcept ((orTrap (m.memory.store 4 Layout.highwater w.toNat)).map _)).andThen _)
  cases m.memory.store 4 Layout.highwater w.toNat with
  | none => exact .halts (by rintro ⟨⟩)
  | some memory => exact .goes ⟨(hr.withMemory memory).withStack _, _, rfl, rfl⟩

/-- **Opening a frame** saves the mark in the next slot. -/
theorem openFrame (hd : d < site.shape.slots) :
    Implements site d (d + 1) [] (Highwater.read ++ [.localSet (site.shape.frame.slot d)])
      Eval.openFrame NoWord := by
  refine mark.bind fun w ws hws => ?_
  obtain rfl := hws
  intro s m rest hr hm
  have hlt : site.shape.frame.slot d < m.locals.length := by
    rw [hr.locals, Frame.slot_eq, Frame.slot_eq]
    omega
  rw [Code.exec_plain site.inst (Plain.step_localSet hm hlt)]
  exact .goes ⟨(hr.openFrame hd w).withStack rest, [], rfl, rfl⟩

/-- **The mark that was saved last** is in the last slot. -/
theorem savedMark :
    Implements site (d + 1) (d + 1) [] [.localGet (site.shape.frame.slot d)]
      Eval.savedMark fun w ws => ws = [.i32 w] := by
  intro s m rest hr hm
  have hlt : d < s.marks.length := by
    rw [hr.depth]
    exact Nat.lt_succ_self d
  have hlast : s.marks.getLast? = some s.marks[d] := by
    rw [List.getLast?_eq_getElem?, hr.depth]
    exact List.getElem?_eq_getElem hlt
  rw [Code.exec_plain site.inst (Plain.step_localGet (hr.mark (List.getElem?_eq_getElem hlt)))]
  show Agrees _ (Eval.need s.marks.getLast? s) _
  rw [hlast]
  exact .goes ⟨hr.withStack _, _, rfl, by rw [hm]; rfl⟩

/-- **Closing a frame** restores the mark from the last slot. -/
theorem closeFrame :
    Implements site (d + 1) d []
      (.localGet (site.shape.frame.slot d) :: Highwater.write site.shape.frame.registers)
      Eval.closeFrame NoWord := by
  have hforget : Implements site (d + 1) d [] []
      (modify fun s => { s with marks := s.marks.dropLast }) NoWord := by
    intro s m rest hr hm
    exact .goes ⟨hr.closeFrame, [], rfl, hm⟩
  rw [← List.append_nil (Highwater.write _), ← List.singleton_append]
  refine savedMark.bind fun w ws hws => ?_
  obtain rfl := hws
  refine (setMark w).bind fun _ ws hws => ?_
  obtain rfl := hws
  exact hforget

/-! ## Calls and blocks -/

/-- **A call** takes the arguments and leaves the results. -/
theorem call {i : Nat} {t : FuncType} {args : List Value} (ht : spaces.functions[i]? = some t)
    (hargs : args.map Value.kind = t.params) :
    Implements site d d args.reverse [.call i] (Eval.call site.inst i args)
      (Results t.results) := by
  intro s m rest hr hm
  have hlen : t.params.length = args.length := by
    rw [← hargs, List.length_map]
  rw [Code.exec, Instr.exec, Machine.call_eq site.inst ht hlen hm, Eval.call_eq, ← hr.memory]
  cases h : site.inst.call i args m.memory with
  | error cause =>
    refine .halts ?_
    rintro rfl
    exact site.inst.call_ne_stuck i args m.memory h
  | ok p =>
    have hk := site.inst.kind_call ht h
    exact .goes ⟨(hr.withMemory p.2).withStack _, p.1.reverse, ⟨p.1, rfl, rfl, hk⟩, rfl⟩

/-- **A block** starts with no words and keeps those below it. -/
theorem block {k : Kind} {x : Eval Value} (h : Implements site d d₁ [] code x (Word k)) {s : Store}
    {m : Machine} (hr : Related site.shape d s m) (rest : List Value) :
    Agrees (fun a s' m' => Related site.shape d₁ s' m' ∧ ∃ ws, Word k a ws ∧ m'.stack = ws ++ rest)
      (x s) ((Code.exec site.inst site.fuel code { m with stack := [] }).leave 1 rest) := by
  have h := h s { m with stack := [] } [] (hr.withStack []) rfl
  generalize x s = r at h
  generalize Code.exec site.inst site.fuel code { m with stack := [] } = o at h
  cases h with
  | halts hc => exact .halts hc
  | goes hg =>
    obtain ⟨hr', ws, hl, hm'⟩ := hg
    refine .goes ⟨hr'.withStack _, ws, hl, ?_⟩
    rw [hm', List.append_nil]

/-- **A conditional** does what the arm does that its condition chooses. -/
theorem cond {k : Kind} {c : BitVec 32} {first second : Code} {x y : Eval Value}
    (hx : Implements site d d₁ [] first x (Word k)) (hy : Implements site d d₁ [] second y (Word k)) :
    Implements site d d₁ [.i32 c] [.cond (some k) first second] (if c = 0 then y else x) (Word k) := by
  intro s m rest hr hm
  rw [Code.exec, Instr.exec_cond site.inst hm]
  show Agrees _ _ (Outcome.andThen _ .next)
  rw [Outcome.andThen_next]
  by_cases hc : c = 0
  · rw [if_pos hc, if_pos hc]
    exact hy.block hr rest
  · rw [if_neg hc, if_neg hc]
    exact hx.block hr rest

/-- **Rounds of a loop:** the machine leaves the loop when the condition is zero, and else runs the body
and branches back. -/
theorem rounds {cond body : Eval Value} {test step : Code} {k : Kind}
    (hc : Implements site d d [] test cond (Word .i32))
    (hb : Implements site d d [] step body (Word k)) (rest : List Value) :
    ∀ (n : Nat) {s : Store} {m : Machine}, Related site.shape d s m →
      Agrees (fun _ s' m' => Related site.shape d s' m' ∧ m'.stack = rest)
        (Eval.loop cond body n s)
        (Outcome.iterate (fun m => Code.exec site.inst site.fuel
          (test ++ [.cond none (step ++ [.drop, .br 1]) []]) m) rest n m)
  | 0, s, m, _ => .halts nofun
  | n + 1, s, m, hr => by
    rw [Outcome.iterate, Code.exec_append, Eval.loop_succ]
    show Agrees _ (cond s >>= fun p => Eval.word p.1 p.2 >>= fun q =>
      (if q.1 = 0 then pure () else body >>= fun _ => Eval.loop cond body n : Eval Unit) q.2) _
    have hcond := hc s { m with stack := [] } [] (hr.withStack []) rfl
    generalize cond s = r at hcond
    generalize Code.exec site.inst site.fuel test { m with stack := [] } = o at hcond
    cases hcond with
    | halts hh => exact .halts hh
    | @goes v s₁ m₁ hg =>
      obtain ⟨hr₁, _, ⟨rfl, hk⟩, hm₁⟩ := hg
      cases v with
      | i64 _ => cases hk
      | i32 c =>
        rw [Outcome.andThen, Code.exec, Instr.exec_cond site.inst hm₁]
        show Agrees _ ((if c = 0 then pure () else body >>= fun _ => Eval.loop cond body n : Eval Unit)
          s₁) _
        by_cases hzero : c = 0
        · rw [if_pos hzero, if_pos hzero]
          exact .goes ⟨hr₁.withStack _, rfl⟩
        · rw [if_neg hzero, if_neg hzero, Code.exec_append]
          show Agrees _ (body s₁ >>= fun p => Eval.loop cond body n p.2) _
          have hbody := hb s₁ { m₁ with stack := [] } [] (hr₁.withStack []) rfl
          generalize body s₁ = r at hbody
          generalize Code.exec site.inst site.fuel step { m₁ with stack := [] } = o at hbody
          cases hbody with
          | halts hh => exact .halts hh
          | @goes v s₂ m₂ hg =>
            obtain ⟨hr₂, _, ⟨rfl, _⟩, hm₂⟩ := hg
            rw [Outcome.andThen, Code.exec_plain site.inst (Plain.step_drop hm₂)]
            exact rounds hc hb rest n (hr₂.withStack _)

/-- **A loop** does what its rounds do. -/
theorem loop {cond body : Eval Value} {test step : Code} {k : Kind}
    (hc : Implements site d d [] test cond (Word .i32))
    (hb : Implements site d d [] step body (Word k)) :
    Implements site d d [] [.loop (test ++ [.cond none (step ++ [.drop, .br 1]) []])]
      (Eval.loop cond body site.fuel) NoWord := by
  intro s m rest hr hm
  rw [Code.exec, Instr.exec]
  show Agrees _ _ (Outcome.andThen _ .next)
  rw [Outcome.andThen_next]
  have h := rounds hc hb m.stack site.fuel hr
  generalize Eval.loop cond body site.fuel s = r at h
  generalize Outcome.iterate _ _ _ _ = o at h
  cases h with
  | halts hh => exact .halts hh
  | goes hg => exact .goes ⟨hg.1, [], rfl, hg.2.trans hm⟩

end Implements

end Pieces

end WasmLowering
