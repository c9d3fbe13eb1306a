/-
# The trail of a run

A trail is all that matters of a run for buffers and frames: how its events lead
from one machine to another, with so many frames open before and after.  Between
its events the mark and the frame slots do not change.

| event        | frames           | what happens                                          |
|--------------|------------------|-------------------------------------------------------|
| `buffer b`   | as its count     | after the count, the mark is moved up by `b`'s bytes  |
| `store a n`  | the same         | bytes `a .. a + n` are written                        |
| `call m m'`  | the same         | the memory is replaced                                |
| `opened`     | one more         | the mark is saved in the next slot                    |
| `closed`     | one less         | the mark is restored from the last slot               |

When a loop is left, as many frames count as open as when it was entered, even if
its condition opened some.  A strict trail has no such jumps, and makes buffers
within frames only; an orderly run leaves its words on the stack alone, so that a
buffer is at the mark that was read for it.

`Steps` says of a piece of code that each run of it that comes to its end is some
watched run and leaves a trail; it holds piece by piece (`Steps.seq`).
-/

import WasmLowering.Proofs.Effects
import WasmLowering.Proofs.Observation

namespace WasmLowering

open Wasm

/-- The terms on which runs are watched. -/
structure Terms (spaces : IndexSpaces) where
  inst : Instance spaces
  fuel : Nat
  frame : Frame
  /-- Loops keep the number of open frames, and buffers are made within frames only. -/
  strict : Prop
  /-- Expressions are well-kinded. -/
  kinded : Prop
  /-- The kinds of the locals. -/
  locals : List Kind

/-- A step that leaves the frame slots alone. -/
def KeepsSlots (frame : Frame) (m m' : Machine) : Prop :=
  ∀ i, frame.slot 0 ≤ i → m'.locals[i]? = m.locals[i]?

/-- The events that lead from a machine with so many open frames to another. -/
inductive Trail {spaces : IndexSpaces} (t : Terms spaces) :
    Nat → Machine → List Event → Nat → Machine → Prop
  | still {d : Nat} {m m' : Machine} : m.Still (t.frame.slot 0) m' → Trail t d m [] d m'
  | left {d d' : Nat} {m : Machine} : (t.strict → d = d') → Trail t d m [] d' m
  | trans {d d₁ d₂ : Nat} {m m₁ m₂ : Machine} {log log' : List Event} :
    Trail t d m log d₁ m₁ → Trail t d₁ m₁ log' d₂ m₂ → Trail t d m (log ++ log') d₂ m₂
  | buffer {d d' : Nat} {m m₁ m₂ : Machine} {log : List Event} {b : Buffer} :
    m.memory.mark = some b.base → Trail t d m log d' m₁ → m₁.memory.mark = some b.mark →
      m₁.memory.setMark (b.mark + b.count * BitVec.ofNat 32 b.size) = some m₂.memory →
      KeepsSlots t.frame m₁ m₂ → b.inner = (buffers log).length → (t.strict → 0 < d') →
      (t.kinded → b.result = some (.i32 b.base)) →
      Trail t d m (log ++ [.buffer b]) d' m₂
  | store {d address size value : Nat} {m m' : Machine} :
    m.memory.store size address value = some m'.memory → KeepsSlots t.frame m m' →
      Trail t d m [.store address size] d m'
  | call {d : Nat} {m m' : Machine} :
    KeepsSlots t.frame m m' → Trail t d m [.call m.memory m'.memory] d m'
  | opened {d : Nat} {m m' : Machine} {w : BitVec 32} :
    m.memory.mark = some w → m'.memory = m.memory → m'.locals[t.frame.slot d]? = some (.i32 w) →
      (∀ j < d, m'.locals[t.frame.slot j]? = m.locals[t.frame.slot j]?) →
      Trail t d m [.opened] (d + 1) m'
  | closed {d : Nat} {m m' : Machine} {w : BitVec 32} :
    m.locals[t.frame.slot d]? = some (.i32 w) → m.memory.setMark w = some m'.memory →
      KeepsSlots t.frame m m' → Trail t (d + 1) m [.closed] d m'

namespace Trail

variable {spaces : IndexSpaces} {t : Terms spaces} {d d' : Nat} {m m' : Machine} {log : List Event}

/-- **The stack does not matter before a trail.** -/
theorem ofStack {ws : List Value} (h : Trail t d { m with stack := ws } log d' m') :
    Trail t d m log d' m' := by
  have hstill : Trail t d m [] d { m with stack := ws } := .still ⟨rfl, fun _ _ => rfl⟩
  exact hstill.trans h

/-- **The stack does not matter behind a trail.** -/
theorem withStack (h : Trail t d m log d' m') (ws : List Value) :
    Trail t d m log d' { m' with stack := ws } := by
  have hstill : Trail t d' m' [] d' { m' with stack := ws } := .still ⟨rfl, fun _ _ => rfl⟩
  have htrail := h.trans hstill
  rwa [List.append_nil] at htrail

end Trail

/-- From a machine on, code runs as a watched run does and leaves a trail. -/
structure Steps {spaces : IndexSpaces} (t : Terms spaces) (code : Code) (d d' : Nat) (run : Run)
    (m : Machine) : Prop where
  next {m' : Machine} : Code.exec t.inst t.fuel code m = .next m' →
    ∃ log, run m = .ok (log, m') ∧ Trail t d m log d' m'
  ne_branch (n : Nat) (m' : Machine) : Code.exec t.inst t.fuel code m ≠ .branch n m'

namespace Steps

variable {spaces : IndexSpaces} {t : Terms spaces} {d d₁ d₂ : Nat} {m : Machine}

/-- **Pieces of code leave one trail.** -/
theorem seq {a b : Code} {first second : Run} (ha : Steps t a d d₁ first m)
    (hb : ∀ m₁, Code.exec t.inst t.fuel a m = .next m₁ → Steps t b d₁ d₂ second m₁) :
    Steps t (a ++ b) d d₂ (first.seq second) m where
  next {m₂} h := by
    obtain ⟨m₁, hfirst, hsecond⟩ := (Code.exec_append_eq_next t.inst).1 h
    obtain ⟨log, hrun, htrail⟩ := ha.next hfirst
    obtain ⟨log', hrun', htrail'⟩ := (hb m₁ hfirst).next hsecond
    refine ⟨log ++ log', ?_, htrail.trans htrail'⟩
    unfold Run.seq
    rw [hrun]
    show (second m₁ >>= _) = _
    rw [hrun']
    rfl
  ne_branch := Code.exec_append_ne_branch t.inst ha.ne_branch fun m₁ h => (hb m₁ h).ne_branch

/-- **A piece whose end is noted.** -/
theorem noting {code : Code} {note : Machine → Machine → Option (List Event)}
    (hbranch : ∀ n m', Code.exec t.inst t.fuel code m ≠ .branch n m')
    (h : ∀ m', Code.exec t.inst t.fuel code m = .next m' →
      ∃ log, note m m' = some log ∧ Trail t d m log d₁ m') :
    Steps t code d d₁ (Run.noting t.inst t.fuel note code) m where
  next {m'} hrun := by
    obtain ⟨log, hnote, htrail⟩ := h m' hrun
    refine ⟨log, ?_, htrail⟩
    unfold Run.noting
    rw [hrun]
    simp only [hnote]
    rfl
  ne_branch := hbranch

/-- **Silent code** leaves no events. -/
theorem silent {code : Code} (h : code.isSilent (t.frame.slot 0) = true) :
    Steps t code d d (Run.silent t.inst t.fuel code) m :=
  noting (Code.exec_ne_branch t.inst (Code.isPlain_of_isSilent h) m) fun _ hrun =>
    ⟨[], rfl, .still (Code.still_of_exec t.inst h hrun)⟩

/-- **Selected code that is silent** leaves no events. -/
theorem selected {x : Except Fault Code} {code : Code} (hx : x = .ok code)
    (h : code.isSilent (t.frame.slot 0) = true) :
    Steps t code d d (Run.selected t.inst t.fuel x) m := by
  rw [hx]
  exact silent h

/-- **A call** is noted with the memories before and after it. -/
theorem call (i : Nat) : Steps t [.call i] d d (Run.call t.inst t.fuel i) m := by
  refine noting (fun n m' h => ?_) fun m' hrun => ⟨_, rfl, .call fun j _ => ?_⟩
  · rw [Code.exec_call] at h
    cases hcall : m.call t.inst i <;> rw [hcall] at h <;> cases h
  · rw [Code.exec_call] at hrun
    rw [Machine.locals_of_call t.inst (Outcome.ok_of_ofExcept hrun)]

/-- **A store** is noted with the address below the word that is stored. -/
theorem store {size : Nat} {i : Instr} (h : storeElement size = .ok i) :
    Steps t [i] d d (Run.store t.inst t.fuel size i) m := by
  obtain ⟨op, arg, rfl, rfl, hoffset, -, -⟩ := storeElement_eq_ok h
  refine noting (Code.exec_ne_branch t.inst rfl m) fun m' hrun => ?_
  obtain ⟨m₁, hstep, ⟨⟩⟩ := (Code.exec_plain_eq_next t.inst).1 hrun
  obtain ⟨v, a, ws, hm, -, hstored, hlocals, -⟩ := Plain.step_store_eq_ok hstep
  rw [hoffset, Nat.add_zero] at hstored
  exact ⟨[.store a.toNat op.size], by rw [hm], .store hstored fun j _ => by rw [hlocals]⟩

/-- **Opening a frame** saves the mark in the next slot. -/
theorem openFrame :
    Steps t (Highwater.read ++ [.localSet (t.frame.slot d), .unit]) d (d + 1)
      (Run.noting t.inst t.fuel (fun _ _ => some [.opened])
        (Highwater.read ++ [.localSet (t.frame.slot d), .unit])) m := by
  refine noting (Code.exec_ne_branch t.inst rfl m) fun m' hrun => ⟨_, rfl, ?_⟩
  obtain ⟨w, hw, hlt, rfl⟩ := Highwater.exec_save t.inst hrun
  refine .opened hw rfl (List.getElem?_set_self hlt) fun j hj => List.getElem?_set_ne ?_
  rw [Frame.slot_eq, Frame.slot_eq]
  omega

/-- **Closing a frame** restores the mark from its slot. -/
theorem closeFrame :
    Steps t (.localGet (t.frame.slot d) :: Highwater.write t.frame.registers ++ [.unit]) (d + 1) d
      (Run.noting t.inst t.fuel (fun _ _ => some [.closed])
        (.localGet (t.frame.slot d) :: Highwater.write t.frame.registers ++ [.unit])) m := by
  refine noting (Code.exec_ne_branch t.inst rfl m) fun m' hrun => ⟨_, rfl, ?_⟩
  obtain ⟨w, hv, hset, hlocals⟩ := Highwater.exec_restore t.inst hrun
  refine .closed hv hset fun j hj => hlocals j ?_
  rw [Frame.slot_eq] at hj
  show t.frame.args + 2 ≤ j
  omega

/-- **A buffer is made** at the mark that is read for it, after its count. -/
theorem create {size : Nat} {number : Code} {count : Run}
    (hcount : ∀ w, Steps t number d d₁ count { m with stack := .i32 w :: m.stack })
    (hstrict : t.strict → 0 < d₁)
    (hkinded : t.kinded → ∀ w m₁,
      Code.exec t.inst t.fuel number { m with stack := .i32 w :: m.stack } = .next m₁ →
      ∃ v, m₁.stack = v :: .i32 w :: m.stack) :
    Steps t (Highwater.read ++ number ++ [.constI32 size, .arith .i32 .mul]
        ++ Highwater.grow t.frame.registers) d d₁
      (Run.create t.inst t.fuel size t.frame.registers count) m where
  next {m'} h := by
    rw [List.append_assoc, Code.exec_append_eq_next] at h
    obtain ⟨m₂, hnumber, hgrown⟩ := h
    obtain ⟨m₁, hread, hnumber⟩ := (Code.exec_append_eq_next t.inst).1 hnumber
    obtain ⟨m₃, hscale, hgrow⟩ := (Code.exec_append_eq_next t.inst).1 hgrown
    obtain ⟨w, hw, rfl⟩ := Highwater.exec_read t.inst hread
    obtain ⟨log, hrun, htrail⟩ := (hcount w).next hnumber
    obtain ⟨n, ws, hm₂, rfl⟩ := Highwater.exec_scale t.inst hscale
    obtain ⟨bytes, mark, ws', hm₃, hmark, hset, hm', hlocals⟩ := Highwater.exec_grow t.inst hgrow
    obtain ⟨hbytes, rfl⟩ := List.cons.inj hm₃
    cases hbytes
    have hmark : m₂.memory.mark = some mark := hmark
    let b : Buffer :=
      { base := w, count := n, size, mark, inner := (buffers log).length, result := m'.stack.head? }
    have hmade : Run.made size m.memory.mark (buffers log).length m₂ m' = some [.buffer b] := by
      unfold Run.made
      rw [hw, hm₂, hmark]
    refine ⟨log ++ [.buffer b], ?_, ?_⟩
    · unfold Run.create Run.silent Run.noting
      simp only [hread, hrun, hgrown, hmade, bind, Except.bind, Option.elim, pure, Except.pure]
    · refine .buffer hw htrail.ofStack hmark hset ?_ rfl hstrict fun hk => ?_
      · intro i hi
        refine hlocals i ?_
        rw [Frame.slot_eq] at hi
        show t.frame.args + 2 ≤ i
        omega
      · obtain ⟨v, hv⟩ := hkinded hk w m₂ hnumber
        rw [hm₂] at hv
        obtain ⟨-, rfl⟩ := List.cons.inj hv
        show m'.stack.head? = _
        rw [hm']
        rfl
  ne_branch := by
    rw [List.append_assoc]
    refine Code.exec_append_ne_branch t.inst (Code.exec_append_ne_branch t.inst
      (Code.exec_ne_branch t.inst rfl m) fun m₁ hread => ?_) fun m₂ _ => Code.exec_ne_branch t.inst rfl m₂
    obtain ⟨w, -, rfl⟩ := Highwater.exec_read t.inst hread
    exact (hcount w).ne_branch

/-- **A conditional** leaves the trail of one of its arms. -/
theorem choose {result : Option Kind} {first second : Code} {whenTrue whenFalse : Run}
    (hfirst : Steps t first d d₁ whenTrue { m with stack := [] })
    (hsecond : Steps t second d d₁ whenFalse { m with stack := [] }) :
    Steps t [.cond result first second] d d₁ (Run.choose whenTrue whenFalse) m := by
  have harm : ∀ c : BitVec 32, Steps t (if c = 0 then second else first) d d₁
      (if c = 0 then whenFalse else whenTrue) { m with stack := [] } := by
    intro c
    split
    · exact hsecond
    · exact hfirst
  constructor
  · intro m' h
    obtain ⟨c, ws, hm, hleave⟩ := Code.exec_cond t.inst h nofun
    cases hrun : Code.exec t.inst t.fuel (if c = 0 then second else first) { m with stack := [] } with
    | next m₁ =>
      rw [hrun] at hleave
      cases hleave
      obtain ⟨log, hwatch, htrail⟩ := (harm c).next hrun
      refine ⟨log, ?_, htrail.ofStack.withStack _⟩
      unfold Run.choose
      rw [hm]
      simp only [hwatch, bind, Except.bind, pure, Except.pure]
    | branch n m₁ => exact absurd hrun ((harm c).ne_branch n m₁)
    | halt cause =>
      rw [hrun] at hleave
      cases hleave
  · intro n m' h
    obtain ⟨c, ws, hm, hleave⟩ := Code.exec_cond t.inst h nofun
    cases hrun : Code.exec t.inst t.fuel (if c = 0 then second else first) { m with stack := [] } with
    | next m₁ =>
      rw [hrun] at hleave
      cases hleave
    | branch n m₁ => exact (harm c).ne_branch n m₁ hrun
    | halt cause =>
      rw [hrun] at hleave
      cases hleave

/-- **A round of a loop** ends the loop if the test leaves zero; otherwise the body is run and the loop is
entered anew. -/
theorem exec_round {test step : Code} {o : Outcome}
    (htest : ∀ n m', Code.exec t.inst t.fuel test m ≠ .branch n m')
    (hstep : ∀ m₁ ws n m', Code.exec t.inst t.fuel test m = .next m₁ →
      Code.exec t.inst t.fuel step { m₁ with stack := ws } ≠ .branch n m')
    (h : Code.exec t.inst t.fuel (test ++ [.cond none (step ++ [.drop, .br 1]) []]) m = o)
    (ho : ∀ cause, o ≠ .halt cause) :
    ∃ m₁ c ws, Code.exec t.inst t.fuel test m = .next m₁ ∧ m₁.stack = .i32 c :: ws ∧
      (c = 0 ∧ o = .next { m₁ with stack := ws } ∨
        c ≠ 0 ∧ ∃ m₂, Code.exec t.inst t.fuel (step ++ [.drop]) { m₁ with stack := [] } = .next m₂ ∧
          o = .branch 0 m₂) := by
  rw [Code.exec_append] at h
  cases hrun : Code.exec t.inst t.fuel test m with
  | branch n m₁ => exact absurd hrun (htest n m₁)
  | halt cause =>
    rw [hrun] at h
    exact absurd h.symm (ho cause)
  | next m₁ =>
    rw [hrun] at h
    obtain ⟨c, ws, hm₁, hleave⟩ := Code.exec_cond t.inst h (ho .stuck)
    refine ⟨m₁, c, ws, rfl, hm₁, ?_⟩
    by_cases hc : c = 0
    · rw [if_pos hc] at hleave
      exact .inl ⟨hc, hleave.symm⟩
    · rw [if_neg hc] at hleave
      have hsplit : step ++ [Instr.drop, .br 1] = step ++ [.drop] ++ [.br 1] := by simp
      rw [hsplit, Code.exec_append] at hleave
      cases hbody : Code.exec t.inst t.fuel (step ++ [.drop]) { m₁ with stack := [] } with
      | next m₂ =>
        rw [hbody] at hleave
        exact .inr ⟨hc, m₂, rfl, hleave.symm⟩
      | branch n m₂ =>
        exact absurd hbody (Code.exec_append_ne_branch t.inst (fun n m' => hstep m₁ [] n m' hrun)
          (fun m₂ _ => Code.exec_ne_branch t.inst rfl m₂) n m₂)
      | halt cause =>
        rw [hbody] at hleave
        exact absurd hleave.symm (ho cause)

section Rounds

variable {test step : Code} {testRun bodyRun : Run} {ready : Machine → Prop}

/-- **Rounds of a loop** leave one trail, with the test that ends the loop.  The invariant of the rounds
does not depend on the stack, since every round starts on an empty one. -/
theorem iterate (hidden : List Value)
    (htest : ∀ m, ready m → Steps t test d d₁ testRun m)
    (hstep : ∀ m, ready m → Steps t step d₁ d bodyRun m)
    (hready : ∀ m ws, ready m → ready { m with stack := ws })
    (hafter : ∀ m m', ready m → Code.exec t.inst t.fuel test m = .next m' → ready m')
    (hafter' : ∀ m m', ready m → Code.exec t.inst t.fuel (step ++ [.drop]) m = .next m' → ready m')
    (hstrict : t.strict → d₁ = d) (fuel : Nat) (m : Machine) (hm : ready m) :
    (∀ m', Outcome.iterate (Code.exec t.inst t.fuel
        (test ++ [.cond none (step ++ [.drop, .br 1]) []])) hidden fuel m = .next m' →
      ∃ log, Run.rounds testRun (bodyRun.seq (Run.silent t.inst t.fuel [.drop])) hidden fuel m =
        .ok (log, m') ∧ Trail t d m log d m') ∧
    ∀ n m', Outcome.iterate (Code.exec t.inst t.fuel
        (test ++ [.cond none (step ++ [.drop, .br 1]) []])) hidden fuel m ≠ .branch n m' := by
  induction fuel generalizing m with
  | zero =>
    constructor
    · rintro m' ⟨⟩
    · rintro n m' ⟨⟩
  | succ fuel ih =>
    have hround := fun o h => exec_round (o := o) ((htest _ (hready m [] hm)).ne_branch)
      (fun m₁ ws n m' hrun => (hstep _ (hready m₁ ws (hafter _ m₁ (hready m [] hm) hrun))).ne_branch n m') h
    cases hbody : Code.exec t.inst t.fuel (test ++ [.cond none (step ++ [.drop, .br 1]) []])
        { m with stack := [] } with
    | halt cause =>
      rw [Outcome.iterate, hbody]
      constructor
      · rintro m' ⟨⟩
      · rintro n m' ⟨⟩
    | next m' =>
      obtain ⟨m₁, c, ws, hrun, hm₁, ⟨rfl, hm'⟩ | ⟨-, _, -, hm'⟩⟩ :=
        hround _ hbody (by rintro cause ⟨⟩)
      · cases hm'
        obtain ⟨log, hwatch, htrail⟩ := (htest _ (hready m [] hm)).next hrun
        rw [Outcome.iterate, hbody]
        refine ⟨?_, by rintro n m' ⟨⟩⟩
        rintro _ ⟨⟩
        refine ⟨log, ?_, ?_⟩
        · unfold Run.rounds
          simp only [hwatch, hm₁, bind, Except.bind, if_true, pure, Except.pure]
        · have htrail := htrail.ofStack.trans (.left hstrict)
          rw [List.append_nil] at htrail
          exact htrail.withStack _
      · cases hm'
    | branch n m' =>
      obtain ⟨m₁, c, ws, hrun, hm₁, ⟨-, hm'⟩ | ⟨hc, m₂, hback, hm'⟩⟩ :=
        hround _ hbody (by rintro cause ⟨⟩)
      · cases hm'
      · cases hm'
        obtain ⟨log, hwatch, htrail⟩ := (htest _ (hready m [] hm)).next hrun
        have hm₁' := hready m₁ [] (hafter _ m₁ (hready m [] hm) hrun)
        obtain ⟨log', hwatch', htrail'⟩ :=
          ((hstep _ hm₁').seq fun _ _ => (silent rfl : Steps t [.drop] d d _ _)).next hback
        obtain ⟨ihnext, ihbranch⟩ := ih m' (hafter' _ _ hm₁' hback)
        rw [Outcome.iterate, hbody]
        refine ⟨fun m₃ hrest => ?_, ihbranch⟩
        obtain ⟨log'', hwatch'', htrail''⟩ := ihnext m₃ hrest
        refine ⟨log ++ (log' ++ log''), ?_, htrail.ofStack.trans (htrail'.ofStack.trans htrail'')⟩
        unfold Run.rounds
        simp only [hwatch, hm₁, bind, Except.bind, if_neg hc, hwatch', hwatch'', pure, Except.pure]

/-- **A loop** leaves the trail of its rounds. -/
theorem loop
    (htest : ∀ m, ready m → Steps t test d d₁ testRun m)
    (hstep : ∀ m, ready m → Steps t step d₁ d bodyRun m)
    (hready : ∀ m ws, ready m → ready { m with stack := ws })
    (hafter : ∀ m m', ready m → Code.exec t.inst t.fuel test m = .next m' → ready m')
    (hafter' : ∀ m m', ready m → Code.exec t.inst t.fuel (step ++ [.drop]) m = .next m' → ready m')
    (hstrict : t.strict → d₁ = d) (hm : ready m) :
    Steps t [.loop (test ++ [.cond none (step ++ [.drop, .br 1]) []])] d d
      (fun m => Run.rounds testRun (bodyRun.seq (Run.silent t.inst t.fuel [.drop])) m.stack t.fuel m)
      m := by
  have hexec : Code.exec t.inst t.fuel [.loop (test ++ [.cond none (step ++ [.drop, .br 1]) []])] m =
      Outcome.iterate (Code.exec t.inst t.fuel (test ++ [.cond none (step ++ [.drop, .br 1]) []])) m.stack
        t.fuel m := by
    rw [Code.exec, Instr.exec]
    exact Outcome.andThen_next _
  obtain ⟨hnext, hbranch⟩ := iterate m.stack htest hstep hready hafter hafter' hstrict t.fuel m hm
  constructor
  · intro m' h
    exact hnext m' (hexec.symm.trans h)
  · intro n m' h
    exact hbranch n m' (hexec.symm.trans h)

end Rounds

end Steps

end WasmLowering
