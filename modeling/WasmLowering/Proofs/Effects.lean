/-
# What pieces of code do to memory and locals

Most of the code that is emitted is silent: it leaves the highwater mark alone, and
every local from the frame slots on.  What is left are the pieces that work on the
mark.  Each is told by what a run of it that came to its end has done:

| piece              | takes      | leaves     | does                             |
|--------------------|------------|------------|----------------------------------|
| `Registers.swap`   | `a`, `b`   | `b`, `a`   | changes scratch registers        |
| `Highwater.read`   |            | the mark   |                                  |
| `Highwater.write`  | `w`        |            | the mark is `w`                  |
| `Highwater.grow`   | `n`        |            | the mark is moved up by `n`      |

Opening a frame saves the mark in a local, and closing it restores the mark from there.
-/

import WasmLowering.Proofs.Lowering
import WasmLowering.Proofs.TypeSafety

namespace WasmLowering

open Wasm

namespace Wasm

variable {spaces : IndexSpaces} (inst : Instance spaces) {fuel : Nat}

/-- **What does not trap is there.** -/
theorem some_of_orTrap {α : Type} {x : Option α} {a : α} (h : orTrap x = .ok a) : x = some a := by
  cases x with
  | some b => exact congrArg some (Except.ok.inj h)
  | none => cases h

/-! ## Pieces of code -/

/-- **Code in two parts comes to its end** if both parts do. -/
theorem Code.exec_append_eq_next {a b : Code} {m m' : Machine} :
    Code.exec inst fuel (a ++ b) m = .next m' ↔
      ∃ m₁, Code.exec inst fuel a m = .next m₁ ∧ Code.exec inst fuel b m₁ = .next m' := by
  rw [Code.exec_append]
  cases Code.exec inst fuel a m <;> simp [Outcome.andThen]

/-- **Code in two parts does not branch** if neither part does. -/
theorem Code.exec_append_ne_branch {a b : Code} {m : Machine}
    (ha : ∀ n m', Code.exec inst fuel a m ≠ .branch n m')
    (hb : ∀ m₁, Code.exec inst fuel a m = .next m₁ → ∀ n m', Code.exec inst fuel b m₁ ≠ .branch n m')
    (n : Nat) (m' : Machine) : Code.exec inst fuel (a ++ b) m ≠ .branch n m' := by
  rw [Code.exec_append]
  cases hfirst : Code.exec inst fuel a m with
  | next m₁ => exact hb m₁ hfirst n m'
  | branch k m₁ => exact absurd hfirst (ha k m₁)
  | halt cause => exact nofun

/-- **A plain instruction is followed by the rest.** -/
theorem Code.exec_plain_eq_next {p : Plain} {code : Code} {m m' : Machine} :
    Code.exec inst fuel (.plain p :: code) m = .next m' ↔
      ∃ m₁, p.step inst.globals m = .ok m₁ ∧ Code.exec inst fuel code m₁ = .next m' := by
  rw [Code.exec, Instr.exec]
  cases p.step inst.globals m <;> simp [Outcome.ofExcept, Outcome.andThen]

/-- Whether an instruction leaves the mark, and the locals from a bound on, as they are.  A store does if
its offset is behind the mark, whatever address it is given. -/
def Plain.isSilent (bound : Nat) : Plain → Bool
  | localSet i | localTee i => i < bound
  | store _ arg => 4 ≤ arg.offset
  | _ => true

/-- Whether code leaves the mark, and the locals from a bound on, as they are. -/
def Code.isSilent (bound : Nat) : Code → Bool
  | [] => true
  | .plain p :: is => p.isSilent bound && Code.isSilent bound is
  | _ :: _ => false

/-- The mark is the same, and so are the locals from a bound on. -/
structure Machine.Still (bound : Nat) (m m' : Machine) : Prop where
  mark : m'.memory.mark = m.memory.mark
  locals : ∀ i, bound ≤ i → m'.locals[i]? = m.locals[i]?

theorem Machine.Still.refl (bound : Nat) (m : Machine) : m.Still bound m := ⟨rfl, fun _ _ => rfl⟩

theorem Machine.Still.trans {bound : Nat} {m m₁ m₂ : Machine} (h : m.Still bound m₁)
    (h' : m₁.Still bound m₂) : m.Still bound m₂ :=
  ⟨h'.mark.trans h.mark, fun i hi => (h'.locals i hi).trans (h.locals i hi)⟩

section Steps

variable {globals : List Value} {m m' : Machine} {i : Nat}

theorem Plain.step_localGet_eq_ok (h : (localGet i).step globals m = .ok m') :
    ∃ v, m.locals[i]? = some v ∧ m' = { m with stack := v :: m.stack } := by
  rw [Plain.step] at h
  split at h
  · rename_i v hv
    cases h
    exact ⟨v, hv, rfl⟩
  · cases h

theorem Plain.step_localSet_eq_ok (h : (localSet i).step globals m = .ok m') :
    ∃ v ws, m.stack = v :: ws ∧ i < m.locals.length ∧
      m' = { m with locals := m.locals.set i v, stack := ws } := by
  rw [Plain.step] at h
  split at h
  · rename_i v ws hm
    split at h
    · rename_i hi
      cases h
      exact ⟨v, ws, hm, hi, rfl⟩
    · cases h
  · cases h

theorem Plain.step_store_eq_ok {op : StoreOp} {arg : MemArg} (h : (store op arg).step globals m = .ok m') :
    ∃ v a ws, m.stack = v :: .i32 a :: ws ∧ v.kind = op.kind ∧
      m.memory.store op.size (a.toNat + arg.offset) v.toNat = some m'.memory ∧
      m'.locals = m.locals ∧ m'.stack = ws := by
  rw [Plain.step] at h
  split at h
  · rename_i v a ws hm
    split at h
    · rename_i hk
      obtain ⟨memory, hstore, h⟩ := ok_of_bind h
      cases h
      exact ⟨v, a, ws, hm, hk, some_of_orTrap hstore, rfl, rfl⟩
    · cases h
  · cases h

end Steps

/-- **A silent instruction is still.** -/
theorem Plain.still_of_step {bound : Nat} {globals : List Value} {p : Plain} {m m' : Machine}
    (hp : p.isSilent bound = true) (h : p.step globals m = .ok m') : m.Still bound m' := by
  cases p with
  | store op arg =>
    obtain ⟨v, a, ws, -, -, hstore, hlocals, -⟩ := Plain.step_store_eq_ok h
    have harg : 4 ≤ arg.offset := of_decide_eq_true hp
    exact ⟨Memory.mark_store hstore (by omega), fun i _ => by rw [hlocals]⟩
  | localSet i =>
    rw [Plain.step] at h
    split at h
    · split at h
      · cases h
        refine ⟨rfl, fun j hj => List.getElem?_set_ne ?_⟩
        have hi : i < bound := of_decide_eq_true hp
        omega
      · cases h
    · cases h
  | localTee i =>
    rw [Plain.step] at h
    split at h
    · split at h
      · cases h
        refine ⟨rfl, fun j hj => List.getElem?_set_ne ?_⟩
        have hi : i < bound := of_decide_eq_true hp
        omega
      · cases h
    · cases h
  | localGet i =>
    rw [Plain.step] at h
    split at h <;> cases h
    exact ⟨rfl, fun _ _ => rfl⟩
  | globalGet i =>
    rw [Plain.step] at h
    split at h <;> cases h
    exact ⟨rfl, fun _ _ => rfl⟩
  | load op arg =>
    rw [Plain.step] at h
    split at h
    · obtain ⟨n, -, h⟩ := ok_of_bind h
      cases h
      exact ⟨rfl, fun _ _ => rfl⟩
    · cases h
  | const v =>
    cases h
    exact ⟨rfl, fun _ _ => rfl⟩
  | arith k op | compare k rel | convert c | drop =>
    obtain ⟨ws, -, rfl⟩ := ok_of_map h
    exact ⟨rfl, fun _ _ => rfl⟩

/-- **Silent code is still.** -/
theorem Code.still_of_exec {bound : Nat} :
    ∀ {code : Code} {m m' : Machine}, code.isSilent bound = true →
      Code.exec inst fuel code m = .next m' → m.Still bound m'
  | [], m, m', _, h => by
    cases h
    exact .refl bound m
  | .plain p :: is, m, m', hc, h => by
    rw [Code.isSilent, Bool.and_eq_true] at hc
    obtain ⟨m₁, hp, his⟩ := (Code.exec_plain_eq_next inst).1 h
    exact (Plain.still_of_step hc.1 hp).trans (Code.still_of_exec hc.2 his)
  | .call _ :: _, _, _, hc, _ | .br _ :: _, _, _, hc, _ | .cond .. :: _, _, _, hc, _
  | .loop _ :: _, _, _, hc, _ => by cases hc

/-- Whether all instructions of code are plain. -/
def Code.isPlain : Code → Bool
  | [] => true
  | .plain _ :: is => Code.isPlain is
  | _ :: _ => false

/-- **Plain code never branches.** -/
theorem Code.exec_ne_branch {code : Code} (h : code.isPlain = true) (m : Machine) (n : Nat)
    (m' : Machine) : Code.exec inst fuel code m ≠ .branch n m' := by
  induction code generalizing m with
  | nil => exact nofun
  | cons i is ih =>
    cases i with
    | plain p =>
      rw [Code.exec, Instr.exec]
      cases p.step inst.globals m with
      | ok m₁ => exact ih h m₁
      | error cause => exact nofun
    | call | br | cond | loop => cases h

/-- **Silent code is plain.** -/
theorem Code.isPlain_of_isSilent {bound : Nat} {code : Code} (h : code.isSilent bound = true) :
    code.isPlain = true := by
  induction code with
  | nil => rfl
  | cons i is ih =>
    cases i with
    | plain p => exact ih (Bool.and_eq_true_iff.1 h).2
    | call | br | cond | loop => cases h

/-- **A conditional that is not stuck** takes a word of kind `i32` and runs one of its arms as a block. -/
theorem Code.exec_cond {result : Option Kind} {first second : Code} {m : Machine} {o : Outcome}
    (h : Code.exec inst fuel [.cond result first second] m = o) (ho : o ≠ .halt .stuck) :
    ∃ c ws, m.stack = .i32 c :: ws ∧
      (Code.exec inst fuel (if c = 0 then second else first) { m with stack := [] }).leave
        result.toList.length ws = o := by
  have hend : Code.exec inst fuel [.cond result first second] m =
      (Instr.cond result first second).exec inst fuel m := Outcome.andThen_next _
  rw [hend] at h
  cases hm : m.stack with
  | nil =>
    rw [Instr.exec, hm] at h
    exact absurd h.symm ho
  | cons v ws =>
    cases v with
    | i64 w =>
      rw [Instr.exec, hm] at h
      exact absurd h.symm ho
    | i32 c =>
      refine ⟨c, ws, rfl, ?_⟩
      rw [Instr.exec_cond inst hm] at h
      rw [← h]
      split <;> rfl

/-- **A call is a step that cannot branch.** -/
theorem Code.exec_call (i : Nat) (m : Machine) :
    Code.exec inst fuel [.call i] m = .ofExcept (m.call inst i) := by
  rw [Code.exec, Instr.exec]
  cases m.call inst i <;> rfl

theorem Outcome.ok_of_ofExcept {x : Except Halt Machine} {m : Machine}
    (h : Outcome.ofExcept x = .next m) : x = .ok m := by
  cases x <;> cases h
  rfl

/-- **A call changes no locals.** -/
theorem Machine.locals_of_call {i : Nat} {m m' : Machine} (h : m.call inst i = .ok m') :
    m'.locals = m.locals := by
  unfold Machine.call at h
  split at h
  · cases h
  · split at h
    · cases h
    · obtain ⟨_, -, h⟩ := ok_of_bind h
      cases h
      rfl

/-- **Code that looks at words only is silent.** -/
theorem Code.isSilent_of_onKinds (bound : Nat) :
    ∀ {code : Code} {ks ks' : List Kind}, code.onKinds ks = some ks' → code.isSilent bound = true
  | [], _, _, _ => rfl
  | .plain p :: is, ks, ks', h => by
    obtain ⟨mid, hp, his⟩ := Option.bind_eq_some_iff.1 h
    have hsilent : p.isSilent bound = true := by
      cases p <;> first | rfl | cases hp
    rw [Code.isSilent, hsilent, Code.isSilent_of_onKinds bound his]
    rfl
  | .call _ :: _, _, _, h | .br _ :: _, _, _, h | .cond .. :: _, _, _, h | .loop _ :: _, _, _, h => by
    cases h

end Wasm

/-- **Swapping two words** changes no other local than the scratch registers. -/
theorem Registers.exec_swap {spaces : IndexSpaces} (inst : Instance spaces) {fuel : Nat} {m m' : Machine}
    {r : Registers} (h : Code.exec inst fuel r.swap m = .next m') :
    ∃ a b ws, m.stack = a :: b :: ws ∧ m'.stack = b :: a :: ws ∧ m'.memory = m.memory ∧
      ∀ i, r.base + 2 ≤ i → m'.locals[i]? = m.locals[i]? := by
  obtain ⟨m₁, hset, h⟩ := (Code.exec_plain_eq_next inst).1 h
  obtain ⟨a, ws₁, hm, hlt, rfl⟩ := Plain.step_localSet_eq_ok hset
  obtain ⟨m₂, hset, h⟩ := (Code.exec_plain_eq_next inst).1 h
  obtain ⟨b, ws, rfl, hlt', rfl⟩ := Plain.step_localSet_eq_ok hset
  obtain ⟨m₃, hget, h⟩ := (Code.exec_plain_eq_next inst).1 h
  obtain ⟨v, hv, rfl⟩ := Plain.step_localGet_eq_ok hget
  obtain ⟨m₄, hget, ⟨⟩⟩ := (Code.exec_plain_eq_next inst).1 h
  obtain ⟨v', hv', rfl⟩ := Plain.step_localGet_eq_ok hget
  have hfirst : v = a := by
    have hne : r.second ≠ r.first := by unfold Registers.second Registers.first; omega
    rw [List.getElem?_set_ne hne, List.getElem?_set_self hlt] at hv
    exact (Option.some.inj hv).symm
  have hsecond : v' = b := by
    rw [List.getElem?_set_self hlt'] at hv'
    exact (Option.some.inj hv').symm
  subst hfirst hsecond
  refine ⟨v, v', ws, hm, rfl, rfl, fun i hi => ?_⟩
  have hne : r.second ≠ i := by unfold Registers.second; omega
  have hne' : r.first ≠ i := by unfold Registers.first; omega
  show ((m.locals.set _ _).set _ _)[i]? = _
  rw [List.getElem?_set_ne hne, List.getElem?_set_ne hne']

namespace Highwater

variable {spaces : IndexSpaces} (inst : Instance spaces) {fuel : Nat} {m m' : Machine}

/-- **Reading the mark** leaves it. -/
theorem exec_read (h : Code.exec inst fuel Highwater.read m = .next m') :
    ∃ w, m.memory.mark = some w ∧ m' = { m with stack := .i32 w :: m.stack } := by
  obtain ⟨_, ⟨⟩, h⟩ := (Code.exec_plain_eq_next inst).1 h
  obtain ⟨_, hload, ⟨⟩⟩ := (Code.exec_plain_eq_next inst).1 h
  rw [Plain.step_load rfl] at hload
  obtain ⟨n, hn, rfl⟩ := ok_of_map hload
  refine ⟨BitVec.ofNat 32 n, ?_, rfl⟩
  have hmark : m.memory.load 4 Layout.highwater = some n := some_of_orTrap hn
  rw [Memory.mark, hmark, Option.map_some]

/-- **Writing the mark** takes it from the stack, and changes no other local than the scratch registers. -/
theorem exec_write {r : Registers} (h : Code.exec inst fuel (Highwater.write r) m = .next m') :
    ∃ w ws, m.stack = .i32 w :: ws ∧ m.memory.setMark w = some m'.memory ∧ m'.stack = ws ∧
      ∀ i, r.base + 2 ≤ i → m'.locals[i]? = m.locals[i]? := by
  obtain ⟨m₁, ⟨⟩, h⟩ := (Code.exec_plain_eq_next inst).1 h
  obtain ⟨m₂, hswap, h⟩ := (Code.exec_append_eq_next inst).1 h
  obtain ⟨a, b, ws, hm, hm₂, hmemory, hlocals⟩ := Registers.exec_swap inst hswap
  obtain ⟨m₃, hstore, ⟨⟩⟩ := (Code.exec_plain_eq_next inst).1 h
  obtain ⟨v, c, ws', hstack, hk, hstored, hl, rfl⟩ := Plain.step_store_eq_ok hstore
  obtain ⟨rfl, hbelow⟩ := List.cons.inj hm
  simp only [hm₂, List.cons.injEq, Value.i32.injEq] at hstack
  obtain ⟨rfl, rfl, hws⟩ := hstack
  obtain ⟨w, rfl⟩ := eq_i32_of_kind hk
  rw [hmemory] at hstored
  exact ⟨w, ws, hbelow, hstored, hws.symm, fun i hi => by rw [hl, hlocals i hi]⟩

/-- **Moving the mark up** takes the number of bytes from the stack. -/
theorem exec_grow {r : Registers} (h : Code.exec inst fuel (Highwater.grow r) m = .next m') :
    ∃ n w ws, m.stack = .i32 n :: ws ∧ m.memory.mark = some w ∧
      m.memory.setMark (w + n) = some m'.memory ∧ m'.stack = ws ∧
      ∀ i, r.base + 2 ≤ i → m'.locals[i]? = m.locals[i]? := by
  obtain ⟨m₁, hread, h⟩ := (Code.exec_append_eq_next inst).1 h
  obtain ⟨w, hw, rfl⟩ := exec_read inst hread
  obtain ⟨m₂, hadd, h⟩ := (Code.exec_plain_eq_next inst).1 h
  obtain ⟨v, ws', hstack, hset, rfl, hlocals⟩ := exec_write inst h
  obtain ⟨sum, hsum, rfl⟩ := ok_of_map hadd
  cases hm : m.stack with
  | nil =>
    rw [hm] at hsum
    cases hsum
  | cons u ws =>
    rw [hm] at hsum
    obtain ⟨x, hx, rfl⟩ := ok_of_map hsum
    cases u with
    | i64 n => cases hx
    | i32 n =>
      cases hx
      cases hstack
      rw [BitVec.add_comm] at hset
      exact ⟨n, w, _, rfl, hw, hset, rfl, hlocals⟩

/-- **The size of a buffer in bytes** takes the place of its count. -/
theorem exec_scale {size : Nat}
    (h : Code.exec inst fuel [.constI32 size, .arith .i32 .mul] m = .next m') :
    ∃ n ws, m.stack = .i32 n :: ws ∧
      m' = { m with stack := .i32 (n * BitVec.ofNat 32 size) :: ws } := by
  obtain ⟨m₁, ⟨⟩, h⟩ := (Code.exec_plain_eq_next inst).1 h
  obtain ⟨m₂, hmul, ⟨⟩⟩ := (Code.exec_plain_eq_next inst).1 h
  obtain ⟨product, hproduct, rfl⟩ := ok_of_map hmul
  cases hm : m.stack with
  | nil =>
    rw [hm] at hproduct
    cases hproduct
  | cons u ws =>
    rw [hm] at hproduct
    obtain ⟨x, hx, rfl⟩ := ok_of_map hproduct
    cases u with
    | i64 n => cases hx
    | i32 n =>
      cases hx
      exact ⟨n, ws, rfl, rfl⟩

/-- **Saving the mark** writes it to a local. -/
theorem exec_save {i : Nat} (h : Code.exec inst fuel (Highwater.read ++ [.localSet i, .unit]) m = .next m') :
    ∃ w, m.memory.mark = some w ∧ i < m.locals.length ∧
      m' = { m with locals := m.locals.set i (.i32 w), stack := .unit :: m.stack } := by
  obtain ⟨m₁, hread, h⟩ := (Code.exec_append_eq_next inst).1 h
  obtain ⟨w, hw, rfl⟩ := exec_read inst hread
  obtain ⟨m₂, hset, h⟩ := (Code.exec_plain_eq_next inst).1 h
  obtain ⟨v, ws, hm, hlt, rfl⟩ := Plain.step_localSet_eq_ok hset
  obtain ⟨m₃, ⟨⟩, ⟨⟩⟩ := (Code.exec_plain_eq_next inst).1 h
  obtain ⟨rfl, rfl⟩ := List.cons.inj hm
  exact ⟨w, hw, hlt, rfl⟩

/-- **Restoring the mark** takes it from a local, and changes no other local than the scratch registers. -/
theorem exec_restore {r : Registers} {i : Nat}
    (h : Code.exec inst fuel (.localGet i :: Highwater.write r ++ [.unit]) m = .next m') :
    ∃ w, m.locals[i]? = some (.i32 w) ∧ m.memory.setMark w = some m'.memory ∧
      ∀ j, r.base + 2 ≤ j → m'.locals[j]? = m.locals[j]? := by
  obtain ⟨m₂, hrestore, hunit⟩ := (Code.exec_append_eq_next inst).1 h
  obtain ⟨m₁, hget, hwrite⟩ := (Code.exec_plain_eq_next inst).1 hrestore
  obtain ⟨v, hv, rfl⟩ := Plain.step_localGet_eq_ok hget
  obtain ⟨w, ws, hm, hset, -, hlocals⟩ := exec_write inst hwrite
  obtain ⟨rfl, -⟩ := List.cons.inj hm
  obtain ⟨m₃, ⟨⟩, ⟨⟩⟩ := (Code.exec_plain_eq_next inst).1 hunit
  exact ⟨w, hv, hset, hlocals⟩

end Highwater

end WasmLowering
