/-
# Where buffers lie

A new buffer starts at the mark, which is read before the count of the buffer is
computed; the mark is read again and moved up behind the count.  As long as the
mark is only moved up, buffers that are made one after the other do not overlap:

| made before `c`                        | lies                                     |
|----------------------------------------|------------------------------------------|
| before `c`'s mark was read             | below the first byte of `c`              |
| while `c`'s count was computed         | from the first byte of `c` on            |

So a buffer that is made for the count of another one starts within it or behind
it, and the two may share bytes.  All of them lie below
the mark that the run ends with.
-/

import WasmLowering.Proofs.Following
import WasmLowering.Proofs.Preservation

namespace WasmLowering

open Wasm

/-- Whether an event leaves the mark alone or moves it up without wrapping: no frame is closed, no function
is called, no element is written over the mark, and the sizes are in range. -/
def Event.isHarmless : Event → Bool
  | buffer b => b.bytes < 4294967296 && b.mark.toNat + b.bytes < 4294967296
  | store address _ => 4 ≤ address
  | call _ _ => false
  | opened => true
  | closed => false

/-- The mark of a memory is there in another one, and not below. -/
structure Memory.MarkLe (m m' : Memory) : Prop where
  forward {w : BitVec 32} : m.mark = some w → ∃ w', m'.mark = some w' ∧ w.toNat ≤ w'.toNat
  backward {w' : BitVec 32} : m'.mark = some w' → ∃ w, m.mark = some w ∧ w.toNat ≤ w'.toNat

theorem Memory.MarkLe.of_eq {m m' : Memory} (h : m'.mark = m.mark) : m.MarkLe m' where
  forward {w} hw := ⟨w, h.trans hw, Nat.le_refl _⟩
  backward {w} hw := ⟨w, h.symm.trans hw, Nat.le_refl _⟩

theorem Memory.MarkLe.trans {m m₁ m₂ : Memory} (h : m.MarkLe m₁) (h' : m₁.MarkLe m₂) : m.MarkLe m₂ where
  forward hw := by
    obtain ⟨w₁, hw₁, hle⟩ := h.forward hw
    obtain ⟨w₂, hw₂, hle'⟩ := h'.forward hw₁
    exact ⟨w₂, hw₂, Nat.le_trans hle hle'⟩
  backward hw := by
    obtain ⟨w₁, hw₁, hle'⟩ := h'.backward hw
    obtain ⟨w, hw, hle⟩ := h.backward hw₁
    exact ⟨w, hw, Nat.le_trans hle hle'⟩

/-- How buffers lie that are made from one memory to another, in the order in which they are made. -/
structure Laid (m : Memory) (bs : List Buffer) (m' : Memory) : Prop where
  /-- The mark is not moved down. -/
  grows : m.MarkLe m'
  /-- The buffers lie between the marks. -/
  above {b : Buffer} : b ∈ bs → ∃ w, m.mark = some w ∧ w.toNat ≤ b.start
  below {b : Buffer} : b ∈ bs → ∃ w, m'.mark = some w ∧ b.stop ≤ w.toNat
  /-- What is made for the count of a buffer is made before it. -/
  inner {j : Nat} {c : Buffer} : bs[j]? = some c → c.inner ≤ j
  /-- What is made before the mark of a buffer is read lies below the buffer. -/
  apart {i j : Nat} {b c : Buffer} : bs[i]? = some b → bs[j]? = some c → i + c.inner < j →
    b.stop ≤ c.start
  /-- What is made for the count of a buffer does not start below it. -/
  nested {i j : Nat} {b c : Buffer} : bs[i]? = some b → bs[j]? = some c → i < j → j ≤ i + c.inner →
    c.start ≤ b.start

namespace Laid

/-- **Nothing is made** and the mark stays. -/
theorem nil {m m' : Memory} (h : m'.mark = m.mark) : Laid m [] m' where
  grows := .of_eq h
  above hb := nomatch hb
  below hb := nomatch hb
  inner hj := nomatch hj
  apart hi := nomatch hi
  nested hi := nomatch hi

/-- **An item of two lists** is in the first or behind it. -/
theorem cases_append {α : Type} {as bs : List α} {i : Nat} {a : α} (h : (as ++ bs)[i]? = some a) :
    i < as.length ∧ as[i]? = some a ∨ ∃ k, i = as.length + k ∧ bs[k]? = some a := by
  by_cases hi : i < as.length
  · rw [List.getElem?_append_left hi] at h
    exact .inl ⟨hi, h⟩
  · rw [List.getElem?_append_right (by omega)] at h
    exact .inr ⟨i - as.length, by omega, h⟩

/-- **An item of a list with one more** is in the list, or is the last. -/
theorem cases_concat {α : Type} {as : List α} {b : α} {i : Nat} {a : α} (h : (as ++ [b])[i]? = some a) :
    i < as.length ∧ as[i]? = some a ∨ i = as.length ∧ a = b := by
  rcases cases_append h with hi | ⟨k, rfl, hk⟩
  · exact .inl hi
  · cases k with
    | zero => exact .inr ⟨rfl, (Option.some.inj hk).symm⟩
    | succ k => cases hk

/-- **Buffers made later lie behind.** -/
theorem append {m m₁ m₂ : Memory} {bs bs' : List Buffer} (h : Laid m bs m₁) (h' : Laid m₁ bs' m₂) :
    Laid m (bs ++ bs') m₂ where
  grows := h.grows.trans h'.grows
  above {b} hb := by
    rcases List.mem_append.1 hb with hb | hb
    · exact h.above hb
    · obtain ⟨w₁, hw₁, hle'⟩ := h'.above hb
      obtain ⟨w, hw, hle⟩ := h.grows.backward hw₁
      exact ⟨w, hw, Nat.le_trans hle hle'⟩
  below {b} hb := by
    rcases List.mem_append.1 hb with hb | hb
    · obtain ⟨w₁, hw₁, hle⟩ := h.below hb
      obtain ⟨w₂, hw₂, hle'⟩ := h'.grows.forward hw₁
      exact ⟨w₂, hw₂, Nat.le_trans hle hle'⟩
    · exact h'.below hb
  inner {j c} hj := by
    rcases cases_append hj with ⟨-, hj⟩ | ⟨k, rfl, hk⟩
    · exact h.inner hj
    · have hinner := h'.inner hk
      omega
  apart {i j b c} hi hj hij := by
    rcases cases_append hi with ⟨hi', hi⟩ | ⟨k, rfl, hk⟩
    · rcases cases_append hj with ⟨-, hj⟩ | ⟨l, rfl, hl⟩
      · exact h.apart hi hj hij
      · obtain ⟨w, hw, hle⟩ := h.below (List.mem_of_getElem? hi)
        obtain ⟨w', hw', hle'⟩ := h'.above (List.mem_of_getElem? hl)
        obtain rfl := Option.some.inj (hw.symm.trans hw')
        exact Nat.le_trans hle hle'
    · rcases cases_append hj with ⟨hj', -⟩ | ⟨l, rfl, hl⟩
      · omega
      · exact h'.apart hk hl (by omega)
  nested {i j b c} hi hj hlt hij := by
    rcases cases_append hj with ⟨hj', hj⟩ | ⟨l, rfl, hl⟩
    · rcases cases_append hi with ⟨-, hi⟩ | ⟨k, rfl, hk⟩
      · exact h.nested hi hj hlt hij
      · omega
    · have hinner := h'.inner hl
      rcases cases_append hi with ⟨hi', -⟩ | ⟨k, rfl, hk⟩
      · omega
      · exact h'.nested hk hl (by omega) (by omega)

/-- **A buffer is made** from the mark that was read before its count to where the mark is moved behind its
count. -/
theorem buffer {m m₁ m₂ : Memory} {bs : List Buffer} {b : Buffer} (h : Laid m bs m₁)
    (hbase : m.mark = some b.base) (hmark : m₁.mark = some b.mark) (hinner : b.inner = bs.length)
    (hset : m₁.setMark (b.mark + b.count * BitVec.ofNat 32 b.size) = some m₂)
    (hbytes : b.bytes < 4294967296) (hsum : b.mark.toNat + b.bytes < 4294967296) : Laid m (bs ++ [b]) m₂ := by
  have hproduct : (b.count * BitVec.ofNat 32 b.size).toNat = b.bytes := by
    rw [BitVec.toNat_mul, BitVec.toNat_ofNat, Nat.mul_mod_mod]
    exact Nat.mod_eq_of_lt hbytes
  have hmoved : (b.mark + b.count * BitVec.ofNat 32 b.size).toNat = b.mark.toNat + b.bytes := by
    rw [BitVec.toNat_add, hproduct]
    exact Nat.mod_eq_of_lt hsum
  have hmark₂ := Memory.mark_setMark hset
  obtain ⟨w₁, hw₁, hle⟩ := h.grows.forward hbase
  obtain rfl := Option.some.inj (hmark.symm.trans hw₁)
  have hstep : m₁.MarkLe m₂ :=
    { forward := by
        intro w hw
        obtain rfl := Option.some.inj (hmark.symm.trans hw)
        exact ⟨_, hmark₂, by omega⟩
      backward := by
        intro w hw
        obtain rfl := Option.some.inj (hmark₂.symm.trans hw)
        exact ⟨_, hmark, by omega⟩ }
  have hstop : b.stop ≤ b.mark.toNat + b.bytes := Nat.add_le_add_right hle _
  refine
    { grows := h.grows.trans hstep, above := fun hb => ?_, below := fun hb => ?_, inner := fun hj => ?_,
      apart := fun hi hj hij => ?_, nested := fun hi hj hlt hij => ?_ }
  · rcases List.mem_append.1 hb with hb | hb
    · exact h.above hb
    · obtain rfl := List.mem_singleton.1 hb
      exact ⟨_, hbase, Nat.le_refl _⟩
  · rcases List.mem_append.1 hb with hb | hb
    · obtain ⟨w, hw, hle⟩ := h.below hb
      obtain ⟨w', hw', hle'⟩ := hstep.forward hw
      exact ⟨w', hw', Nat.le_trans hle hle'⟩
    · obtain rfl := List.mem_singleton.1 hb
      exact ⟨_, hmark₂, by omega⟩
  · rcases cases_concat hj with ⟨-, hj⟩ | ⟨rfl, rfl⟩
    · exact h.inner hj
    · exact Nat.le_of_eq hinner
  · rcases cases_concat hj with ⟨hj', hj⟩ | ⟨rfl, rfl⟩
    · rcases cases_concat hi with ⟨-, hi⟩ | ⟨rfl, rfl⟩
      · exact h.apart hi hj hij
      · omega
    · omega
  · rcases cases_concat hi with ⟨-, hi'⟩ | ⟨rfl, rfl⟩
    · rcases cases_concat hj with ⟨-, hj⟩ | ⟨rfl, rfl⟩
      · exact h.nested hi' hj hlt hij
      · obtain ⟨w, hw, hle⟩ := h.above (List.mem_of_getElem? hi')
        obtain rfl := Option.some.inj (hbase.symm.trans hw)
        exact hle
    · rcases cases_concat hj with ⟨hj', -⟩ | ⟨rfl, -⟩ <;> omega

end Laid

section Trails

variable {spaces : IndexSpaces} {t : Terms spaces} {d d' : Nat} {m m' : Machine} {log : List Event}

/-- **A trail of harmless events lays its buffers apart.** -/
theorem Trail.laid (h : Trail t d m log d' m') (hlog : log.all Event.isHarmless = true) :
    Laid m.memory (buffers log) m'.memory := by
  induction h with
  | still hstill => exact .nil hstill.mark
  | left => exact .nil rfl
  | @trans _ _ _ _ _ _ log log' _ _ ih ih' =>
    rw [List.all_append, Bool.and_eq_true] at hlog
    rw [buffers, List.filterMap_append]
    exact (ih hlog.1).append (ih' hlog.2)
  | @buffer _ _ _ _ _ log b hbase _ hmark hset _ hinner _ _ ih =>
    rw [List.all_append, Bool.and_eq_true] at hlog
    have hb : Event.isHarmless (.buffer b) = true := List.all_eq_true.1 hlog.2 _ (.head _)
    simp only [Event.isHarmless, Bool.and_eq_true, decide_eq_true_eq] at hb
    rw [buffers, List.filterMap_append]
    exact (ih hlog.1).buffer hbase hmark hinner hset hb.1 hb.2
  | @store _ address _ _ _ _ hstore _ =>
    have haddress : Event.isHarmless (.store address _) = true := List.all_eq_true.1 hlog _ (.head _)
    exact .nil (Memory.mark_store hstore (of_decide_eq_true haddress))
  | call => cases hlog
  | opened _ hmemory => exact .nil (by rw [hmemory])
  | closed => cases hlog

/-- **A buffer is returned** by its construct, at the mark that was read for it. -/
theorem Trail.result_eq (h : Trail t d m log d' m') (hk : t.kinded) :
    ∀ b ∈ buffers log, b.result = some (.i32 b.base) := by
  induction h with
  | still | left | store | call | opened | closed => exact fun b hb => nomatch hb
  | trans _ _ ih ih' =>
    rw [buffers, List.filterMap_append]
    exact List.forall_mem_append.2 ⟨ih, ih'⟩
  | buffer _ _ _ _ _ _ _ hresult ih =>
    rw [buffers, List.filterMap_append]
    exact List.forall_mem_append.2 ⟨ih, List.forall_mem_singleton.2 (hresult hk)⟩

end Trails

section Runs

variable {spaces : IndexSpaces} {g : Setting spaces} {shape : Shape} {e : Expr} {st st' : LowerState} {code : Code}
  {k : Kind} {m m' : Machine} {fuel : Nat}

/-- The terms on which a well-kinded expression is watched from a machine on, whatever its loops do. -/
def Shape.terms (g : Setting spaces) (fuel : Nat) (shape : Shape) (m : Machine) : Terms spaces :=
  ⟨g.inst, fuel, shape.frame, False, True, m.locals.map Value.kind⟩

/-- **Every run of a well-kinded expression's code that comes to its end is its watched run,** whether its
loops keep their frames or not. -/
theorem Expr.watch_of_exec (hfit : spaces.Fit g.scope) (hlower : e.lower g.scope shape.frame st = .ok code st')
    (hkind : HasKind spaces g.scope shape.kinds e k) (hdepth : st.depth ≤ st.slots)
    (hroom : st'.Grows ⟨g.segment, 0, shape.slots⟩)
    (hlocals : shape.frame.Kinds shape.kinds shape.slots (m.locals.map Value.kind))
    (hrun : Code.exec g.inst fuel code m = .next m') :
    ∃ log, e.watch g shape.frame fuel st.depth m = .ok (log, m') ∧
      Trail (shape.terms g fuel m) st.depth m log st'.depth m' := by
  have hmeets : e.Meets (shape.terms g fuel m) g.scope shape.kinds st.depth :=
    ⟨nofun, nofun, fun _ => ⟨k, hkind⟩⟩
  have hsteps := (Lowers.of_lower hlower).steps (t := shape.terms g fuel m) (fun _ => hfit) (fun _ => hlocals)
    hmeets hdepth hroom m fun _ => rfl
  exact hsteps.next hrun

/-- **Buffers do not overlap, unless one is made for the count of the other.**  Every run of a well-kinded
expression's code that comes to its end makes buffers at the addresses that their constructs return, and if
no frame is closed, no function is called, no element is written over the mark and no size wraps, all of them
lie below the mark at the end, and each one lies behind every one that was made before it, except for those
that were made while its own count was computed: these start where it starts, or behind. -/
theorem Expr.buffers_apart (hfit : spaces.Fit g.scope)
    (hlower : e.lower g.scope shape.frame st = .ok code st')
    (hkind : HasKind spaces g.scope shape.kinds e k) (hdepth : st.depth ≤ st.slots)
    (hroom : st'.Grows ⟨g.segment, 0, shape.slots⟩)
    (hlocals : shape.frame.Kinds shape.kinds shape.slots (m.locals.map Value.kind))
    (hrun : Code.exec g.inst fuel code m = .next m') :
    ∃ log, e.watch g shape.frame fuel st.depth m = .ok (log, m') ∧
      (∀ b ∈ buffers log, b.result = some (.i32 b.base)) ∧
      (log.all Event.isHarmless = true →
        (∀ b ∈ buffers log, ∃ mark, m'.memory.mark = some mark ∧ b.stop ≤ mark.toNat) ∧
        ∀ (i j : Nat) (b c : Buffer), (buffers log)[i]? = some b → (buffers log)[j]? = some c → i < j →
          (i + c.inner < j → b.stop ≤ c.start) ∧ (j ≤ i + c.inner → c.start ≤ b.start)) := by
  obtain ⟨log, hwatch, htrail⟩ := watch_of_exec hfit hlower hkind hdepth hroom hlocals hrun
  refine ⟨log, hwatch, htrail.result_eq trivial, fun hlog => ?_⟩
  have hlaid := htrail.laid hlog
  refine ⟨fun b hb => hlaid.below hb, fun i j b c hi hj hlt => ⟨fun hij => ?_, fun hij => ?_⟩⟩
  · exact hlaid.apart hi hj hij
  · exact hlaid.nested hi hj hlt hij

end Runs

namespace Tally

/-- Two buffers in a row. -/
def twoBuffers : Expr :=
  .sequence [.ignore (.bufCreate 4 (.literal .u32 "10")), .bufCreate 1 (.literal .u32 "5")]

/-- A buffer whose count makes another one first. -/
def nestedBuffers : Expr :=
  .bufCreate 1 (.sequence [.ignore (.bufCreate 1 (.literal .u32 "10")), .literal .u32 "5"])

/-- The buffers of a harmless run that comes to its end. -/
def runBuffers (e : Expr) : Option (List Buffer) :=
  match e.lower scope shape.frame (.start .empty) with
  | .error _ _ => none
  | .ok code _ =>
    match Code.exec inst 1 code machine, e.watch setting shape.frame 1 0 machine with
    | .next _, .ok (log, _) => if log.all Event.isHarmless then some (buffers log) else none
    | _, _ => none

theorem kinds_machine : shape.frame.Kinds shape.kinds shape.slots (machine.locals.map Value.kind) :=
  function.kinds_locals 1

theorem of_runBuffers {e : Expr} {code : Code} {st' : LowerState} {bs : List Buffer}
    (hlower : e.lower scope shape.frame (.start .empty) = .ok code st') (h : runBuffers e = some bs) :
    ∃ m' log m₂, Code.exec inst 1 code machine = .next m' ∧
      e.watch setting shape.frame 1 0 machine = .ok (log, m₂) ∧ log.all Event.isHarmless = true ∧
      buffers log = bs := by
  simp only [runBuffers, hlower] at h
  split at h
  · next m' log m₂ hexec hwatch =>
    rw [Option.ite_none_right_eq_some, Option.some.injEq] at h
    exact ⟨m', log, m₂, hexec, hwatch, h.1, h.2⟩
  · cases h

end Tally

/-- The second of two buffers in a row lies behind the first. -/
theorem Tally.twoBuffers_apart :
    ∃ code m' log b c, twoBuffers.lower scope shape.frame (.start .empty) = .ok code (.start .empty) ∧
      Code.exec inst 1 code machine = .next m' ∧
      twoBuffers.watch setting shape.frame 1 0 machine = .ok (log, m') ∧
      log.all Event.isHarmless = true ∧ buffers log = [b, c] ∧ b.stop ≤ c.start := by
  obtain ⟨code, hlower⟩ : ∃ code, twoBuffers.lower scope shape.frame (.start .empty) = .ok code (.start .empty) :=
    ⟨_, rfl⟩
  have hbuffers : runBuffers twoBuffers =
      some [⟨128, 10, 4, 128, 0, some (.i32 128)⟩, ⟨168, 5, 1, 168, 0, some (.i32 168)⟩] := by
    decide +kernel
  have hkind : HasKind spaces scope shape.kinds twoBuffers .i32 :=
    .sequence (.ignore (.bufCreate .literal)) (.last (.bufCreate .literal))
  obtain ⟨m', log, m₂, hexec, hwatch, hlog, hbs⟩ := of_runBuffers hlower hbuffers
  obtain ⟨log', hwatch', -, hapart⟩ := Expr.buffers_apart (g := setting) fit hlower hkind (Nat.le_refl 0)
    ⟨List.prefix_refl _, Nat.zero_le _⟩ kinds_machine hexec
  cases hwatch.symm.trans hwatch'
  refine ⟨code, m', log, _, _, hlower, hexec, hwatch, hlog, hbs, ?_⟩
  exact ((hapart hlog).2 0 1 _ _ (by rw [hbs]; rfl) (by rw [hbs]; rfl) Nat.zero_lt_one).1 Nat.zero_lt_one

/-- **A buffer overlaps the one that its count makes:** the address is read before the count is computed. -/
theorem Tally.nestedBuffers_overlap :
    ∃ code m' log b c, nestedBuffers.lower scope shape.frame (.start .empty) = .ok code (.start .empty) ∧
      HasKind spaces scope shape.kinds nestedBuffers .i32 ∧ Code.exec inst 1 code machine = .next m' ∧
      nestedBuffers.watch setting shape.frame 1 0 machine = .ok (log, m') ∧
      log.all Event.isHarmless = true ∧ buffers log = [b, c] ∧ b.start < c.stop ∧ c.start < b.stop := by
  obtain ⟨code, hlower⟩ :
      ∃ code, nestedBuffers.lower scope shape.frame (.start .empty) = .ok code (.start .empty) := ⟨_, rfl⟩
  have hbuffers : runBuffers nestedBuffers =
      some [⟨128, 10, 1, 128, 0, some (.i32 128)⟩, ⟨128, 5, 1, 138, 1, some (.i32 128)⟩] := by
    decide +kernel
  have hkind : HasKind spaces scope shape.kinds nestedBuffers .i32 :=
    .bufCreate (.sequence (.ignore (.bufCreate .literal)) (.last .literal))
  obtain ⟨m', log, m₂, hexec, hwatch, hlog, hbs⟩ := of_runBuffers hlower hbuffers
  obtain ⟨log', hwatch', -⟩ := Expr.watch_of_exec (g := setting) fit hlower hkind (Nat.le_refl 0)
    ⟨List.prefix_refl _, Nat.zero_le _⟩ kinds_machine hexec
  cases hwatch.symm.trans hwatch'
  exact ⟨code, m', log, _, _, hlower, hkind, hexec, hwatch, hlog, hbs, by decide, by decide⟩

end WasmLowering
