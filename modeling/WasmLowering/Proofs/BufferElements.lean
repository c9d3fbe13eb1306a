/-
# Buffers are arrays

An access to a buffer is an access to an array of elements of one size.  With the
base `b`, the index `i` and the size `n`, one of `1`, `2`, `4` and `8`:

| construct          | what its code does                                            |
|--------------------|---------------------------------------------------------------|
| `bufRead n b i`    | leaves the element at `b + i * n`, with zeros above it        |
| `bufWrite n b i v` | puts the low `n` bytes of `v` there and changes no other byte |
| `bufSub n b i`     | leaves `b + i * n`, the base of the elements from `i` on      |

Addresses wrap at `2 ^ 32`.  A memory has no more bytes than that, so the address of
an element within the memory does not wrap (`toNat_elementAt`), and elements at
different indices have no byte in common.
-/

import WasmLowering.Proofs.Preservation

namespace WasmLowering

open Wasm

/-! ## Elements -/

/-- The address of an element. -/
def elementAt (size : Nat) (base index : BitVec 32) : BitVec 32 := base + index * BitVec.ofNat 32 size

/-- The element of a size at an index of the buffer at a base, as it is left on the stack. -/
def Memory.element (m : Memory) (size base index : Nat) : Value :=
  .ofNat (elementKind size) (m.read size (base + index * size))

/-- **An element that was written** is the number cut to its bytes. -/
theorem Memory.element_write (m : Memory) (size base index v : Nat) :
    (m.write size (base + index * size) v).element size base index =
      .ofNat (elementKind size) (v % Nat.pow 2 (8 * size)) := by
  have hpow : Nat.pow 2 (8 * size) = Nat.pow 256 size := Nat.pow_mul 2 8 size
  rw [Memory.element, Memory.read_write, hpow]

/-- **The address of an element within the memory does not wrap.** -/
theorem toNat_elementAt {size : Nat} {base index : BitVec 32} (hpos : 0 < size) (hlt : size < 4294967296)
    (hroom : base.toNat + (index.toNat + 1) * size ≤ 4294967296) :
    (elementAt size base index).toNat = base.toNat + index.toNat * size := by
  have hend : (index.toNat + 1) * size = index.toNat * size + size := Nat.succ_mul ..
  have hproduct : (index * BitVec.ofNat 32 size).toNat = index.toNat * size := by
    rw [BitVec.toNat_mul, BitVec.toNat_ofNat, Nat.mod_eq_of_lt hlt, Nat.mod_eq_of_lt (by omega)]
  rw [elementAt, BitVec.toNat_add, hproduct, Nat.mod_eq_of_lt (by omega)]

/-- **Elements from an index on** are elements of the buffer. -/
theorem elementAt_elementAt (size : Nat) (base i j : BitVec 32) :
    elementAt size (elementAt size base i) (j - i) = elementAt size base j := by
  unfold elementAt
  rw [BitVec.add_assoc, ← BitVec.add_mul, BitVec.add_comm i, BitVec.sub_add_cancel]

/-- **Elements at different indices have no byte in common.** -/
theorem elements_apart {i j : Nat} (h : j ≠ i) (base size : Nat) :
    base + j * size + size ≤ base + i * size ∨ base + (i + 1) * size ≤ base + j * size := by
  rcases Nat.lt_or_gt_of_ne h with hlt | hgt
  · have hmul : (j + 1) * size ≤ i * size := Nat.mul_le_mul_right size hlt
    rw [Nat.succ_mul] at hmul
    exact .inl (by omega)
  · have hmul : (i + 1) * size ≤ j * size := Nat.mul_le_mul_right size hgt
    exact .inr (by omega)

/-! ## Expressions without effects -/

namespace Expr

section Runs

variable {spaces : IndexSpaces} (inst : Instance spaces) (scope : Scope) (frame : Frame)

/-- An expression has code in every state of lowering, and the code takes one machine to another. -/
def Runs (e : Expr) (m m' : Machine) : Prop :=
  ∀ st, ∃ code st', e.lower scope frame st = .ok code st' ∧ ∀ fuel, Code.exec inst fuel code m = .next m'

/-- An expression leaves a word above those at hand and changes nothing else. -/
def Leaves (e : Expr) (m : Machine) (v : Value) : Prop :=
  e.Runs inst scope frame m { m with stack := v :: m.stack }

/-- An expression leaves a word that the locals alone determine. -/
def Denotes (e : Expr) (locals : List Value) (v : Value) : Prop :=
  ∀ memory stack, e.Leaves inst scope frame ⟨locals, memory, stack⟩ v

/-- **A literal denotes its word.** -/
theorem denotes_literal {w : Width} {text : String} {v : Value} (h : Literal.parse w text = .ok v)
    (locals : List Value) : (literal w text).Denotes inst scope frame locals v :=
  fun _ _ st => ⟨_, st, (Lowers.literal h).lower, fun _ => rfl⟩

/-- **A variable denotes what its local holds.** -/
theorem denotes_var {i j : Nat} {locals : List Value} {v : Value} (hj : frame.localIndex i = .ok j)
    (hv : locals[j]? = some v) : (var i).Denotes inst scope frame locals v := by
  intro memory stack st
  have hlocal : (⟨locals, memory, stack⟩ : Machine).locals[j]? = some v := hv
  exact ⟨_, st, (Lowers.var hj).lower, fun _ => Code.exec_plain inst (Plain.step_localGet hlocal) []⟩

/-! ## Accesses -/

variable {inst scope frame} {size : Nat} {base index value : Expr} {b i : BitVec 32} {v : Value}
  {locals : List Value} {memory : Memory}

/-- **The code of a base and an index** and what scales them leaves the address of the element. -/
theorem exec_elementAt {fuel : Nat} {start position : Code} {m : Machine}
    (hstart : Code.exec inst fuel start m = .next { m with stack := .i32 b :: m.stack })
    (hposition : Code.exec inst fuel position { m with stack := .i32 b :: m.stack } =
      .next { m with stack := .i32 i :: .i32 b :: m.stack }) :
    Code.exec inst fuel (start ++ position ++ elementAddress size) m =
      .next { m with stack := .i32 (elementAt size b i) :: m.stack } := by
  have hwords : (elementAddress size).onWords [.i32 i, .i32 b] = .ok [.i32 (elementAt size b i)] := rfl
  have hstack : .i32 i :: .i32 b :: m.stack = [.i32 i, .i32 b] ++ m.stack := rfl
  rw [Code.exec_append, Code.exec_append, hstart, Outcome.andThen, hposition, Outcome.andThen]
  exact Code.exec_onWords_append inst fuel hstack hwords

/-- **A part of a buffer** is at the address of its first element. -/
theorem denotes_bufSub (hbase : base.Denotes inst scope frame locals (.i32 b))
    (hindex : index.Denotes inst scope frame locals (.i32 i)) :
    (bufSub size base index).Denotes inst scope frame locals (.i32 (elementAt size b i)) := by
  intro memory stack st
  obtain ⟨start, st₁, hstart, hrunStart⟩ := hbase memory stack st
  obtain ⟨position, st₂, hposition, hrunPosition⟩ := hindex memory (.i32 b :: stack) st₁
  refine ⟨_, st₂, (Lowers.bufSub (.of_lower hstart) (.of_lower hposition)).lower, fun fuel => ?_⟩
  exact exec_elementAt (hrunStart fuel) (hrunPosition fuel)

/-- **An element is read** at its address, if it lies within the memory. -/
theorem leaves_bufRead (hsize : size ∈ elementSizes) (hbase : base.Denotes inst scope frame locals (.i32 b))
    (hindex : index.Denotes inst scope frame locals (.i32 i)) {start k : Nat}
    (haddress : (elementAt size b i).toNat = start + k * size)
    (hroom : start + k * size + size ≤ memory.size) (stack : List Value) :
    (bufRead size base index).Leaves inst scope frame ⟨locals, memory, stack⟩ (memory.element size start k) := by
  intro st
  obtain ⟨origin, st₁, horigin, hrunOrigin⟩ := hbase memory stack st
  obtain ⟨position, st₂, hposition, hrunPosition⟩ := hindex memory (.i32 b :: stack) st₁
  obtain ⟨instr, hinstr⟩ := exists_loadElement.2 hsize
  obtain ⟨op, arg, rfl, hop, harg, hkind, -⟩ := loadElement_eq_ok hinstr
  refine ⟨_, st₂, (Lowers.bufRead (.of_lower horigin) (.of_lower hposition) hinstr).lower, fun fuel => ?_⟩
  have hload : memory.load op.size ((elementAt size b i).toNat + arg.offset) =
      some (memory.read size (start + k * size)) := by
    rw [hop, harg, Nat.add_zero, haddress]
    exact if_pos hroom
  have hstep : (Plain.load op arg).step inst.globals
      ⟨locals, memory, .i32 (elementAt size b i) :: stack⟩ =
        .ok ⟨locals, memory, memory.element size start k :: stack⟩ := by
    rw [Plain.step_load rfl, hload, hkind]
    rfl
  rw [Code.exec_append, exec_elementAt (hrunOrigin fuel) (hrunPosition fuel)]
  exact Code.exec_plain inst hstep []

/-- **An element is written** at its address, if it lies within the memory. -/
theorem runs_bufWrite (hsize : size ∈ elementSizes) (hbase : base.Denotes inst scope frame locals (.i32 b))
    (hindex : index.Denotes inst scope frame locals (.i32 i)) (hvalue : value.Denotes inst scope frame locals v)
    (hkind : v.kind = elementKind size) {start : Nat} (haddress : (elementAt size b i).toNat = start)
    (hroom : start + size ≤ memory.size) (stack : List Value) :
    (bufWrite size base index value).Runs inst scope frame ⟨locals, memory, stack⟩
      ⟨locals, memory.write size start v.toNat, .unit :: stack⟩ := by
  intro st
  obtain ⟨origin, st₁, horigin, hrunOrigin⟩ := hbase memory stack st
  obtain ⟨position, st₂, hposition, hrunPosition⟩ := hindex memory (.i32 b :: stack) st₁
  obtain ⟨word, st₃, hword, hrunWord⟩ := hvalue memory (.i32 (elementAt size b i) :: stack) st₂
  obtain ⟨instr, hinstr⟩ := exists_storeElement.2 hsize
  obtain ⟨op, arg, rfl, hop, harg, hkind', -⟩ := storeElement_eq_ok hinstr
  refine ⟨_, st₃, (Lowers.bufWrite (.of_lower horigin) (.of_lower hposition) (.of_lower hword) hinstr).lower,
    fun fuel => ?_⟩
  have hstore : memory.store op.size ((elementAt size b i).toNat + arg.offset) v.toNat =
      some (memory.write size start v.toNat) := by
    rw [hop, harg, Nat.add_zero, haddress]
    exact if_pos hroom
  have hstep : (Plain.store op arg).step inst.globals
      ⟨locals, memory, v :: .i32 (elementAt size b i) :: stack⟩ =
        .ok ⟨locals, memory.write size start v.toNat, stack⟩ := by
    rw [Plain.step_store rfl (hkind.trans hkind'.symm), hstore]
    rfl
  rw [Code.exec_append, Code.exec_append, exec_elementAt (hrunOrigin fuel) (hrunPosition fuel),
    Outcome.andThen, hrunWord fuel, Outcome.andThen]
  exact Code.exec_plain inst hstep _

/-- **Accesses to a buffer are accesses to an array.**  Let a base, two indices and a value of the kind of the
elements be given by expressions whose words the locals determine, and let both elements lie within the
memory.  Writing the value at the first index changes no byte outside that element.  Then reading at the first
index leaves the value, cut to the size of the element; reading at any other index leaves what it left before;
and reading at the second index less the first, in the part of the buffer from the first index on, leaves what
reading at the second index leaves. -/
theorem bufWrite_elements (hsize : size ∈ elementSizes) {first second : Expr} {j : BitVec 32}
    (hbase : base.Denotes inst scope frame locals (.i32 b)) (hfirst : first.Denotes inst scope frame locals (.i32 i))
    (hsecond : second.Denotes inst scope frame locals (.i32 j)) (hvalue : value.Denotes inst scope frame locals v)
    (hkind : v.kind = elementKind size) (hmemory : memory.size ≤ 4294967296)
    (hroom : b.toNat + (max i.toNat j.toNat + 1) * size ≤ memory.size) :
    ∃ after : Memory,
      memory.AgreeOff (b.toNat + i.toNat * size) (b.toNat + (i.toNat + 1) * size) after ∧
      (j ≠ i → after.element size b.toNat j.toNat = memory.element size b.toNat j.toNat) ∧
      ∀ stack,
        (bufWrite size base first value).Runs inst scope frame ⟨locals, memory, stack⟩
          ⟨locals, after, .unit :: stack⟩ ∧
        (bufRead size base first).Leaves inst scope frame ⟨locals, after, stack⟩
          (.ofNat (elementKind size) (v.toNat % Nat.pow 2 (8 * size))) ∧
        (bufRead size base second).Leaves inst scope frame ⟨locals, memory, stack⟩
          (memory.element size b.toNat j.toNat) ∧
        (bufRead size base second).Leaves inst scope frame ⟨locals, after, stack⟩
          (after.element size b.toNat j.toNat) ∧
        ∀ offset : Expr, offset.Denotes inst scope frame locals (.i32 (j - i)) →
          (bufRead size (bufSub size base first) offset).Leaves inst scope frame ⟨locals, after, stack⟩
            (after.element size b.toNat j.toNat) := by
  have hbounds : 0 < size ∧ size < 4294967296 := by
    simp only [elementSizes, List.mem_cons, List.not_mem_nil, or_false] at hsize
    omega
  -- either element lies within the memory, so its address does not wrap
  have hwithin {k : BitVec 32} (hk : k.toNat ≤ max i.toNat j.toNat) :
      (elementAt size b k).toNat = b.toNat + k.toNat * size ∧
        b.toNat + k.toNat * size + size ≤ memory.size := by
    have hmul : (k.toNat + 1) * size ≤ (max i.toNat j.toNat + 1) * size :=
      Nat.mul_le_mul_right size (Nat.succ_le_succ hk)
    have hend : (k.toNat + 1) * size = k.toNat * size + size := Nat.succ_mul ..
    exact ⟨toNat_elementAt hbounds.1 hbounds.2 (by omega), by omega⟩
  obtain ⟨hati, hroomi⟩ := hwithin (Nat.le_max_left ..)
  obtain ⟨hatj, hroomj⟩ := hwithin (Nat.le_max_right ..)
  obtain ⟨after, hafter⟩ : ∃ after, after = memory.write size (b.toNat + i.toNat * size) v.toNat := ⟨_, rfl⟩
  have hagree : memory.AgreeOff (b.toNat + i.toNat * size) (b.toNat + (i.toNat + 1) * size) after := by
    rw [hafter, Nat.succ_mul, ← Nat.add_assoc]
    exact .write ..
  have hroomi' : b.toNat + i.toNat * size + size ≤ after.size := by rwa [hagree.size]
  have hroomj' : b.toNat + j.toNat * size + size ≤ after.size := by rwa [hagree.size]
  refine ⟨after, hagree, fun hne => ?_, fun stack => ⟨?_, ?_, ?_, ?_, fun offset hoffset => ?_⟩⟩
  · have hapart := elements_apart (fun h => hne (BitVec.eq_of_toNat_eq h)) b.toNat size
    rw [Memory.element, hagree.read hapart]
    rfl
  · rw [hafter]
    exact runs_bufWrite hsize hbase hfirst hvalue hkind hati hroomi stack
  · rw [← Memory.element_write memory size b.toNat i.toNat, ← hafter]
    exact leaves_bufRead hsize hbase hfirst hati hroomi' stack
  · exact leaves_bufRead hsize hbase hsecond hatj hroomj stack
  · exact leaves_bufRead hsize hbase hsecond hatj hroomj' stack
  · rw [← elementAt_elementAt size b i] at hatj
    exact leaves_bufRead hsize (denotes_bufSub hbase hfirst) hoffset hatj hroomj' stack

end Runs

end Expr

namespace Tally

/-- A memory whose bytes are their addresses, modulo 256. -/
def striped : Memory := ⟨1024, fun a => a.toUInt8⟩

/-- The index `4` as argument, the scratch registers, and the base `256` as declared local. -/
def indexLocals : List Value := [.i32 4, .i32 0, .i32 0, .i64 0, .i32 256]

/-- Of the number `0x12345` the halfword at index `3` keeps `0x2345`; its neighbour at index `4`, of the bytes
`8` and `9`, stays, and is the element at index `1` of the part from index `3` on. -/
theorem bufWrite_halfwords :
    ∃ after : Memory,
      (Expr.bufWrite 2 (.var 1) (.literal .u32 "3") (.literal .u32 "0x12345")).Runs inst scope function.frame
        ⟨indexLocals, striped, []⟩ ⟨indexLocals, after, [.unit]⟩ ∧
      (Expr.bufRead 2 (.var 1) (.literal .u32 "3")).Leaves inst scope function.frame
        ⟨indexLocals, after, []⟩ (.i32 0x2345) ∧
      (Expr.bufRead 2 (.var 1) (.var 0)).Leaves inst scope function.frame
        ⟨indexLocals, after, []⟩ (.i32 0x0908) ∧
      (Expr.bufRead 2 (.bufSub 2 (.var 1) (.literal .u32 "3")) (.literal .u32 "1")).Leaves inst scope
        function.frame ⟨indexLocals, after, []⟩ (.i32 0x0908) ∧
      after.byte 261 = 5 ∧ after.byte 264 = 8 := by
  have hliteral {text : String} {v : Value} (h : Literal.parse .u32 text = .ok v) :=
    Expr.denotes_literal inst scope function.frame h indexLocals
  have hbase : (Expr.var 1).Denotes inst scope function.frame indexLocals (.i32 256) :=
    Expr.denotes_var inst scope function.frame (j := 4) rfl rfl
  have hfour : (Expr.var 0).Denotes inst scope function.frame indexLocals (.i32 4) :=
    Expr.denotes_var inst scope function.frame (j := 0) rfl rfl
  have hthree : (Expr.literal .u32 "3").Denotes inst scope function.frame indexLocals (.i32 3) := hliteral rfl
  have hvalue : (Expr.literal .u32 "0x12345").Denotes inst scope function.frame indexLocals (.i32 0x12345) :=
    hliteral rfl
  have hone : (Expr.literal .u32 "1").Denotes inst scope function.frame indexLocals (.i32 (4 - 3)) := hliteral rfl
  have hsize : 2 ∈ elementSizes := by decide
  have hmemory : striped.size ≤ 4294967296 := by decide
  obtain ⟨after, hagree, hsame, hruns⟩ :=
    Expr.bufWrite_elements hsize hbase hthree hfour hvalue rfl hmemory (by decide)
  obtain ⟨hwrite, hread, -, hnext, hpart⟩ := hruns []
  have hneighbour : after.element 2 256 4 = .i32 0x0908 := (hsame (by decide)).trans (by decide)
  refine ⟨after, hwrite, hread, ?_, ?_, ?_, ?_⟩
  · rw [← hneighbour]
    exact hnext
  · rw [← hneighbour]
    exact hpart _ hone
  · exact (hagree.byte 261 (.inl (by decide))).trans (by decide)
  · exact (hagree.byte 264 (.inr (by decide))).trans (by decide)

end Tally

end WasmLowering
