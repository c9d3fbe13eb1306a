/-
# Reading code back

Each opcode is written as a byte that tells what it is and the bytes of its
operands.  It is read back as the operation that is checked, if its operands
fit in the numbers they are written as.

Reading keeps the forms of the open blocks, to see that the mark between the
arms of a conditional stands in one and that blocks are closed.  The opcodes of
structured code are always well placed and leave the open blocks as they were
(`Code.nested`), so all of them are read, up to the mark that closes the body.

What code refers to by typing rules exists, so its operands are as small as the
index spaces are, and branches count no more blocks than there are opcodes.
-/

import WasmLowering.Proofs.Checking
import WasmLowering.Proofs.Reading

namespace WasmLowering
namespace Wasm

/-! ## Opcodes -/

/-- The numbers that operands stay below. -/
def operandBound : Nat := 4294967296

/-- The byte that a plain instruction starts with. -/
def Plain.byte : Plain → UInt8
  | const (.i32 _) => 0x41
  | const (.i64 _) => 0x42
  | arith k op => op.opcode k
  | compare k rel => rel.opcode k
  | convert c => c.opcode
  | localGet _ => 0x20
  | localSet _ => 0x21
  | localTee _ => 0x22
  | globalGet _ => 0x23
  | drop => 0x1a
  | load op _ => op.opcode
  | store op _ => op.opcode

/-- The bytes of the operands of a plain instruction. -/
def Plain.operands : Plain → Bytes
  | const (.i32 w) => Leb128.signed w.toInt
  | const (.i64 w) => Leb128.signed w.toInt
  | localGet i | localSet i | localTee i | globalGet i => Leb128.unsigned i
  | load _ arg | store _ arg => Encode.memArg arg
  | arith .. | compare .. | convert _ | drop => []

/-- The byte that an opcode starts with. -/
def Opcode.byte : Opcode → UInt8
  | plain p => p.byte
  | call _ => 0x10
  | br _ => 0x0c
  | cond _ => 0x04
  | loop => 0x03
  | otherwise => 0x05
  | finish => Encode.finishByte

/-- The bytes of the operands of an opcode. -/
def Opcode.operands : Opcode → Bytes
  | plain p => p.operands
  | call i | br i => Leb128.unsigned i
  | cond result => [Encode.blockType result]
  | loop => [Encode.noResult]
  | otherwise | finish => []

/-- **An opcode is written as its byte and its operands.** -/
theorem Encode.opcode_eq (op : Opcode) : Encode.opcode op = op.byte :: op.operands := by
  cases op with
  | plain p => cases p with
    | const v => cases v <;> rfl
    | _ => rfl
  | _ => rfl

/-- The operands of a plain instruction fit in the numbers they are written as. -/
def Plain.Fits : Plain → Prop
  | localGet i | localSet i | localTee i | globalGet i => i < operandBound
  | load op arg => arg.Fits op.naturalAlign
  | store op arg => arg.Fits op.naturalAlign
  | const _ | arith .. | compare .. | convert _ | drop => True

/-- The operands of an opcode fit in the numbers they are written as. -/
def Opcode.Fits : Opcode → Prop
  | plain p => p.Fits
  | call i | br i => i < operandBound
  | cond _ | loop | otherwise | finish => True

namespace Reads

/-- **Alignment and offset are read back,** for the first memory. -/
theorem memoryAccess {arg : MemArg} {naturalAlign : Nat} (h : arg.Fits naturalAlign)
    (hn : naturalAlign < 64) (r : AccessRange) :
    Reads (Decode.memoryAccess false r) (Encode.memArg arg)
      (· = ⟨0, arg.align, r.natural, false, arg.offset, r.effect⟩) := by
  have halign : arg.align < 64 := Nat.lt_of_le_of_lt h.align hn
  have hoffset : arg.offset < 4294967296 := h.offset
  have hbit : arg.align.testBit 6 = false := Nat.testBit_lt_two_pow halign
  refine .bindNil .position fun here _ => (u32 (by omega)).bind ?_
  rintro _ rfl
  simp only [hbit, Bool.false_eq_true, if_false]
  refine .bindNil (.pure rfl) ?_
  rintro _ rfl
  refine .guarded (Nat.not_le.2 halign) ?_
  refine (u64 (by omega)).map ?_
  rintro _ rfl
  rfl

/-- **The type of a block is read back.** -/
theorem blockType (result : Option Kind) :
    Reads Reader.blockType [Encode.blockType result] (· = Wasm.blockType result) := by
  refine .peekBind ?_
  match result with
  | none => exact .byteBind (.pure rfl)
  | some .i32 =>
    refine (valType .i32).map ?_
    rintro _ rfl
    rfl
  | some .i64 =>
    refine (valType .i64).map ?_
    rintro _ rfl
    rfl

/-- **The operands of a plain instruction are read back.** -/
theorem plain {p : Plain} (h : p.Fits) (here : Nat) :
    Reads (Decode.plain here p.byte) p.operands (· = p.operation) := by
  cases p with
  | const v => cases v with
    | i32 w => exact (s32 w).map fun _ _ => rfl
    | i64 w => exact (s64 w).map fun _ _ => rfl
  | arith k op => cases k <;> cases op <;> exact .pure rfl
  | compare k rel => cases k <;> cases rel <;> exact .pure rfl
  | convert c => cases c <;> exact .pure rfl
  | localGet i | localSet i | localTee i | globalGet i =>
    refine (u32 h).map ?_
    rintro _ rfl
    rfl
  | drop => exact .pure rfl
  | load op arg =>
    cases op
    all_goals
      refine (memoryAccess h (by decide) _).map ?_
      rintro _ rfl
      rfl
  | store op arg =>
    cases op
    all_goals
      refine (memoryAccess h (by decide) _).map ?_
      rintro _ rfl
      rfl

end Reads

/-! ## Open blocks -/

/-- The open blocks after an opcode. -/
def Opcode.after (blocks : Nesting) : Opcode → Nesting
  | cond _ => .cond :: blocks
  | loop => .loop :: blocks
  | otherwise => .otherwise :: blocks.tail
  | finish => blocks.tail
  | plain _ | call _ | br _ => blocks

/-- **A plain instruction leaves the open blocks** and may stand in any of them. -/
theorem Plain.nesting (p : Plain) (blocks : Nesting) :
    blocks.after p.byte = blocks ∧ blocks.misplaced? p.byte = none := by
  cases p with
  | const v => cases v <;> exact ⟨rfl, rfl⟩
  | arith k op => cases k <;> cases op <;> exact ⟨rfl, rfl⟩
  | compare k rel => cases k <;> cases rel <;> exact ⟨rfl, rfl⟩
  | convert c => cases c <;> exact ⟨rfl, rfl⟩
  | load op arg => cases op <;> exact ⟨rfl, rfl⟩
  | store op arg => cases op <;> exact ⟨rfl, rfl⟩
  | localGet _ | localSet _ | localTee _ | globalGet _ | drop => exact ⟨rfl, rfl⟩

/-- **The open blocks can be told from first bytes.** -/
theorem Opcode.after_byte (op : Opcode) (blocks : Nesting) : blocks.after op.byte = op.after blocks := by
  cases op with
  | plain p => exact (p.nesting blocks).1
  | _ => rfl

/-- An opcode may stand in the innermost block. -/
def Opcode.Placed (blocks : Nesting) (op : Opcode) : Prop :=
  op = .otherwise → blocks.head? = some .cond

/-- **An opcode that may stand in the innermost block is not refused there.** -/
theorem Opcode.misplaced?_byte {op : Opcode} {blocks : Nesting} (h : op.Placed blocks) :
    blocks.misplaced? op.byte = none := by
  cases op with
  | plain p => exact (p.nesting blocks).2
  | otherwise => exact if_pos (h rfl)
  | _ => rfl

/-- **No opcode starts with the byte of an opcode of two numbers.** -/
theorem Opcode.immediates_byte (op : Opcode) (here : Nat) :
    Decode.immediates here op.byte = (do return (0, ← Decode.plain here op.byte)) := by
  cases op with
  | plain p => cases p with
    | const v => cases v <;> rfl
    | arith k op => cases k <;> cases op <;> rfl
    | compare k rel => cases k <;> cases rel <;> rfl
    | convert c => cases c <;> rfl
    | load op arg => cases op <;> rfl
    | store op arg => cases op <;> rfl
    | _ => rfl
  | _ => rfl

namespace Reads

/-- **The operands of an opcode are read back** behind its byte. -/
theorem opcode {op : Opcode} (h : op.Fits) (here : Nat) :
    Reads (Decode.plain here op.byte) op.operands (· = op.operation) := by
  cases op with
  | plain p => exact plain h here
  | call i | br i =>
    refine (u32 h).map ?_
    rintro _ rfl
    rfl
  | cond result =>
    refine (blockType result).map ?_
    rintro _ rfl
    rfl
  | loop =>
    refine (blockType none).map ?_
    rintro _ rfl
    rfl
  | otherwise => exact .pure rfl
  | finish => exact .pure rfl

/-- **An opcode is read back** as the operation that is checked, with the blocks that are open then. -/
theorem operation {op : Opcode} {blocks : Nesting} (h : op.Fits) (hp : op.Placed blocks) :
    Reads (Decode.operation blocks) (Encode.opcode op)
      (fun o => o.1.operation = op.operation ∧ o.2 = op.after blocks) := by
  rw [Encode.opcode_eq]
  refine .bindNil .position fun here _ => .byteBind ?_
  have himm : Reads (Decode.immediates here op.byte) op.operands (·.2 = op.operation) := by
    rw [Opcode.immediates_byte]
    exact (opcode h here).map fun _ ho => ho
  rw [Opcode.misplaced?_byte hp]
  exact himm.map fun _ hr => ⟨hr, op.after_byte blocks⟩

end Reads

/-- Opcodes that may stand one after the other, from some open blocks to others. -/
inductive Nested : Nesting → List Opcode → Nesting → Prop
  | nil {blocks : Nesting} : Nested blocks [] blocks
  | cons {blocks blocks' : Nesting} {op : Opcode} {ops : List Opcode} :
    blocks ≠ [] → op.Placed blocks → Nested (op.after blocks) ops blocks' →
    Nested blocks (op :: ops) blocks'

/-- **Opcodes are placed piece by piece.** -/
theorem Nested.append {a b c : Nesting} {ops ops' : List Opcode} (h : Nested a ops b)
    (h' : Nested b ops' c) : Nested a (ops ++ ops') c := by
  induction h with
  | nil => exact h'
  | cons hne hp _ ih => exact .cons hne hp (ih h')

/-- **The mark that closes a block** stands behind what is in it. -/
theorem Nested.close {form : BlockForm} {blocks : Nesting} {ops : List Opcode}
    (h : Nested (form :: blocks) ops (form :: blocks)) :
    Nested (form :: blocks) (ops ++ [.finish]) blocks :=
  h.append (.cons (List.cons_ne_nil form blocks) nofun .nil)

mutual

/-- **An instruction is well placed in any block** and leaves the open blocks as they were. -/
theorem Instr.nested : (i : Instr) → {blocks : Nesting} → blocks ≠ [] → Nested blocks i.flatten blocks
  | .plain _, _, h | .call _, _, h | .br _, _, h => .cons h nofun .nil
  | .cond _ first [], _, h => .cons h nofun (Code.nested first (List.cons_ne_nil _ _)).close
  | .cond _ first (i :: second), blocks, h => by
    have hsecond : Nested (.otherwise :: blocks) (Code.flatten (i :: second) ++ [.finish]) blocks :=
      (Code.nested (i :: second) (List.cons_ne_nil _ _)).close
    have hboth : Nested (.cond :: blocks)
        (Code.flatten first ++ .otherwise :: (Code.flatten (i :: second) ++ [.finish])) blocks :=
      (Code.nested first (List.cons_ne_nil _ _)).append
        (.cons (List.cons_ne_nil _ _) (fun _ => rfl) hsecond)
    rw [Instr.flatten, List.append_assoc, List.cons_append, List.cons_append]
    exact .cons h nofun hboth
  | .loop body, _, h => .cons h nofun (Code.nested body (List.cons_ne_nil _ _)).close

/-- **Code is well placed in any block** and leaves the open blocks as they were. -/
theorem Code.nested : (code : Code) → {blocks : Nesting} → blocks ≠ [] →
    Nested blocks code.flatten blocks
  | [], _, _ => .nil
  | i :: is, _, h => (Instr.nested i h).append (Code.nested is h)

end

/-! ## Code -/

namespace Decode

/-- **An opcode is read, then the rest.** -/
theorem codeUpTo_cons {op : Opcode} {blocks : Nesting} (h : op.Fits) (hp : op.Placed blocks)
    (hne : blocks ≠ []) (limit offset : Nat) (rest : Bytes) :
    ∃ o offset', o.operation = op.operation ∧
      codeUpTo (limit + 1) blocks ⟨offset, Encode.opcode op ++ rest⟩ =
        ⟨o :: (codeUpTo limit (op.after blocks) ⟨offset', rest⟩).operations,
          (codeUpTo limit (op.after blocks) ⟨offset', rest⟩).stop⟩ := by
  obtain ⟨⟨o, blocks'⟩, hread, ho, rfl⟩ := Reads.operation h hp offset rest
  have hbytes : (Encode.opcode op ++ rest).isEmpty = false := by
    rw [Encode.opcode_eq]
    rfl
  have hblocks : blocks.isEmpty = false := List.isEmpty_eq_false_iff.2 hne
  refine ⟨o, offset + (Encode.opcode op).length, ho, ?_⟩
  rw [codeUpTo, hread]
  simp only [hbytes, hblocks, Bool.false_eq_true, if_false]

/-- **Opcodes that are well placed are all read,** then the rest. -/
theorem codeUpTo_append {blocks blocks' : Nesting} {ops : List Opcode} (hn : Nested blocks ops blocks')
    (h : ∀ op ∈ ops, op.Fits) (limit offset : Nat) (rest : Bytes) :
    ∃ os offset', os.map Located.operation = ops.map Opcode.operation ∧
      codeUpTo (ops.length + limit) blocks ⟨offset, ops.flatMap Encode.opcode ++ rest⟩ =
        ⟨os ++ (codeUpTo limit blocks' ⟨offset', rest⟩).operations,
          (codeUpTo limit blocks' ⟨offset', rest⟩).stop⟩ := by
  induction hn generalizing offset with
  | nil => exact ⟨[], offset, rfl, by rw [List.length_nil, Nat.zero_add]; rfl⟩
  | @cons blocks blocks' op ops hne hp _ ih =>
    obtain ⟨hop, hops⟩ := List.forall_mem_cons.1 h
    obtain ⟨o, offset₁, ho, hfirst⟩ := codeUpTo_cons hop hp hne (ops.length + limit) offset
      (ops.flatMap Encode.opcode ++ rest)
    obtain ⟨os, offset₂, hos, hrest⟩ := ih hops offset₁
    refine ⟨o :: os, offset₂, by rw [List.map_cons, List.map_cons, ho, hos], ?_⟩
    rw [List.length_cons, Nat.add_right_comm, List.flatMap_cons, List.append_assoc, hfirst, hrest]
    rfl

/-- **Opcodes take bytes.** -/
theorem length_le_flatMap (ops : List Opcode) : ops.length ≤ (ops.flatMap Encode.opcode).length := by
  induction ops with
  | nil => exact Nat.le_refl 0
  | cons op ops ih =>
    rw [List.flatMap_cons, List.length_append, Encode.opcode_eq, List.length_cons, List.length_cons]
    omega

/-- **The code of a body is read back** as its operations and the mark that closes the body. -/
theorem code_eq {code : Wasm.Code} (h : ∀ op ∈ code.flatten, op.Fits) (offset : Nat) :
    ∃ os, Decode.code ⟨offset, Encode.code code ++ [Encode.finishByte]⟩ = ⟨os, none⟩ ∧
      os.map Located.operation = code.operations ++ [.finish] := by
  have hbytes : Encode.code code ++ [Encode.finishByte] =
      (code.flatten ++ [Opcode.finish]).flatMap Encode.opcode := by
    rw [List.flatMap_append]
    rfl
  have hfits : ∀ op ∈ code.flatten ++ [Opcode.finish], op.Fits :=
    List.forall_mem_append.2 ⟨h, List.forall_mem_singleton.2 trivial⟩
  obtain ⟨extra, hextra⟩ := Nat.exists_eq_add_of_le (length_le_flatMap (code.flatten ++ [.finish]))
  obtain ⟨os, offset', hos, hread⟩ :=
    codeUpTo_append (code.nested (List.cons_ne_nil .body [])).close hfits extra offset []
  have hend : codeUpTo extra [] ⟨offset', []⟩ = ⟨[], none⟩ := by
    cases extra <;> rfl
  rw [hend, List.append_nil, List.append_nil] at hread
  refine ⟨os, ?_, ?_⟩
  · rw [hbytes, Decode.code, hextra]
    exact hread
  · rw [hos, List.map_append]
    rfl

end Decode

/-! ## Constant expressions -/

namespace ConstExpr

/-- The opcode of a constant expression, before the mark that closes it. -/
def opcode : ConstExpr → Opcode
  | const v => .plain (.const v)
  | globalGet i => .plain (.globalGet i)

/-- **A constant expression is written as its opcode and the closing mark.** -/
theorem encode_eq (e : ConstExpr) :
    Encode.constExpr e = Encode.opcode e.opcode ++ Encode.opcode .finish := by
  cases e <;> rfl

/-- **A constant expression opens no blocks.** -/
theorem after_opcode (e : ConstExpr) (blocks : Nesting) : e.opcode.after blocks = blocks := by
  cases e <;> rfl

end ConstExpr

namespace Reads

/-- **A constant expression is read back** up to the mark that closes it. -/
theorem constExpr {e : ConstExpr} (h : e.opcode.Fits) :
    Reads Decode.constExpr (Encode.constExpr e)
      (·.map Located.operation = [e.opcode.operation, .finish]) := by
  have hfirst : Reads (Decode.operation .start) (Encode.opcode e.opcode)
      (fun o => o.1.operation = e.opcode.operation ∧ o.2 = .start) := by
    have hp : e.opcode.Placed .start := by cases e <;> exact nofun
    have := operation h hp
    rwa [e.after_opcode] at this
  have hlast : Reads (Decode.operation .start) (Encode.opcode .finish)
      (fun o => o.1.operation = .finish ∧ o.2 = []) := operation trivial nofun
  have hnot : e.opcode.operation ≠ .finish := by cases e <;> exact nofun
  -- The bytes at hand bound the number of instructions; two are enough.
  have hread : ∀ bytes : Bytes, 2 ≤ bytes.length → Reads (Decode.untilFinish bytes .start)
      (Encode.opcode e.opcode ++ Encode.opcode .finish)
      (·.map Located.operation = [e.opcode.operation, .finish]) := by
    rintro (_ | ⟨x, _ | ⟨y, more⟩⟩) hlength
    · cases hlength
    · rw [List.length_singleton] at hlength
      omega
    refine hfirst.bind ?_
    rintro ⟨o, _⟩ ⟨ho, rfl⟩
    have hne : o.operation ≠ .finish := ho ▸ hnot
    refine .guarded hne (Reads.map (P := (·.map Located.operation = [.finish])) ?_ ?_)
    · refine hlast.bindLast ?_
      rintro ⟨o', _⟩ ⟨ho', rfl⟩
      show Reads (if o'.operation = .finish then Pure.pure [o'] else _) [] _
      rw [if_pos ho']
      exact .pure (by rw [← ho']; rfl)
    · intro os hos
      rw [List.map_cons, hos, ← ho]
  rw [e.encode_eq]
  intro offset rest
  refine hread _ ?_ offset rest
  rw [Encode.opcode_eq, List.length_append, List.length_append, List.length_cons]
  exact Nat.le_trans (Nat.add_le_add (Nat.le_add_left 1 _) (Nat.le_refl 1)) (Nat.le_add_right _ _)

end Reads

/-! ## Typed code fits -/

/-- The index spaces and locals of code, with the blocks around it, leave room for operands. -/
structure OperandsFit (spaces : IndexSpaces) (locals : List Kind) (depth : Nat) : Prop where
  functions : spaces.functions.length ≤ operandBound
  globals : spaces.globals.length ≤ operandBound
  locals : locals.length ≤ operandBound
  depth : depth ≤ operandBound

section Typed

variable {spaces : IndexSpaces} {locals : List Kind}

theorem lt_of_getElem? {α : Type} {as : List α} {i n : Nat} {a : α} (h : as[i]? = some a)
    (hn : as.length ≤ n) : i < n :=
  Nat.lt_of_lt_of_le (List.getElem?_eq_some_iff.1 h).1 hn

/-- **A plain instruction on words fits.** -/
theorem Plain.fits_of_onKinds {p : Plain} {takes leaves : List Kind} (h : p.onKinds takes = some leaves) :
    p.Fits := by
  cases p with
  | const _ | arith _ _ | compare _ _ | convert _ | drop => trivial
  | localGet _ | localSet _ | localTee _ | globalGet _ | load _ _ | store _ _ => cases h

/-- **A block is one deeper and at least one opcode shorter** than the instruction it is in. -/
theorem OperandsFit.inner {depth length inner : Nat} (h : OperandsFit spaces locals (depth + length))
    (hlength : inner < length) : OperandsFit spaces locals (depth + 1 + inner) where
  functions := h.functions
  globals := h.globals
  locals := h.locals
  depth := by
    have := h.depth
    omega

/-- **A block fits** if its first opcode and what is in it do. -/
theorem Opcode.fits_block {op : Opcode} {ops : List Opcode} (hop : op.Fits) (h : ∀ o ∈ ops, o.Fits) :
    ∀ o ∈ op :: ops ++ [.finish], o.Fits :=
  List.forall_mem_append.2 ⟨List.forall_mem_cons.2 ⟨hop, h⟩, List.forall_mem_singleton.2 trivial⟩

theorem Opcode.length_lt_block (op : Opcode) (ops : List Opcode) :
    ops.length < (op :: ops ++ [Opcode.finish]).length := by
  rw [List.cons_append, List.length_cons, List.length_append]
  omega

mutual

/-- **A typed instruction has operands that fit.**  Branches count no more blocks than there are labels, and
each label further in takes an opcode. -/
theorem Instr.HasType.fits :
    ∀ {labels : List (List Kind)} {i : Instr} {takes leaves : List Kind},
      Instr.HasType spaces locals labels i takes leaves →
      OperandsFit spaces locals (labels.length + i.flatten.length) → ∀ op ∈ i.flatten, op.Fits
  | _, _, _, _, .words h, _ => List.forall_mem_singleton.2 (Plain.fits_of_onKinds h)
  | _, _, _, _, .localGet hi, hf | _, _, _, _, .localSet hi, hf | _, _, _, _, .localTee hi, hf =>
    List.forall_mem_singleton.2 (lt_of_getElem? hi hf.locals)
  | _, _, _, _, .globalGet hi, hf => List.forall_mem_singleton.2 (lt_of_getElem? hi hf.globals)
  | _, _, _, _, .load harg, _ => List.forall_mem_singleton.2 harg
  | _, _, _, _, .store harg, _ => List.forall_mem_singleton.2 harg
  | _, _, _, _, .call hi, hf => List.forall_mem_singleton.2 (lt_of_getElem? hi hf.functions)
  | _, _, _, _, .br hd, hf =>
    List.forall_mem_singleton.2 (lt_of_getElem? hd (Nat.le_trans (Nat.le_add_right _ _) hf.depth))
  | _, .cond _ first [], _, _, .cond hfirst _, hf => by
    rw [Instr.flatten] at hf ⊢
    exact Opcode.fits_block trivial (hfirst.fits (hf.inner (Opcode.length_lt_block _ _)))
  | _, .cond _ first (i :: second), _, _, .cond hfirst hsecond, hf => by
    have hlength : (i.flatten ++ Code.flatten second).length = (Code.flatten (i :: second)).length := rfl
    rw [Instr.flatten, List.append_assoc] at hf ⊢
    simp only [List.length_cons, List.length_append, List.cons_append, hlength] at hf
    have h₁ := hfirst.fits (hf.inner (by omega))
    have h₂ := hsecond.fits (hf.inner (by omega))
    exact List.forall_mem_append.2
      ⟨List.forall_mem_cons.2 ⟨trivial, h₁⟩, Opcode.fits_block trivial h₂⟩
  | _, .loop body, _, _, .loop hbody, hf => by
    rw [Instr.flatten] at hf ⊢
    exact Opcode.fits_block trivial (hbody.fits (hf.inner (Opcode.length_lt_block _ _)))

/-- **Typed code has operands that fit.** -/
theorem Code.HasType.fits :
    ∀ {labels : List (List Kind)} {code : Code} {takes leaves : List Kind},
      Code.HasType spaces locals labels code takes leaves →
      OperandsFit spaces locals (labels.length + code.flatten.length) → ∀ op ∈ code.flatten, op.Fits
  | _, _, _, _, .nil, _ => nofun
  | _, _, _, _, .cons hi his, hf => by
    have hdepth := hf.depth
    rw [Code.flatten, List.length_append] at hdepth
    exact List.forall_mem_append.2
      ⟨hi.fits { hf with depth := by omega }, his.fits { hf with depth := by omega }⟩

end

end Typed

end Wasm
end WasmLowering
