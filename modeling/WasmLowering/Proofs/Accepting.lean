/-
# What a reader has read if it succeeds

`WasmLowering.Proofs.Reading` tells that what is written is read back if it is
within the limits of the reader.  Here nothing is known about limits: `Takes` says
of a reader and some bytes that if it succeeds on them, wherever they stand and
whatever follows, it has taken just these bytes and given something with a
property.  The limits are then part of what is found out:

| reader          | on                  | has found                          |
|-----------------|---------------------|------------------------------------|
| `u32`           | `Leb128.unsigned n` | `n`, and that it is below `2 ^ 32` |
| `size limit`    | `Leb128.unsigned n` | `n`, and that it is within the limit |
| `name`          | `Encode.name s`     | `s`                                |
| `typeGroup`     | `Encode.funcType t` | `t`, and that its arity is within the limit |
-/

import WasmLowering.Proofs.Framing
import WasmLowering.Proofs.ItemChecking

namespace WasmLowering
namespace Wasm

/-- If a reader succeeds on bytes, wherever they stand and whatever follows, it has taken them as something
with a property. -/
def Takes {α : Type} (r : Reader α) (bytes : Bytes) (P : α → Prop) : Prop :=
  ∀ offset rest a s, r ⟨offset, bytes ++ rest⟩ = .ok (a, s) → s = ⟨offset + bytes.length, rest⟩ ∧ P a

/-- A reader fails wherever it is. -/
def Fails {α : Type} (r : Reader α) : Prop := ∀ s, ∃ e, r s = .error e

namespace Takes

variable {α β : Type} {r : Reader α} {bs cs : Bytes} {P : α → Prop} {Q : β → Prop}

/-- **What is read for certain** is read if reading succeeds. -/
theorem of_reads (h : Reads r bs P) : Takes r bs P := by
  intro offset rest a s hr
  obtain ⟨a', hr', ha'⟩ := h offset rest
  rw [hr'] at hr
  cases hr
  exact ⟨rfl, ha'⟩

theorem pure {a : α} (h : P a) : Takes (Pure.pure a) [] P := of_reads (.pure h)

/-- **One reader after the other** takes the bytes of the one and then those of the other. -/
theorem bind {f : α → Reader β} (h : Takes r bs P) (hf : ∀ a, P a → Takes (f a) cs Q) :
    Takes (r >>= f) (bs ++ cs) Q := by
  intro offset rest b s hrun
  obtain ⟨⟨a, mid⟩, hr, hb⟩ := ok_of_bind (x := r ⟨offset, bs ++ cs ++ rest⟩) hrun
  rw [List.append_assoc] at hr
  obtain ⟨rfl, ha⟩ := h offset (cs ++ rest) a mid hr
  rw [List.length_append, ← Nat.add_assoc]
  exact hf a ha (offset + bs.length) rest b s hb

/-- **A reader that takes nothing** comes before one that does. -/
theorem bindNil {f : α → Reader β} (h : Takes r [] P) (hf : ∀ a, P a → Takes (f a) cs Q) :
    Takes (r >>= f) cs Q := bind h hf

/-- **A reader that takes nothing** comes after one that does. -/
theorem bindLast {f : α → Reader β} (h : Takes r bs P) (hf : ∀ a, P a → Takes (f a) [] Q) :
    Takes (r >>= f) bs Q := by
  rw [← List.append_nil bs]
  exact bind h hf

/-- **A result is made of what was read.** -/
theorem map {f : α → β} (h : Takes r bs P) (hf : ∀ a, P a → Q (f a)) :
    Takes (r >>= fun a => Pure.pure (f a)) bs Q :=
  h.bindLast fun a ha => .pure (hf a ha)

/-- **The offset** may be anything. -/
theorem atPosition {f : Nat → Reader β} (hf : ∀ here, Takes (f here) bs Q) :
    Takes (Reader.position >>= f) bs Q :=
  (of_reads .position).bindNil fun here _ => hf here

/-- **The first byte is taken** before the others. -/
theorem byteBind {b : UInt8} {f : UInt8 → Reader β} (h : Takes (f b) bs Q) :
    Takes (Reader.byte >>= f) (b :: bs) Q := by
  show Takes _ ([b] ++ bs) Q
  refine (of_reads (.byte b)).bind ?_
  rintro _ rfl
  exact h

/-- **What was looked at** is still to be taken. -/
theorem lookBind {a : α} {f : α → Reader β} (h : Looks r bs a) (hf : Takes (f a) bs Q) :
    Takes (r >>= f) bs Q := by
  intro offset rest b s hrun
  obtain ⟨⟨a', mid⟩, hr, hb⟩ := ok_of_bind (x := r ⟨offset, bs ++ rest⟩) hrun
  rw [h offset rest] at hr
  cases hr
  exact hf offset rest b s hb

/-- **A check that passed** gave its result. -/
theorem check {offset : Nat} {x : Except Violation α} (h : ∀ a, x = .ok a → P a) :
    Takes (Reader.check offset x) [] P := by
  cases x with
  | ok a => exact .pure (h a rfl)
  | error cause =>
    intro _ _ _ _ hrun
    cases hrun

/-- **A computation that succeeded** took nothing. -/
theorem lift {x : Except Rejection α} (h : ∀ a, x = .ok a → P a) : Takes (liftM x : Reader α) [] P := by
  cases x with
  | ok a => exact .pure (h a rfl)
  | error e =>
    intro _ _ _ _ hrun
    cases hrun

/-- **A reader that succeeds** was not refused. -/
theorem guarded {p : Prop} [Decidable p] {refusal : Reader α} (hfails : Fails refusal)
    (h : ¬ p → Takes r bs P) : Takes (if p then refusal else r) bs P := by
  split
  · intro offset rest a s hrun
    obtain ⟨e, he⟩ := hfails ⟨offset, bs ++ rest⟩
    rw [he] at hrun
    cases hrun
  · rename_i hp
    exact h hp

/-- **A reader that succeeds** was let in. -/
theorem admitted {p : Prop} [Decidable p] {refusal : Reader α} (hfails : Fails refusal)
    (h : p → Takes r bs P) : Takes (if p then r else refusal) bs P := by
  rw [← ite_not]
  exact guarded hfails fun hp => h (Decidable.of_not_not hp)

end Takes

/-! ## Numbers, names and lists -/

namespace Takes

/-- **A number that is read** was written, and there is room for it. -/
theorem unsigned (e : VarInt) {lastBits : Nat} (hbits : Nat.pow 2 lastBits ≤ 128) : (more n : Nat) →
    Takes (Reader.unsigned e lastBits more) (Leb128.unsigned n)
      (fun a => a = n ∧ n < Leb128.room lastBits more)
  | 0, n => by
    rw [Leb128.unsigned]
    by_cases hn : n < 128
    · have hbyte : n.toUInt8.toNat = n := Reads.toNat_toUInt8 (by omega)
      rw [if_pos hn]
      refine .atPosition fun here => .byteBind ?_
      rw [hbyte]
      exact .admitted (fun _ => ⟨_, rfl⟩) fun hroom => .pure ⟨rfl, hroom⟩
    · have hbyte : (n % 128 + 128).toUInt8.toNat = n % 128 + 128 := Reads.toNat_toUInt8 (by omega)
      rw [if_neg hn]
      refine .atPosition fun here => .byteBind ?_
      rw [hbyte]
      exact .admitted (fun _ => ⟨_, rfl⟩) fun hroom => absurd hroom (by omega)
  | more + 1, n => by
    have hroom : Leb128.room lastBits (more + 1) = 128 * Leb128.room lastBits more := rfl
    rw [Leb128.unsigned, Reader.unsigned]
    by_cases hn : n < 128
    · have hpos : 0 < Leb128.room lastBits more := by
        have hle : ∀ more, 0 < Leb128.room lastBits more := by
          intro more
          induction more with
          | zero => exact Nat.two_pow_pos lastBits
          | succ more ih => exact Nat.mul_pos (by decide) ih
        exact hle more
      have hbyte : n.toUInt8.toNat = n := Reads.toNat_toUInt8 (by omega)
      rw [if_pos hn]
      refine .byteBind ?_
      rw [hbyte, if_pos hn]
      exact .pure ⟨rfl, by omega⟩
    · have hbyte : (n % 128 + 128).toUInt8.toNat = n % 128 + 128 := Reads.toNat_toUInt8 (by omega)
      rw [if_neg hn]
      refine .byteBind ?_
      rw [hbyte, if_neg (by omega)]
      refine (unsigned e hbits more (n / 128)).map ?_
      rintro _ ⟨rfl, hlt⟩
      exact ⟨by omega, by omega⟩

/-- **A number that is read** is below `2 ^ 32`. -/
theorem u32 (n : Nat) : Takes Reader.u32 (Leb128.unsigned n) (fun a => a = n ∧ n < 4294967296) :=
  unsigned .u32 (by decide) 4 n

theorem u64 (n : Nat) : Takes Reader.u64 (Leb128.unsigned n) (· = n) := by
  intro offset rest a s hrun
  obtain ⟨hs, ha, -⟩ := unsigned .u64 (by decide) 9 n offset rest a s hrun
  exact ⟨hs, ha⟩

/-- **A name that is read** was written. -/
theorem name (s : String) : Takes Reader.name (Encode.name s) (· = s) := by
  by_cases hlimit : (utf8 s).length ≤ Reader.nameLimit
  · exact of_reads (.name hlimit)
  · refine (u32 _).bind ?_
    rintro _ ⟨rfl, -⟩
    exact .guarded (fun _ => ⟨_, rfl⟩) fun hle => absurd (Nat.le_of_not_lt hle) hlimit

/-- **A count that is read** is within the limit. -/
theorem size {limit : Nat} (what : String) (n : Nat) :
    Takes (Reader.size limit what) (Leb128.unsigned n) (fun a => a = n ∧ n ≤ limit) := by
  refine .atPosition fun here => (u32 n).bindLast ?_
  rintro _ ⟨rfl, -⟩
  exact .guarded (fun _ => ⟨_, rfl⟩) fun hlimit => .pure ⟨rfl, Nat.le_of_not_lt hlimit⟩

/-- **Kinds that are read** were written, and they are within the limit. -/
theorem kinds {limit : Nat} (what : String) (ks : List Kind) :
    Takes (Reader.limited limit what Reader.valType) (Encode.list (fun k => [kindByte k]) ks)
      (fun a => a = valTypes ks ∧ ks.length ≤ limit) := by
  refine (size what ks.length).bind ?_
  rintro _ ⟨rfl, hlimit⟩
  intro offset rest a s hrun
  obtain ⟨hs, ha⟩ := of_reads (.many ks fun k _ => .valType k) offset rest a s hrun
  exact ⟨hs, ha, hlimit⟩

end Takes

/-! ## Types and items -/

namespace Takes

/-- **A function type that is read** was written, and its arity is within the limit. -/
theorem typeGroup (t : FuncType) :
    Takes Reader.typeGroup (Encode.funcType t)
      (fun a => a = [t.definition] ∧ t.params.length ≤ Reader.arityLimit) := by
  have hsignature : Takes Reader.signature
      (Encode.list (fun k => [kindByte k]) t.params ++ Encode.list (fun k => [kindByte k]) t.results)
      (fun a => a = t.signature ∧ t.params.length ≤ Reader.arityLimit) := by
    refine (kinds _ t.params).bind ?_
    rintro _ ⟨rfl, hparams⟩
    refine (kinds _ t.results).map ?_
    rintro _ ⟨rfl, -⟩
    exact ⟨rfl, hparams⟩
  have hshape : Takes Reader.shape (Encode.funcType t)
      (fun a => a = .func t.signature ∧ t.params.length ≤ Reader.arityLimit) := by
    refine .atPosition fun here => .byteBind (hsignature.map ?_)
    rintro _ ⟨rfl, hparams⟩
    exact ⟨rfl, hparams⟩
  have hdef : Takes Reader.typeDef (Encode.funcType t)
      (fun a => a = t.definition ∧ t.params.length ≤ Reader.arityLimit) := by
    refine .lookBind (Looks.marked (by decide) _) ?_
    refine .lookBind (Looks.marked (by decide) _) ?_
    refine .lookBind (Looks.marked (by decide) _) ?_
    refine .lookBind (Looks.link (by decide) _) ?_
    refine .lookBind (Looks.link (by decide) _) ?_
    refine hshape.map ?_
    rintro _ ⟨rfl, hparams⟩
    exact ⟨rfl, hparams⟩
  refine .lookBind (Looks.marked (by decide) _) ?_
  refine hdef.map ?_
  rintro _ ⟨rfl, hparams⟩
  exact ⟨rfl, hparams⟩

/-- **What an import brings in** was written. -/
theorem itemType (e : Entity) : Takes Reader.itemType (Encode.entity e) (· = importType e) := by
  refine .atPosition fun here => ?_
  cases e with
  | function t =>
    refine .byteBind ((u32 t).map ?_)
    rintro _ ⟨rfl, -⟩
    rfl
  | global k =>
    refine .byteBind ((of_reads (.globalType k)).map ?_)
    rintro _ rfl
    rfl
  | memory pages =>
    have hlimits : Takes (Reader.limits 0) (Leb128.unsigned pages) (· = ⟨pages, none, .i32⟩) := by
      refine (u64 pages).bindLast ?_
      rintro _ rfl
      exact .pure rfl
    have htype : Takes Reader.memoryType (0x00 :: Leb128.unsigned pages) (· = .ofPages pages) := by
      refine .atPosition fun here => .byteBind (.guarded (fun _ => ⟨_, rfl⟩) fun _ => hlimits.bindLast ?_)
      rintro _ rfl
      exact .pure rfl
    refine .byteBind (htype.map ?_)
    rintro _ rfl
    rfl

end Takes

/-! ## Sections -/

/-- **What comes next may be looked at whole.** -/
theorem Takes.ofGet {β : Type} {bs : Bytes} {Q : β → Prop} {f : Slice → Reader β} {r : Reader β}
    (hf : ∀ offset rest, f ⟨offset, bs ++ rest⟩ = r) (h : Takes r bs Q) : Takes (get >>= f) bs Q := by
  intro offset rest b s hrun
  refine h offset rest b s ?_
  rw [← hf offset rest]
  exact hrun

/-- **The size of a section that is read** is below `2 ^ 32`. -/
theorem Takes.sectionStart {id : UInt8} (hid : id ≠ 0) (size : Nat) :
    Takes (Payload.readStart none) (id :: Leb128.unsigned size) (fun _ => size < 4294967296) := by
  refine .atPosition fun here => .ofGet (fun offset rest => if_neg ?_) (.byteBind ?_)
  · exact fun hmagic => hid (List.cons.inj hmagic).1
  · refine .guarded (fun _ => ⟨_, rfl⟩) fun _ => .atPosition fun sizeAt => (u32 size).bindLast ?_
    rintro _ ⟨rfl, hsize⟩
    exact .atPosition fun start => .guarded (fun _ => ⟨_, rfl⟩) fun _ => .pure hsize

/-- **A list is no longer than its bytes** if every item has some. -/
theorem Encode.length_le_list {α : Type} {enc : α → Bytes} (henc : ∀ x, enc x ≠ []) (xs : List α) :
    xs.length ≤ (Encode.list enc xs).length := by
  have hitems : xs.length ≤ (xs.flatMap enc).length := by
    induction xs with
    | nil => exact Nat.le_refl 0
    | cons x xs ih =>
      have hx := List.length_pos_iff.2 (henc x)
      rw [List.flatMap_cons, List.length_append, List.length_cons]
      omega
  rw [Encode.list, List.length_append]
  omega

/-- **A check that went on** behind a payload went on with its result. -/
theorem Payload.foldM_eq_ok {α : Type} {check : α → Payload → Except Rejection α} {a b : α} {f : Frame}
    {limit : Nat} (h : foldM check a (upTo (limit + 1) [f]) = .ok b) :
    ∃ payload frames a', f.next = .ok (payload, frames) ∧ check a payload = .ok a' ∧
      foldM check a' (upTo limit frames) = .ok b := by
  cases hnext : f.next with
  | error r =>
    rw [upTo, hnext] at h
    cases h
  | ok p =>
    obtain ⟨payload, frames⟩ := p
    cases hcheck : check a payload with
    | error r =>
      rw [upTo, hnext] at h
      obtain ⟨_, hfold, -⟩ := ok_of_bind h
      rw [List.foldlM_cons, hcheck] at hfold
      cases hfold
    | ok a' =>
      rw [foldM_upTo hnext hcheck] at h
      exact ⟨payload, frames, a', rfl, hcheck, h⟩

/-- **The next section of a module that can be read** has a size below `2 ^ 32`. -/
theorem Frame.size_of_next {p : Progress} {id : UInt8} {content rest : Bytes} {offset : Nat}
    {next : Payload × List Frame} (hid : id ≠ 0)
    (h : (Frame.inModule p offset (Encode.sect id content ++ rest)).next = .ok next) :
    content.length < 4294967296 := by
  have hbytes : Encode.sect id content ++ rest = (id :: Leb128.unsigned content.length) ++ (content ++ rest) := by
    rw [Encode.sect, Encode.sized, List.cons_append, List.append_assoc, List.cons_append]
  rw [hbytes] at h
  obtain ⟨⟨a, s⟩, hstart, -⟩ := ok_of_bind
    (x := Payload.readStart none ⟨offset, (id :: Leb128.unsigned content.length) ++ (content ++ rest)⟩) h
  exact (Takes.sectionStart hid content.length offset (content ++ rest) a s hstart).2

end Wasm
end WasmLowering
